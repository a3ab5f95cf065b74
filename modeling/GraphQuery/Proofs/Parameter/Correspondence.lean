import GraphQuery.Proofs.Parameter.Table

/-! Tables of corresponding parameters. What a table makes of a parameter depends on its key only as far
as other parameters have the same key, and the names do not depend on the values at all. -/
namespace GraphQuery

namespace Json

mutual

/-- Every value is the same as itself. -/
theorem same_self (v : Json) : v.same v = true := by
  match v with
  | .null => rfl
  | .bool b => simp [same]
  | .integer n => simp [same]
  | .float x => simp [same]
  | .string s => simp [same]
  | .array items => exact sameItems_self items
  | .object entries => exact sameEntries_self entries
termination_by structural v

theorem sameItems_self (items : List Json) : sameItems items items = true := by
  match items with
  | [] => rfl
  | v :: rest => simp [sameItems, v.same_self, sameItems_self rest]
termination_by structural items

theorem sameEntries_self (entries : List (String × Json)) : sameEntries entries entries = true := by
  match entries with
  | [] => rfl
  | (k, v) :: rest => simp [sameEntries, v.same_self, sameEntries_self rest]
termination_by structural entries

end

end Json

/-- Replacing keeps the names of the named ones among some parameters, and tells the same ones apart. -/
structure KeepsKeys (f : Parameter → Parameter) (ps : List Parameter) : Prop where
  name : ∀ p ∈ ps, (f p).name? = p.name?
  key : ∀ p ∈ ps, ∀ q ∈ ps, (f p).key = (f q).key ↔ p.key = q.key

namespace ParameterTable

section Correspondence

variable {f : Parameter → Parameter} {ps : List Parameter} {t t' : ParameterTable} {p : Parameter}

/-- Two tables that go on from the same source and know corresponding parameters by the same names. -/
structure Alike (f : Parameter → Parameter) (ps : List Parameter) (t t' : ParameterTable) : Prop where
  source : t'.source = t.source
  names : ∀ p ∈ ps, t'.names.lookup (f p).key = t.names.lookup p.key

theorem Alike.start (source : NameSource) (reserved : List String) :
    Alike f ps (.new source reserved) (.new source reserved) := ⟨rfl, fun _ _ => rfl⟩

/-- A name for a parameter is found again by the corresponding parameters. -/
theorem Alike.lookup_cons (h : Alike f ps t t') (keeps : KeepsKeys f ps) (hp : p ∈ ps) (name : String)
    {q : Parameter} (hq : q ∈ ps) :
    (((f p).key, name) :: t'.names).lookup (f q).key = ((p.key, name) :: t.names).lookup q.key := by
  have hkey : ((f q).key == (f p).key) = (q.key == p.key) := by
    rw [Bool.eq_iff_iff, beq_iff_eq, beq_iff_eq]
    exact keeps.key q hq p hp
  rw [List.lookup_cons, List.lookup_cons, hkey, h.names q hq]

theorem Alike.nameOf (h : Alike f ps t t') (keeps : KeepsKeys f ps) (hp : p ∈ ps) :
    (t'.nameOf (f p)).value.1 = (t.nameOf p).value.1 ∧
      (t'.nameOf (f p)).records = (t.nameOf p).records ∧
      Alike f ps (t.nameOf p).value.2 (t'.nameOf (f p)).value.2 := by
  have hlookup := h.names p hp
  cases hn : t.names.lookup p.key with
  | some name =>
    rw [hn] at hlookup
    rw [nameOf_of_known t p hn, nameOf_of_known t' (f p) hlookup]
    exact ⟨rfl, rfl, h⟩
  | none =>
    rw [hn] at hlookup
    cases hk : p.key with
    | named n =>
      have hk' : (f p).key = .named n :=
        Parameter.name?_eq_some.mp ((keeps.name p hp).trans (Parameter.name?_eq_some.mpr hk))
      rw [nameOf_of_named t' (f p) hlookup hk', ← hk', nameOf_of_named t p hn hk, ← hk]
      exact ⟨rfl, rfl, h.source, fun q hq => h.lookup_cons keeps hp n.text hq⟩
    | anonymous id =>
      obtain ⟨id', hk'⟩ := Parameter.name?_eq_none.mp ((keeps.name p hp).trans (Parameter.name?_eq_none.mpr ⟨id, hk⟩))
      rw [nameOf_of_anonymous t' (f p) hlookup hk', ← hk', nameOf_of_anonymous t p hn hk, ← hk, h.source]
      exact ⟨rfl, rfl, rfl, fun q hq => h.lookup_cons keeps hp _ hq⟩

/-- Corresponding parameters get the same name, whatever their values. -/
theorem Alike.register (h : Alike f ps t t') (keeps : KeepsKeys f ps) (hp : p ∈ ps) :
    (t'.register (f p)).value.1 = (t.register p).value.1 ∧
      Alike f ps (t.register p).value.2 (t'.register (f p)).value.2 := by
  obtain ⟨hname, -, halike⟩ := h.nameOf keeps hp
  refine ⟨hname, ?_, fun q hq => ?_⟩
  · rw [source_register, source_register, halike.source]
  · rw [names_register, names_register, halike.names q hq]

/-- What comes of binding a value to a name depends on the values that are bound before. -/
theorem bind_congr (h : t'.values = t.values) (name : String) (value : Option Json) :
    (t'.bind name value).value.values = (t.bind name value).value.values ∧
      (t'.bind name value).records = (t.bind name value).records := by
  unfold bind
  rw [h]
  split
  · exact ⟨rfl, rfl⟩
  · exact ⟨h, rfl⟩
  · split
    · exact ⟨rfl, rfl⟩
    · split
      · exact ⟨h, rfl⟩
      · exact ⟨h, rfl⟩

/-- With the same value a corresponding parameter changes the values alike and reports the same. -/
theorem Alike.register_of_value (h : Alike f ps t t') (keeps : KeepsKeys f ps) (hp : p ∈ ps)
    (hvalue : (f p).value = p.value) (hvalues : t'.values = t.values) :
    (t'.register (f p)).value.2.values = (t.register p).value.2.values ∧
      (t'.register (f p)).records = (t.register p).records := by
  obtain ⟨hname, hrecords, -⟩ := h.nameOf keeps hp
  have hnamed : (t'.nameOf (f p)).value.2.values = (t.nameOf p).value.2.values := by
    rw [values_nameOf, values_nameOf, hvalues]
  obtain ⟨hbound, hreported⟩ := bind_congr hnamed (t.nameOf p).value.1 p.value
  simp only [ParameterTable.register, hname, hvalue, hrecords, hbound, hreported, and_self]

/-- Corresponding parameters with the same values lead to the same values and the same reports. -/
theorem Alike.registerAll (h : Alike f ps t t') (keeps : KeepsKeys f ps)
    (hvalue : ∀ p ∈ ps, (f p).value = p.value) (hvalues : t'.values = t.values) {qs : List Parameter}
    (hqs : qs ⊆ ps) :
    (t'.registerAll (qs.map f)).value.2.values = (t.registerAll qs).value.2.values ∧
      (t'.registerAll (qs.map f)).records = (t.registerAll qs).records := by
  induction qs generalizing t t' with
  | nil => exact ⟨hvalues, rfl⟩
  | cons q qs ih =>
    obtain ⟨hq, hqs⟩ := List.cons_subset.mp hqs
    obtain ⟨hfirst, hrecords⟩ := h.register_of_value keeps hq (hvalue q hq) hvalues
    obtain ⟨hrest, hrestRecords⟩ := ih (h.register keeps hq).2 hfirst hqs
    exact ⟨hrest, congrArg₂ (· ++ ·) hrecords hrestRecords⟩

end Correspondence

section Values

variable {stem : String} {reserved : List String} {ps : List Parameter} {t : ParameterTable} {p : Parameter}
  {g : ParameterKey → Option Json}

theorem replace_self {name : String} {value : Json} {entries : List (String × Json)}
    (h : entries.lookup name = some value) : replace name value entries = entries := by
  induction entries with
  | nil => rfl
  | cons e rest ih =>
    obtain ⟨n, v⟩ := e
    unfold replace
    by_cases hn : n = name
    · rw [hn, List.lookup_cons, beq_self_eq_true] at h
      rw [if_pos hn, Option.some.inj h]
    · rw [List.lookup_cons, beq_eq_false_iff_ne.mpr (Ne.symm hn)] at h
      rw [if_neg hn, ih h]

/-- A value that is bound to a name already changes nothing. -/
theorem bind_again {name : String} {value : Option Json} (h : t.values.lookup name = some (value.getD .null)) :
    (t.bind name value).value = t := by
  unfold bind
  rw [h]
  cases value with
  | none => rfl
  | some value =>
    dsimp only [Option.getD_some] at h ⊢
    split
    · rw [replace_self h]
    · rw [if_pos value.same_self]

theorem bind_new {name : String} (value : Option Json) (h : t.values.lookup name = none) :
    (t.bind name value).value.values = t.values ++ [(name, value.getD .null)] := by
  unfold bind
  rw [h]

/-- A list of entries under different names, one for each key. -/
theorem lookup_map_of_inj {α β : Type} {keys : List α} {name : α → String} {value : α → β} {key : α}
    (hname : ∀ k ∈ keys, name k = name key → k = key) (hkey : key ∈ keys) :
    (keys.map fun k => (name k, value k)).lookup (name key) = some (value key) := by
  induction keys with
  | nil => exact absurd hkey List.not_mem_nil
  | cons k keys ih =>
    rw [List.map_cons, List.lookup_cons]
    by_cases hk : name key = name k
    · rw [hk, beq_self_eq_true, hname k List.mem_cons_self hk.symm]
    · rw [beq_eq_false_iff_ne.mpr hk]
      have hkey := (List.mem_cons.mp hkey).resolve_left fun he => hk (he ▸ rfl)
      exact ih (fun k hk => hname k (List.mem_cons_of_mem _ hk)) hkey

/-- The names under which a table binds the keys of some parameters, each with the value of its key. -/
noncomputable def bindings (stem : String) (reserved : List String) (ps : List Parameter)
    (g : ParameterKey → Option Json) : List (String × Json) :=
  (ps.map Parameter.key).eraseDups.map fun key => (assignedName stem reserved ps key, (g key).getD .null)

/-- The binding of a parameter is the binding of its key, be it new or not. -/
theorem Assigned.values_register (h : Assigned stem reserved ps t)
    (hreserved : ∀ n, .named n ∈ (ps ++ [p]).map Parameter.key → n.text ∈ reserved) (hp : p.value = g p.key)
    (ht : t.values = bindings stem reserved ps g) :
    (t.register p).value.2.values = bindings stem reserved (ps ++ [p]) g := by
  have hinj : ∀ k ∈ (ps.map Parameter.key).eraseDups,
      assignedName stem reserved (ps ++ [p]) k = assignedName stem reserved (ps ++ [p]) p.key → k = p.key := by
    intro k hk
    have hmem : k ∈ (ps ++ [p]).map Parameter.key := by
      rw [List.map_append]
      exact List.mem_append_left _ (List.mem_eraseDups.mp hk)
    exact (assignedName_inj hmem hreserved (by simp)).mp
  have hvalues : (t.nameOf p).value.2.values = (ps.map Parameter.key).eraseDups.map fun key =>
      (assignedName stem reserved (ps ++ [p]) key, (g key).getD .null) := by
    rw [values_nameOf, ht]
    exact List.map_congr_left fun k hk => by rw [assignedName_concat (List.mem_eraseDups.mp hk)]
  have hname : (t.nameOf p).value.1 = assignedName stem reserved (ps ++ [p]) p.key := (h.register p).2
  change ((t.nameOf p).value.2.bind (t.nameOf p).value.1 p.value).value.values = _
  rw [hname, bindings, List.map_append, List.map_singleton, eraseDups_concat]
  by_cases hknown : p.key ∈ ps.map Parameter.key
  · rw [if_pos (List.contains_iff_mem.mpr hknown), bind_again ?_, hvalues]
    rw [hvalues, hp]
    exact lookup_map_of_inj hinj (List.mem_eraseDups.mpr hknown)
  · rw [if_neg fun hc => hknown (List.contains_iff_mem.mp hc), bind_new _ ?_, hvalues, hp, List.map_append,
      List.map_singleton]
    rw [hvalues, List.lookup_eq_none_iff]
    intro e he
    obtain ⟨k, hk, rfl⟩ := List.mem_map.mp he
    exact bne_iff_ne.mpr fun hsame => hknown (hinj k hk hsame.symm ▸ List.mem_eraseDups.mp hk)

/-- Where the values of parameters depend on their keys alone, every name ends with the value of its key. -/
theorem values_registerAll (qs : List Parameter) (hvalue : ∀ q ∈ qs, q.value = g q.key)
    (hreserved : ∀ n, .named n ∈ qs.map Parameter.key → n.text ∈ reserved) :
    ((ParameterTable.new (.new stem) reserved).registerAll qs).value.2.values =
      bindings stem reserved qs g := by
  induction qs using List.reverseRecOn with
  | nil => rfl
  | append_singleton qs q ih =>
    have hassigned := (Assigned.start stem reserved).registerAll qs
    have hqs := ih (fun p hp => hvalue p (List.mem_append_left _ hp)) fun n hn =>
      hreserved n (by rw [List.map_append]; exact List.mem_append_left _ hn)
    rw [registerAll_append]
    exact hassigned.values_register hreserved (hvalue q (by simp)) hqs

end Values
end ParameterTable
end GraphQuery
