import GraphQuery.Parameter.Table
import GraphQuery.Proofs.Parameter.Names

/-! Runs of the parameter table. After any registrations a table knows the parameters that were
registered, each under the name that is its own or that it was given, and binds exactly these names. -/
namespace GraphQuery

theorem mem_keys_of_lookup {α β : Type} [BEq α] [LawfulBEq α] {entries : List (α × β)} {k : α} {v : β}
    (h : entries.lookup k = some v) : (k, v) ∈ entries := by
  obtain ⟨before, behind, rfl, -⟩ := List.lookup_eq_some_iff.mp h
  exact List.mem_append_right before List.mem_cons_self

theorem eraseDups_concat {α : Type} [BEq α] [LawfulBEq α] (xs : List α) (x : α) :
    (xs ++ [x]).eraseDups = if xs.contains x then xs.eraseDups else xs.eraseDups ++ [x] := by
  rw [List.eraseDups_append]
  by_cases h : xs.contains x = true
  · rw [if_pos h]
    simp [List.removeAll, List.contains_iff_mem.mp h]
  · rw [if_neg h]
    have hx : x ∉ xs := fun hx => h (List.contains_iff_mem.mpr hx)
    simp [List.removeAll, hx, List.eraseDups_cons]

theorem nodup_eraseDups {α : Type} [BEq α] [LawfulBEq α] (xs : List α) : xs.eraseDups.Nodup := by
  induction xs using List.reverseRecOn with
  | nil => simp
  | append_singleton xs x ih =>
    rw [eraseDups_concat]
    split
    · exact ih
    · next hx =>
      have hx : x ∉ xs := fun h => hx (List.contains_iff_mem.mpr h)
      refine List.nodup_append.mpr ⟨ih, List.nodup_singleton x, fun y hy z hz he => ?_⟩
      rw [List.mem_singleton.mp hz] at he
      exact hx (List.mem_eraseDups.mp (he ▸ hy))

theorem eraseDups_map {α β : Type} [BEq α] [LawfulBEq α] [BEq β] [LawfulBEq β] {f : α → β}
    (hf : ∀ x y, f x = f y → x = y) (xs : List α) : (xs.map f).eraseDups = xs.eraseDups.map f := by
  induction xs using List.reverseRecOn with
  | nil => simp
  | append_singleton xs x ih =>
    have hmem : (xs.map f).contains (f x) = xs.contains x := by
      rw [Bool.eq_iff_iff, List.contains_iff_mem, List.contains_iff_mem]
      refine ⟨fun h => ?_, fun h => List.mem_map_of_mem h⟩
      obtain ⟨y, hy, he⟩ := List.mem_map.mp h
      rwa [hf y x he] at hy
    rw [List.map_append, List.map_singleton, eraseDups_concat, eraseDups_concat, ih, hmem]
    split
    · rfl
    · rw [List.map_append, List.map_singleton]

namespace ParameterTable

section Binding

variable (t : ParameterTable) (name : String) (value : Option Json)

@[simp] theorem source_bind : (t.bind name value).value.source = t.source := by
  unfold bind
  split
  · rfl
  · rfl
  · split
    · rfl
    · split <;> rfl

@[simp] theorem names_bind : (t.bind name value).value.names = t.names := by
  unfold bind
  split
  · rfl
  · rfl
  · split
    · rfl
    · split <;> rfl

theorem keys_replace (v : Json) (entries : List (String × Json)) :
    (replace name v entries).map Prod.fst = entries.map Prod.fst := by
  induction entries with
  | nil => rfl
  | cons e rest ih =>
    obtain ⟨n, w⟩ := e
    unfold replace
    split
    · rfl
    · rw [List.map_cons, List.map_cons, ih]

/-- A name that is bound for the first time comes last, and no other name moves. -/
theorem keys_bind : (t.bind name value).value.values.map Prod.fst =
    if name ∈ t.values.map Prod.fst then t.values.map Prod.fst else t.values.map Prod.fst ++ [name] := by
  unfold bind
  split
  · next h =>
    rw [if_neg fun hm => ?_, List.map_append, List.map_singleton]
    obtain ⟨e, he, rfl⟩ := List.mem_map.mp hm
    rw [List.lookup_eq_none_iff] at h
    exact absurd (beq_self_eq_true e.1) (by simpa using h e he)
  · next old h =>
    rw [if_pos (List.mem_map.mpr ⟨_, mem_keys_of_lookup h, rfl⟩)]
  · next old v h =>
    rw [if_pos (List.mem_map.mpr ⟨_, mem_keys_of_lookup h, rfl⟩)]
    split
    · exact keys_replace name v t.values
    · split <;> rfl

end Binding

section Names

variable (t : ParameterTable) (p : Parameter)

theorem nameOf_of_known {name : String} (h : t.names.lookup p.key = some name) :
    t.nameOf p = ⟨(name, t), []⟩ := by
  simp only [nameOf, h]

theorem nameOf_of_named {n : Identifier} (h : t.names.lookup p.key = none) (hk : p.key = .named n) :
    t.nameOf p = ⟨(n.text, { t with names := (.named n, n.text) :: t.names }), []⟩ := by
  simp only [nameOf, h]
  split
  · next m hm =>
    obtain rfl : m = n := by simpa [hm] using hk
    rw [hm]
  · next id hid => simp [hid] at hk

theorem nameOf_of_anonymous {id : Nat} (h : t.names.lookup p.key = none) (hk : p.key = .anonymous id) :
    t.nameOf p = ⟨(t.source.next.1,
        { t with source := t.source.next.2, names := (.anonymous id, t.source.next.1) :: t.names }),
      [NameSource.record t.source.next.1]⟩ := by
  simp only [nameOf, h]
  split
  · next m hm => simp [hm] at hk
  · next i hi =>
    obtain rfl : i = id := by simpa [hi] using hk
    rw [hi]

@[simp] theorem values_nameOf : (t.nameOf p).value.2.values = t.values := by
  unfold nameOf
  split
  · rfl
  · split <;> rfl

theorem source_register : (t.register p).value.2.source = (t.nameOf p).value.2.source := source_bind _ _ _

theorem names_register : (t.register p).value.2.names = (t.nameOf p).value.2.names := names_bind _ _ _

theorem keys_register : (t.register p).value.2.values.map Prod.fst =
    if (t.register p).value.1 ∈ t.values.map Prod.fst then t.values.map Prod.fst
    else t.values.map Prod.fst ++ [(t.register p).value.1] := by
  have h := keys_bind (t.nameOf p).value.2 (t.nameOf p).value.1 p.value
  rw [values_nameOf] at h
  exact h

end Names

/-- Enter parameters one after the other. -/
def registerAll (t : ParameterTable) : List Parameter → Logged (List String × ParameterTable)
  | [] => ⟨([], t), []⟩
  | p :: ps =>
    let first := t.register p
    let rest := registerAll first.value.2 ps
    ⟨(first.value.1 :: rest.value.1, rest.value.2), first.records ++ rest.records⟩

theorem registerAll_append (t : ParameterTable) (ps qs : List Parameter) :
    t.registerAll (ps ++ qs) =
      ⟨((t.registerAll ps).value.1 ++ ((t.registerAll ps).value.2.registerAll qs).value.1,
          ((t.registerAll ps).value.2.registerAll qs).value.2),
        (t.registerAll ps).records ++ ((t.registerAll ps).value.2.registerAll qs).records⟩ := by
  induction ps generalizing t with
  | nil => rfl
  | cons p ps ih =>
    rw [List.cons_append, registerAll, ih]
    simp only [registerAll, List.cons_append, List.append_assoc]

end ParameterTable

section Assignment

/-- The identity of a parameter without name. -/
def Parameter.identity? (p : Parameter) : Option Nat :=
  match p.key with
  | .named _ => none
  | .anonymous id => some id

/-- The identities of the parameters without name, in the order of their first appearance. -/
def identities (ps : List Parameter) : List Nat := (ps.filterMap Parameter.identity?).eraseDups

variable (stem : String) (reserved : List String)

/-- A named parameter has its own name, and the k-th of those without name the k-th free one. -/
noncomputable def assignedName (ps : List Parameter) : ParameterKey → String
  | .named n => n.text
  | .anonymous id => stem ++ toString (NameSource.freeIndex stem reserved ((identities ps).idxOf id))

/-- A table with a stem and reserved names after the registration of some parameters. -/
structure ParameterTable.Assigned (ps : List Parameter) (t : ParameterTable) : Prop where
  stem_eq : t.source.stem = stem
  taken_of_reserved : ∀ x ∈ reserved, x ∈ t.source.taken
  reserved_or_generated : ∀ x ∈ t.source.taken, x ∈ reserved ∨ ∃ j < t.source.counter, x = stem ++ toString j
  count_eq : Nat.count (NameSource.IsFree stem reserved) t.source.counter = (identities ps).length
  lookup_eq : ∀ key, t.names.lookup key =
    if key ∈ ps.map Parameter.key then some (assignedName stem reserved ps key) else none
  keys_eq : t.values.map Prod.fst = (ps.map fun p => assignedName stem reserved ps p.key).eraseDups

variable {stem reserved} {ps : List Parameter} {p : Parameter} {id : Nat}

theorem identities_concat_named {n : Identifier} (hk : p.key = .named n) :
    identities (ps ++ [p]) = identities ps := by
  simp [identities, Parameter.identity?, hk]

theorem mem_identities : id ∈ identities ps ↔ ParameterKey.anonymous id ∈ ps.map Parameter.key := by
  simp only [identities, List.mem_eraseDups, List.mem_filterMap, List.mem_map]
  refine exists_congr fun q => and_congr_right fun _ => ?_
  unfold Parameter.identity?
  cases q.key <;> simp

theorem identities_concat_anonymous (hk : p.key = .anonymous id) : identities (ps ++ [p]) =
    if id ∈ identities ps then identities ps else identities ps ++ [id] := by
  have hid : p.identity? = some id := by simp [Parameter.identity?, hk]
  have hfm : (ps ++ [p]).filterMap Parameter.identity? = ps.filterMap Parameter.identity? ++ [id] := by
    simp [hid]
  rw [identities, hfm, eraseDups_concat]
  simp [identities]

/-- A name that is assigned stays assigned. -/
theorem assignedName_concat {key : ParameterKey} (h : key ∈ ps.map Parameter.key) :
    assignedName stem reserved (ps ++ [p]) key = assignedName stem reserved ps key := by
  cases key with
  | named n => rfl
  | anonymous id =>
    have hid : id ∈ identities ps := mem_identities.mpr h
    have hindex : (identities (ps ++ [p])).idxOf id = (identities ps).idxOf id := by
      cases hp : p.key with
      | named n => rw [identities_concat_named hp]
      | anonymous other =>
        rw [identities_concat_anonymous hp]
        split
        · rfl
        · rw [List.idxOf_append, if_pos hid]
    rw [assignedName, hindex, assignedName]

theorem assignedName_append {key : ParameterKey} (h : key ∈ ps.map Parameter.key) (qs : List Parameter) :
    assignedName stem reserved (ps ++ qs) key = assignedName stem reserved ps key := by
  induction qs generalizing ps with
  | nil => rw [List.append_nil]
  | cons q qs ih =>
    have hmem : key ∈ (ps ++ [q]).map Parameter.key := by
      rw [List.map_append]
      exact List.mem_append_left _ h
    have hq := ih hmem
    rw [List.append_assoc, List.singleton_append] at hq
    rw [hq, assignedName_concat h]

/-- While the named parameters have reserved names, different parameters have different names. -/
theorem assignedName_inj {key other : ParameterKey} (hkey : key ∈ ps.map Parameter.key)
    (hreserved : ∀ n, .named n ∈ ps.map Parameter.key → n.text ∈ reserved)
    (hother : other ∈ ps.map Parameter.key) :
    assignedName stem reserved ps key = assignedName stem reserved ps other ↔ key = other := by
  have hfree : ∀ id n, .named n ∈ ps.map Parameter.key →
      assignedName stem reserved ps (.anonymous id) ≠ n.text := fun id n hn he =>
    NameSource.isFree_freeIndex stem reserved _ (he ▸ hreserved n hn)
  refine ⟨fun h => ?_, fun h => h ▸ rfl⟩
  cases key with
  | named n =>
    cases other with
    | named m => rw [Identifier.ext_text (a := n) (b := m) h]
    | anonymous id => exact absurd h.symm (hfree id n hkey)
  | anonymous id =>
    cases other with
    | named m => exact absurd h (hfree id m hother)
    | anonymous other =>
      have hindex : (identities ps).idxOf id = (identities ps).idxOf other :=
        NameSource.freeIndex_injective stem reserved (NameSource.append_toString_injective h)
      rw [(List.idxOf_inj (mem_identities.mpr hkey)).mp hindex]

namespace ParameterTable

theorem taken_reserveAll (source : NameSource) (names : List String) (x : String) :
    x ∈ (source.reserveAll names).taken ↔ x ∈ source.taken ∨ x ∈ names := by
  induction names generalizing source with
  | nil => simp [NameSource.reserveAll]
  | cons n names ih =>
    change x ∈ ((source.reserve n).reserveAll names).taken ↔ _
    rw [ih, NameSource.taken_reserve, List.mem_cons, List.mem_cons, or_comm (a := x = n), or_assoc]

theorem source_reserveAll (source : NameSource) (names : List String) :
    (source.reserveAll names).stem = source.stem ∧ (source.reserveAll names).counter = source.counter := by
  induction names generalizing source with
  | nil => exact ⟨rfl, rfl⟩
  | cons n names ih => exact ih (source.reserve n)

variable {t : ParameterTable}

theorem Assigned.start (stem : String) (reserved : List String) :
    Assigned stem reserved [] (.new (.new stem) reserved) := by
  have hsource := source_reserveAll (.new stem) reserved
  refine ⟨hsource.1, fun x hx => ?_, fun x hx => ?_, ?_, fun key => rfl, rfl⟩
  · exact (taken_reserveAll _ _ _).mpr (.inr hx)
  · obtain hx | hx := (taken_reserveAll _ _ _).mp hx
    · exact absurd hx List.not_mem_nil
    · exact .inl hx
  · rw [ParameterTable.new, hsource.2]
    exact Nat.count_zero _

/-- What the table makes of the keys of its values, once the name of the parameter is known. -/
theorem Assigned.keys_concat (h : Assigned stem reserved ps t)
    (hname : (t.register p).value.1 = assignedName stem reserved (ps ++ [p]) p.key) :
    (t.register p).value.2.values.map Prod.fst =
      ((ps ++ [p]).map fun q => assignedName stem reserved (ps ++ [p]) q.key).eraseDups := by
  have hps : ps.map (fun q => assignedName stem reserved (ps ++ [p]) q.key) =
      ps.map fun q => assignedName stem reserved ps q.key :=
    List.map_congr_left fun q hq => assignedName_concat (List.mem_map_of_mem hq)
  rw [keys_register, h.keys_eq, hname, List.map_append, List.map_singleton, hps, eraseDups_concat]
  simp only [List.mem_eraseDups, List.contains_iff_mem]

theorem Assigned.lookup_known (h : Assigned stem reserved ps t) (hp : p.key ∈ ps.map Parameter.key)
    (key : ParameterKey) : t.names.lookup key =
      if key ∈ (ps ++ [p]).map Parameter.key then some (assignedName stem reserved (ps ++ [p]) key)
      else none := by
  rw [h.lookup_eq]
  by_cases hkey : key ∈ ps.map Parameter.key
  · rw [if_pos hkey, if_pos (by simp [hkey]), assignedName_concat hkey]
  · have hne : key ≠ p.key := fun he => hkey (he ▸ hp)
    rw [if_neg hkey, if_neg (by simpa [hne] using hkey)]

theorem Assigned.lookup_new (h : Assigned stem reserved ps t) {name : String}
    (hname : name = assignedName stem reserved (ps ++ [p]) p.key) (key : ParameterKey) :
    ((p.key, name) :: t.names).lookup key =
      if key ∈ (ps ++ [p]).map Parameter.key then some (assignedName stem reserved (ps ++ [p]) key)
      else none := by
  rw [List.lookup_cons]
  by_cases he : key = p.key
  · rw [if_pos (by simp [he]), he, beq_self_eq_true, hname]
  · rw [beq_eq_false_iff_ne.mpr he]
    change t.names.lookup key = _
    rw [h.lookup_eq]
    by_cases hkey : key ∈ ps.map Parameter.key
    · rw [if_pos hkey, if_pos (by simp [hkey]), assignedName_concat hkey]
    · rw [if_neg hkey, if_neg (by simpa [he] using hkey)]

/-- A parameter that was registered before keeps its name. -/
theorem Assigned.register_known (h : Assigned stem reserved ps t) (hp : p.key ∈ ps.map Parameter.key) :
    Assigned stem reserved (ps ++ [p]) (t.register p).value.2 ∧
      (t.register p).value.1 = assignedName stem reserved (ps ++ [p]) p.key := by
  have hnamed := nameOf_of_known t p (by rw [h.lookup_eq, if_pos hp])
  have hname : (t.register p).value.1 = assignedName stem reserved (ps ++ [p]) p.key := by
    rw [assignedName_concat hp]
    exact congrArg (fun r => r.value.1) hnamed
  have hids : identities (ps ++ [p]) = identities ps := by
    cases hk : p.key with
    | named n => exact identities_concat_named hk
    | anonymous id => rw [identities_concat_anonymous hk, if_pos (mem_identities.mpr (hk ▸ hp))]
  have hsource : (t.register p).value.2.source = t.source := by rw [source_register, hnamed]
  refine ⟨⟨hsource ▸ h.stem_eq, hsource ▸ h.taken_of_reserved, hsource ▸ h.reserved_or_generated, ?_,
    fun key => ?_, h.keys_concat hname⟩, hname⟩
  · rw [hsource, hids]
    exact h.count_eq
  · rw [names_register, hnamed]
    exact h.lookup_known hp key

/-- A new named parameter gets its own name. -/
theorem Assigned.register_named (h : Assigned stem reserved ps t) (hp : p.key ∉ ps.map Parameter.key)
    {n : Identifier} (hk : p.key = .named n) :
    Assigned stem reserved (ps ++ [p]) (t.register p).value.2 ∧
      (t.register p).value.1 = assignedName stem reserved (ps ++ [p]) p.key := by
  have hnamed := nameOf_of_named t p (by rw [h.lookup_eq, if_neg hp]) hk
  have hname : (t.register p).value.1 = assignedName stem reserved (ps ++ [p]) p.key := by
    rw [hk]
    exact congrArg (fun r => r.value.1) hnamed
  have hsource : (t.register p).value.2.source = t.source := by rw [source_register, hnamed]
  refine ⟨⟨hsource ▸ h.stem_eq, hsource ▸ h.taken_of_reserved, hsource ▸ h.reserved_or_generated, ?_,
    fun key => ?_, h.keys_concat hname⟩, hname⟩
  · rw [hsource, identities_concat_named hk]
    exact h.count_eq
  · rw [names_register, hnamed, ← hk]
    exact h.lookup_new (by rw [hk]; rfl) key

/-- The first free index that the source finds is the one that comes next among all free ones. -/
theorem Assigned.index_eq (h : Assigned stem reserved ps t) {i : Nat} (hi : t.source.IsNext i) :
    i = NameSource.freeIndex stem reserved (identities ps).length ∧
      Nat.count (NameSource.IsFree stem reserved) (i + 1) = (identities ps).length + 1 := by
  have hat : ∀ j, t.source.nameAt j = stem ++ toString j := fun j => by
    rw [NameSource.nameAt, h.stem_eq]
  refine NameSource.eq_freeIndex stem reserved h.count_eq hi.counter_le (fun hr => ?_) fun j hj hji hf => ?_
  · exact hi.free (h.taken_of_reserved _ ((hat i).symm ▸ hr))
  · obtain hr | ⟨k, hk, he⟩ := h.reserved_or_generated _ (hi.taken j hj hji)
    · exact hf (hat j ▸ hr)
    · have hjk : j = k := NameSource.append_toString_injective ((hat j).symm.trans he)
      omega

/-- A new parameter without name gets the next free name. -/
theorem Assigned.register_anonymous (h : Assigned stem reserved ps t) (hp : p.key ∉ ps.map Parameter.key)
    {id : Nat} (hk : p.key = .anonymous id) :
    Assigned stem reserved (ps ++ [p]) (t.register p).value.2 ∧
      (t.register p).value.1 = assignedName stem reserved (ps ++ [p]) p.key := by
  obtain ⟨i, hi, hnext⟩ := t.source.exists_next
  obtain ⟨hindex, hcount⟩ := h.index_eq hi
  have hnamed := nameOf_of_anonymous t p (by rw [h.lookup_eq, if_neg hp]) hk
  have hnew : id ∉ identities ps := fun hid => hp (hk ▸ mem_identities.mp hid)
  have hids : identities (ps ++ [p]) = identities ps ++ [id] := by
    rw [identities_concat_anonymous hk, if_neg hnew]
  have hat : t.source.nameAt i = assignedName stem reserved (ps ++ [p]) p.key := by
    rw [hk, assignedName, hids, List.idxOf_append, if_neg hnew, List.idxOf_cons_self, Nat.zero_add,
      ← hindex, NameSource.nameAt, h.stem_eq]
  have hname : (t.register p).value.1 = assignedName stem reserved (ps ++ [p]) p.key := by
    refine (congrArg (fun r => r.value.1) hnamed).trans ?_
    rw [hnext]
    exact hat
  have hsource : (t.register p).value.2.source =
      ⟨t.source.stem, i + 1, t.source.nameAt i :: t.source.taken⟩ := by
    rw [source_register, hnamed, hnext]
  refine ⟨⟨?_, ?_, ?_, ?_, fun key => ?_, h.keys_concat hname⟩, hname⟩
  · rw [hsource]
    exact h.stem_eq
  · rw [hsource]
    exact fun x hx => List.mem_cons_of_mem _ (h.taken_of_reserved x hx)
  · rw [hsource]
    intro x hx
    obtain rfl | hx := List.mem_cons.mp hx
    · exact .inr ⟨i, Nat.lt_succ_self i, by rw [NameSource.nameAt, h.stem_eq]⟩
    · obtain hr | ⟨j, hj, he⟩ := h.reserved_or_generated x hx
      · exact .inl hr
      · exact .inr ⟨j, Nat.lt_succ_of_lt (Nat.lt_of_lt_of_le hj hi.counter_le), he⟩
  · rw [hsource, hids, List.length_append]
    exact hcount
  · rw [names_register, hnamed, hnext, ← hk]
    exact h.lookup_new hat key

/-- One more registration assigns one more name, or finds the one assigned before. -/
theorem Assigned.register (h : Assigned stem reserved ps t) (p : Parameter) :
    Assigned stem reserved (ps ++ [p]) (t.register p).value.2 ∧
      (t.register p).value.1 = assignedName stem reserved (ps ++ [p]) p.key := by
  by_cases hp : p.key ∈ ps.map Parameter.key
  · exact h.register_known hp
  · cases hk : p.key with
    | named n => exact hk ▸ h.register_named hp hk
    | anonymous id => exact hk ▸ h.register_anonymous hp hk

/-- A run of registrations assigns the names of all its parameters. -/
theorem Assigned.registerAll (h : Assigned stem reserved ps t) (qs : List Parameter) :
    Assigned stem reserved (ps ++ qs) (t.registerAll qs).value.2 := by
  induction qs generalizing ps t with
  | nil => rwa [List.append_nil]
  | cons q qs ih =>
    have hq := ih (h.register q).1
    rwa [List.append_assoc] at hq

theorem Assigned.names_registerAll (h : Assigned stem reserved ps t) (qs : List Parameter) :
    (t.registerAll qs).value.1 = qs.map fun q => assignedName stem reserved (ps ++ qs) q.key := by
  induction qs generalizing ps t with
  | nil => rfl
  | cons q qs ih =>
    have hq : assignedName stem reserved (ps ++ [q] ++ qs) q.key =
        assignedName stem reserved (ps ++ [q]) q.key := assignedName_append (by simp) qs
    have hrest := ih (h.register q).1
    rw [List.append_assoc, List.singleton_append] at hq hrest
    rw [ParameterTable.registerAll, List.map_cons, hq, ← (h.register q).2]
    exact congrArg _ hrest

end ParameterTable

end Assignment

end GraphQuery
