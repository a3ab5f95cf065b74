import GraphQuery.Proofs.Parameter.Correspondence

/-! The values of a parameter table. Under every name stands the first value other than null that was
registered with it, and what is registered with another value later is reported. -/
namespace GraphQuery

theorem Json.isNull_iff {v : Json} : v.isNull = true ↔ v = .null := by
  cases v <;> simp [isNull]

/-- The first value other than null. -/
def firstValue (vs : List Json) : Option Json := vs.find? fun v => !v.isNull

theorem firstValue_concat (vs : List Json) (v : Json) :
    firstValue (vs ++ [v]) = (firstValue vs).or (if v.isNull then none else some v) := by
  rw [firstValue, List.find?_append, firstValue]
  cases h : v.isNull <;> simp [h]

theorem isNull_of_firstValue {vs : List Json} {v : Json} (h : firstValue vs = some v) : v.isNull = false := by
  simpa using List.find?_some h

/-- A parameter and the name under which it was entered. -/
structure Registration where
  name : String
  parameter : Parameter

namespace Registration

/-- The values that come with the registrations under a name. -/
def valuesOf (name : String) (rs : List Registration) : List Json :=
  rs.filterMap fun r => if r.name = name then r.parameter.value else none

/-- The names in the order of their first registration, each with its value. -/
def entries (rs : List Registration) : List (String × Json) :=
  (rs.map name).eraseDups.map fun n => (n, (firstValue (valuesOf n rs)).getD .null)

variable {rs : List Registration} {r : Registration} {n : String}

theorem valuesOf_concat_self : valuesOf r.name (rs ++ [r]) = valuesOf r.name rs ++ r.parameter.value.toList := by
  rw [valuesOf, List.filterMap_append, valuesOf]
  cases h : r.parameter.value <;> simp [h]

theorem valuesOf_concat_of_ne (h : r.name ≠ n) : valuesOf n (rs ++ [r]) = valuesOf n rs := by
  simp [valuesOf, h]

theorem valuesOf_eq_nil (h : n ∉ rs.map name) : valuesOf n rs = [] := by
  rw [valuesOf, List.filterMap_eq_nil_iff]
  intro r hr
  rw [if_neg]
  rintro rfl
  exact h (List.mem_map_of_mem hr)

/-- A name that is registered for the first time comes last. -/
theorem entries_concat_new (h : r.name ∉ rs.map name) :
    entries (rs ++ [r]) = entries rs ++ [(r.name, r.parameter.value.getD .null)] := by
  have hvalue : (firstValue r.parameter.value.toList).getD .null = r.parameter.value.getD .null := by
    cases hv : r.parameter.value with
    | none => rfl
    | some v => cases v <;> rfl
  rw [entries, List.map_append, List.map_singleton, eraseDups_concat,
    if_neg fun hc => h (List.contains_iff_mem.mp hc), List.map_append, List.map_singleton,
    valuesOf_concat_self, valuesOf_eq_nil h, List.nil_append, hvalue]
  congr 1
  refine List.map_congr_left fun n hn => ?_
  rw [valuesOf_concat_of_ne]
  rintro rfl
  exact h (List.mem_eraseDups.mp hn)

/-- A name that is registered again keeps its place. -/
theorem entries_concat_known (h : r.name ∈ rs.map name) :
    entries (rs ++ [r]) = (rs.map name).eraseDups.map fun n => (n, if n = r.name then
      (firstValue (valuesOf r.name rs ++ r.parameter.value.toList)).getD .null
      else (firstValue (valuesOf n rs)).getD .null) := by
  rw [entries, List.map_append, List.map_singleton, eraseDups_concat, if_pos (List.contains_iff_mem.mpr h)]
  refine List.map_congr_left fun n _ => ?_
  by_cases hn : n = r.name
  · rw [if_pos hn, hn, valuesOf_concat_self]
  · rw [if_neg hn, valuesOf_concat_of_ne (Ne.symm hn)]

/-- Values that come after the first one change nothing. -/
theorem entries_concat_kept (h : r.name ∈ rs.map name)
    (hv : firstValue (valuesOf r.name rs ++ r.parameter.value.toList) = firstValue (valuesOf r.name rs)) :
    entries (rs ++ [r]) = entries rs := by
  rw [entries_concat_known h, hv]
  refine List.map_congr_left fun n _ => ?_
  split
  · next hn => rw [hn]
  · rfl

end Registration

namespace ParameterTable

section Entries

variable {names : List String} {f : String → Json} {name : String}

theorem lookup_map_pair : (names.map fun n => (n, f n)).lookup name =
    if name ∈ names then some (f name) else none := by
  induction names with
  | nil => rfl
  | cons n names ih =>
    rw [List.map_cons, List.lookup_cons, ih]
    by_cases h : name = n
    · simp [h]
    · simp [h, beq_eq_false_iff_ne.mpr h]

/-- A value takes the place of the one that stood under its name. -/
theorem replace_map_pair (h : names.Nodup) (value : Json) :
    replace name value (names.map fun n => (n, f n)) = names.map fun n => (n, if n = name then value else f n) := by
  induction names with
  | nil => rfl
  | cons n names ih =>
    obtain ⟨hn, hnames⟩ := List.nodup_cons.mp h
    rw [List.map_cons, List.map_cons, replace]
    by_cases he : n = name
    · rw [if_pos he, if_pos he]
      congr 1
      refine List.map_congr_left fun m hm => ?_
      rw [if_neg]
      rintro rfl
      exact hn (he ▸ hm)
    · rw [if_neg he, if_neg he, ih hnames]

end Entries

/-- The conflict of a value with one that is there already. -/
def conflicts (name : String) : Option Json → Option Json → List Record
  | some kept, some value => if kept.same value then [] else [conflict name kept]
  | _, _ => []

open Registration

variable {t : ParameterTable} {rs : List Registration}

/-- Binding the value of one more registration keeps the entries right, and it is reported if another
value is kept in its place. -/
theorem bind_of_entries (h : t.values = entries rs) (r : Registration) :
    (t.bind r.name r.parameter.value).value.values = entries (rs ++ [r]) ∧
      (t.bind r.name r.parameter.value).records =
        conflicts r.name (firstValue (valuesOf r.name rs)) r.parameter.value := by
  have hlookup : t.values.lookup r.name = if r.name ∈ rs.map name then
      some ((firstValue (valuesOf r.name rs)).getD .null) else none := by
    rw [h, entries, lookup_map_pair]
    simp only [List.mem_eraseDups]
  by_cases hmem : r.name ∈ rs.map name
  · rw [if_pos hmem] at hlookup
    cases hv : r.parameter.value with
    | none =>
      have hkept := entries_concat_kept hmem (by rw [hv, Option.toList_none, List.append_nil])
      rw [hkept]
      simp only [bind, hlookup]
      exact ⟨h, by cases firstValue (valuesOf r.name rs) <;> rfl⟩
    | some v =>
      cases hfirst : firstValue (valuesOf r.name rs) with
      | none =>
        -- Nothing but null stands there, which any value replaces.
        have hv' : (firstValue (valuesOf r.name rs ++ [v])).getD .null = v := by
          rw [firstValue_concat, hfirst]
          cases v <;> rfl
        rw [entries_concat_known hmem, hv, Option.toList_some, hv', ← replace_map_pair (nodup_eraseDups _)]
        rw [hfirst] at hlookup
        simp only [bind, hlookup]
        exact ⟨congrArg (replace r.name v) h, rfl⟩
      | some kept =>
        have hkept := entries_concat_kept hmem (by rw [hv, Option.toList_some, firstValue_concat, hfirst]; rfl)
        rw [hkept]
        rw [hfirst] at hlookup
        simp only [bind, hlookup, Option.getD_some, isNull_of_firstValue hfirst, conflicts]
        split
        · next hn => cases hn
        · split
          · exact ⟨h, rfl⟩
          · exact ⟨h, rfl⟩
  · rw [if_neg hmem] at hlookup
    rw [entries_concat_new hmem, ← h, valuesOf_eq_nil hmem]
    simp only [bind, hlookup]
    exact ⟨trivial, rfl⟩

/-- One more registration adds its value to the entries, and what it reports is a new name and a conflict. -/
theorem register_of_entries (h : t.values = entries rs) (p : Parameter) :
    (t.register p).value.2.values = entries (rs ++ [⟨(t.register p).value.1, p⟩]) ∧
      (t.register p).records = (t.nameOf p).records ++
        conflicts (t.register p).value.1 (firstValue (valuesOf (t.register p).value.1 rs)) p.value := by
  have hvalues : (t.nameOf p).value.2.values = entries rs := (t.values_nameOf p).trans h
  obtain ⟨hbound, hrecords⟩ := bind_of_entries hvalues ⟨(t.register p).value.1, p⟩
  exact ⟨hbound, congrArg ((t.nameOf p).records ++ ·) hrecords⟩

/-- The registrations of a run, in their order. -/
def registrations (t : ParameterTable) (ps : List Parameter) : List Registration :=
  (t.registerAll ps).value.1.zipWith Registration.mk ps

/-- Every run of registrations keeps the entries right. -/
theorem registerAll_of_entries (h : t.values = entries rs) (ps : List Parameter) :
    (t.registerAll ps).value.2.values = entries (rs ++ t.registrations ps) := by
  induction ps generalizing t rs with
  | nil =>
    rw [registrations, List.zipWith_nil_right, List.append_nil]
    exact h
  | cons p ps ih =>
    have hrest := ih (register_of_entries h p).1
    rw [List.append_assoc] at hrest
    exact hrest

variable {stem : String} {reserved : List String} {ps : List Parameter}

theorem entries_registerAll (ps : List Parameter) :
    ((ParameterTable.new (.new stem) reserved).registerAll ps).value.2.values =
      entries ((ParameterTable.new (.new stem) reserved).registrations ps) := by
  have hstart : (ParameterTable.new (.new stem) reserved).values = entries [] := rfl
  exact registerAll_of_entries hstart ps

theorem registrations_new (ps : List Parameter) : (ParameterTable.new (.new stem) reserved).registrations ps =
    ps.map fun p => ⟨assignedName stem reserved ps p.key, p⟩ := by
  rw [registrations, (Assigned.start stem reserved).names_registerAll ps, List.zipWith_map_left,
    List.zipWith_self]
  rfl

/-- A name is made for a parameter that has none and is new to the table. -/
theorem Assigned.records_nameOf (h : Assigned stem reserved ps t) (p : Parameter) : (t.nameOf p).records =
    if p.isAnonymous = true ∧ p.key ∉ ps.map Parameter.key then [NameSource.record (t.register p).value.1]
    else [] := by
  have hlookup := h.lookup_eq p.key
  by_cases hknown : p.key ∈ ps.map Parameter.key
  · rw [if_pos hknown] at hlookup
    rw [if_neg fun hp => hp.2 hknown, nameOf_of_known t p hlookup]
  · rw [if_neg hknown] at hlookup
    cases hk : p.key with
    | named n =>
      have hnamed := Parameter.isAnonymous_of_named hk
      rw [if_neg fun hp => Bool.false_ne_true (hnamed.symm.trans hp.1), nameOf_of_named t p hlookup hk]
    | anonymous id =>
      have hname : (t.register p).value.1 = (t.nameOf p).value.1 := rfl
      rw [if_pos ⟨Parameter.isAnonymous_of_anonymous hk, hk ▸ hknown⟩, hname, nameOf_of_anonymous t p hlookup hk]

end ParameterTable
end GraphQuery
