import GraphQuery.Proofs.Parameter.Values
import GraphQuery.Proofs.Text.Characters

/-! Conflicts and the order of registrations. A value is reported where another one has come before it, so
the order decides which values are reported. Whether a name is reported at all does not depend on it, but
for the names that come with null and with one value besides. -/
namespace GraphQuery

namespace Json

mutual

/-- Two values that are the same as a third one are the same. -/
theorem same_of_same {a b c : Json} (hb : a.same b = true) (hc : a.same c = true) : b.same c = true := by
  match a with
  | .null =>
    cases b with
    | null => exact hc
    | _ => simp [same] at hb
  | .bool x =>
    cases b with
    | bool y =>
      obtain rfl : x = y := by simpa [same] using hb
      exact hc
    | _ => simp [same] at hb
  | .integer x =>
    cases b with
    | integer y =>
      obtain rfl : x = y := by simpa [same] using hb
      exact hc
    | _ => simp [same] at hb
  | .float x =>
    cases b with
    | float y =>
      cases c with
      | float z =>
        simp only [same, Binary64.same, Bool.or_eq_true, Bool.and_eq_true, beq_iff_eq] at hb hc ⊢
        grind
      | _ => simp [same] at hc
    | _ => simp [same] at hb
  | .string x =>
    cases b with
    | string y =>
      obtain rfl : x = y := by simpa [same] using hb
      exact hc
    | _ => simp [same] at hb
  | .array as =>
    cases b with
    | array bs =>
      cases c with
      | array cs => exact sameItems_of_same hb hc
      | _ => simp [same] at hc
    | _ => simp [same] at hb
  | .object as =>
    cases b with
    | object bs =>
      cases c with
      | object cs => exact sameEntries_of_same hb hc
      | _ => simp [same] at hc
    | _ => simp [same] at hb
termination_by structural a

theorem sameItems_of_same {as bs cs : List Json} (hb : sameItems as bs = true) (hc : sameItems as cs = true) :
    sameItems bs cs = true := by
  match as with
  | [] =>
    cases bs with
    | nil => exact hc
    | cons b bs => simp [sameItems] at hb
  | a :: as =>
    cases bs with
    | nil => simp [sameItems] at hb
    | cons b bs =>
      cases cs with
      | nil => simp [sameItems] at hc
      | cons c cs =>
        simp only [sameItems, Bool.and_eq_true] at hb hc ⊢
        exact ⟨same_of_same hb.1 hc.1, sameItems_of_same hb.2 hc.2⟩
termination_by structural as

theorem sameEntries_of_same {as bs cs : List (String × Json)} (hb : sameEntries as bs = true)
    (hc : sameEntries as cs = true) : sameEntries bs cs = true := by
  match as with
  | [] =>
    cases bs with
    | nil => exact hc
    | cons b bs => simp [sameEntries] at hb
  | (k, a) :: as =>
    cases bs with
    | nil => simp [sameEntries] at hb
    | cons b bs =>
      cases cs with
      | nil => simp [sameEntries] at hc
      | cons c cs =>
        simp only [sameEntries, Bool.and_eq_true, beq_iff_eq] at hb hc ⊢
        exact ⟨⟨hb.1.1.symm.trans hc.1.1, same_of_same hb.1.2 hc.1.2⟩, sameEntries_of_same hb.2 hc.2⟩
termination_by structural as

end

/-- Null is the same as nothing else. -/
theorem same_null_left {v : Json} : null.same v = v.isNull := by
  cases v <;> rfl

theorem same_null_right {v : Json} : v.same null = v.isNull := by
  cases v <;> rfl

end Json

section Values

variable {vs ws xs ys : List Json} {v w kept : Json}

/-- A value comes that is not the same as the first one other than null. -/
def Conflicting (vs : List Json) : Prop :=
  ∃ before v behind kept, vs = before ++ v :: behind ∧ firstValue before = some kept ∧ kept.same v = false

/-- There are two different values. -/
def Differing (vs : List Json) : Prop := ∃ v ∈ vs, ∃ w ∈ vs, v.same w = false

/-- There are null and one value besides, each as often as it may come. -/
structure NullAndOne (vs : List Json) : Prop where
  null : .null ∈ vs
  other : ∃ v ∈ vs, v.isNull = false
  same : ∀ v ∈ vs, ∀ w ∈ vs, v.isNull = false → w.isNull = false → v.same w = true

theorem Conflicting.differing (h : Conflicting vs) : Differing vs := by
  obtain ⟨before, v, behind, kept, rfl, hkept, hv⟩ := h
  have hmem : kept ∈ before := List.mem_of_find?_eq_some hkept
  exact ⟨kept, List.mem_append_left _ hmem, v, List.mem_append_right _ List.mem_cons_self, hv⟩

theorem Differing.perm (h : Differing vs) (hperm : vs.Perm ws) : Differing ws := by
  obtain ⟨v, hv, w, hw, hdiffer⟩ := h
  exact ⟨v, hperm.mem_iff.mp hv, w, hperm.mem_iff.mp hw, hdiffer⟩

theorem NullAndOne.perm (h : NullAndOne vs) (hperm : vs.Perm ws) : NullAndOne ws := by
  obtain ⟨v, hv, hnull⟩ := h.other
  exact ⟨hperm.mem_iff.mp h.null, ⟨v, hperm.mem_iff.mp hv, hnull⟩,
    fun v hv w hw => h.same v (hperm.mem_iff.mpr hv) w (hperm.mem_iff.mpr hw)⟩

/-- A value other than null conflicts if it is not the same as the first such value. -/
theorem conflicting_of_firstValue (hkept : firstValue vs = some kept) (hv : v ∈ vs) (hnull : v.isNull = false)
    (hdiffer : kept.same v = false) : Conflicting vs := by
  obtain ⟨hk, before, behind, rfl, hbefore⟩ := List.find?_eq_some_iff_append.mp hkept
  have hbehind : v ∈ behind := by
    rcases List.mem_append.mp hv with hv | hv
    · simpa [hnull] using hbefore v hv
    · refine (List.mem_cons.mp hv).resolve_left ?_
      rintro rfl
      rw [v.same_self] at hdiffer
      cases hdiffer
  obtain ⟨between, rest, rfl⟩ := List.append_of_mem hbehind
  refine ⟨before ++ kept :: between, v, rest, kept, ?_, ?_, hdiffer⟩
  · rw [List.append_assoc, List.cons_append]
  · exact List.find?_eq_some_iff_append.mpr ⟨hk, before, between, rfl, hbefore⟩

/-- Different values conflict in whatever order they come, unless all but one of them are null. -/
theorem Differing.conflicting (h : Differing vs) (hone : ¬NullAndOne vs) : Conflicting vs := by
  by_cases hsame : ∀ v ∈ vs, ∀ w ∈ vs, v.isNull = false → w.isNull = false → v.same w = true
  · obtain ⟨v, hv, w, hw, hdiffer⟩ := h
    refine absurd ?_ hone
    cases hnv : v.isNull with
    | true =>
      obtain rfl := Json.isNull_iff.mp hnv
      exact ⟨hv, ⟨w, hw, Json.same_null_left.symm.trans hdiffer⟩, hsame⟩
    | false =>
      cases hnw : w.isNull with
      | true => exact ⟨Json.isNull_iff.mp hnw ▸ hw, ⟨v, hv, hnv⟩, hsame⟩
      | false => exact absurd (hsame v hv w hw hnv hnw) (by simp [hdiffer])
  · push Not at hsame
    obtain ⟨v, hv, w, hw, hnv, hnw, hdiffer⟩ := hsame
    obtain ⟨kept, hkept⟩ : ∃ kept, firstValue vs = some kept :=
      Option.isSome_iff_exists.mp (List.find?_isSome.mpr ⟨v, hv, by simp [hnv]⟩)
    cases hkv : kept.same v with
    | false => exact conflicting_of_firstValue hkept hv hnv hkv
    | true =>
      -- The value that is kept cannot be the same as both.
      refine conflicting_of_firstValue hkept hw hnw ?_
      rw [Bool.eq_false_iff]
      exact fun hkw => hdiffer (Json.same_of_same hkv hkw)

/-- Null conflicts behind a value. -/
theorem conflicting_of_null_last (hxs : ∀ v ∈ xs, v.isNull = false) (hx : v ∈ xs) (hys : .null ∈ ys) :
    Conflicting (xs ++ ys) := by
  obtain ⟨before, behind, rfl⟩ := List.append_of_mem hys
  cases xs with
  | nil => cases hx
  | cons first xs =>
    have hfirst : first.isNull = false := hxs first List.mem_cons_self
    refine ⟨first :: xs ++ before, .null, behind, first, ?_, ?_, ?_⟩
    · rw [List.append_assoc]
    · rw [firstValue, List.cons_append, List.find?_cons_of_pos (by simp [hfirst])]
    · rw [Json.same_null_right, hfirst]

/-- Null does not conflict in front of the values. -/
theorem not_conflicting_of_null_first (hys : ∀ v ∈ ys, v.isNull = true) (hxs : ∀ v ∈ xs, ∀ w ∈ xs, v.same w = true) :
    ¬Conflicting (ys ++ xs) := by
  rintro ⟨before, v, behind, kept, heq, hkept, hdiffer⟩
  have hmem : kept ∈ before := List.mem_of_find?_eq_some hkept
  have hnull := isNull_of_firstValue hkept
  rcases List.append_eq_append_iff.mp heq with ⟨between, rfl, rfl⟩ | ⟨between, rfl, -⟩
  · rcases List.mem_append.mp hmem with hmem | hmem
    · rw [hys kept hmem] at hnull
      cases hnull
    · rw [hxs kept (List.mem_append_left _ hmem) v (List.mem_append_right _ List.mem_cons_self)] at hdiffer
      cases hdiffer
  · rw [hys kept (List.mem_append_left _ hmem)] at hnull
    cases hnull

end Values

/-- A parameter carries a value other than null. -/
def Parameter.hasValue (p : Parameter) : Bool := p.value.any fun v => !v.isNull

namespace ParameterTable

open Registration

/-- A report of a conflict tells the name, which holds no quote. -/
theorem conflict_inj {m n : Identifier} {v w : Json} (h : conflict m.text v = conflict n.text w) : m = n := by
  have hread : ∀ (k : Identifier) (rest : List Char),
      (k.text.toList ++ '\x27' :: rest).takeWhile (· != '\x27') = k.text.toList := by
    intro k rest
    rw [List.takeWhile_append_of_pos, List.takeWhile_cons_of_neg (by decide), List.append_nil]
    intro c hc
    rw [bne_iff_ne]
    rintro rfl
    exact absurd (Text.plain_identifier k _ hc) (by decide)
  have hquote : "' bound to conflicting values, keeping ".toList =
      '\x27' :: " bound to conflicting values, keeping ".toList := by decide
  have htext := congrArg (fun r => r.text.toList) h
  simp only [conflict, String.toList_append, List.append_assoc, List.append_cancel_left_eq, hquote,
    List.cons_append] at htext
  have hname := congrArg (List.takeWhile (· != '\x27')) htext
  rw [hread, hread] at hname
  exact Identifier.ext_text (String.toList_inj.mp hname)

variable {stem : String} {reserved : List String} {t : ParameterTable} {ps qs : List Parameter} {n : Identifier}
  {v : Json} {r : Record}

/-- Every record of a run is one of the records of a registration. -/
theorem mem_records_registerAll : r ∈ (t.registerAll ps).records ↔
    ∃ before p behind, ps = before ++ p :: behind ∧ r ∈ ((t.registerAll before).value.2.register p).records := by
  induction ps generalizing t with
  | nil => simp [registerAll]
  | cons p ps ih =>
    rw [registerAll, List.mem_append, ih]
    constructor
    · rintro (h | ⟨before, q, behind, rfl, h⟩)
      · exact ⟨[], p, ps, rfl, h⟩
      · exact ⟨p :: before, q, behind, rfl, h⟩
    · rintro ⟨before, q, behind, heq, h⟩
      cases before with
      | nil =>
        obtain ⟨rfl, rfl⟩ := List.cons_eq_cons.mp heq
        exact .inl h
      | cons p' before =>
        obtain ⟨rfl, rfl⟩ := List.cons_eq_cons.mp heq
        exact .inr ⟨before, q, behind, rfl, h⟩

/-- The values that named parameters carry under a name. -/
def carried (n : Identifier) (ps : List Parameter) : List Json :=
  ps.filterMap fun p => if p.key = .named n then p.value else none

theorem mem_carried : v ∈ carried n ps ↔ ∃ p ∈ ps, p.key = .named n ∧ p.value = some v := by
  simp [carried, List.mem_filterMap]

theorem carried_append : carried n (ps ++ qs) = carried n ps ++ carried n qs := List.filterMap_append

/-- A value that is carried comes with one of the parameters. -/
theorem carried_eq_append_cons {before behind : List Json} (h : carried n ps = before ++ v :: behind) :
    ∃ first p last, ps = first ++ p :: last ∧ carried n first = before ∧ p.key = .named n ∧ p.value = some v := by
  obtain ⟨first, rest, rfl, hfirst, hrest⟩ := List.filterMap_eq_append_iff.mp h
  obtain ⟨others, p, last, rfl, hothers, hp, -⟩ := List.filterMap_eq_cons_iff.mp hrest
  have hkey : p.key = .named n := by
    by_contra hk
    rw [if_neg hk] at hp
    cases hp
  rw [if_pos hkey] at hp
  refine ⟨first ++ others, p, last, by rw [List.append_assoc], ?_, hkey, hp⟩
  rw [carried_append, carried, hfirst, carried, List.filterMap_eq_nil_iff.mpr hothers, List.append_nil]

theorem mem_conflicts {name : String} {old value : Option Json} : r ∈ conflicts name old value ↔
    ∃ kept v, old = some kept ∧ value = some v ∧ kept.same v = false ∧ r = conflict name kept := by
  cases old with
  | none => simp [conflicts]
  | some kept =>
    cases value with
    | none => simp [conflicts]
    | some v => cases h : kept.same v <;> simp [conflicts, h]

section Named

variable (hps : ∀ p ∈ ps, ∃ m, p.key = .named m)
include hps

/-- Among named parameters the values under a name are those that are carried under it. -/
theorem valuesOf_registrations (n : Identifier) :
    valuesOf n.text ((ParameterTable.new (.new stem) reserved).registrations ps) = carried n ps := by
  rw [registrations_new, valuesOf, List.filterMap_map, carried]
  refine List.filterMap_congr fun p hp => ?_
  obtain ⟨m, hm⟩ := hps p hp
  have hname : m.text = n.text ↔ m = n := ⟨Identifier.ext_text, congrArg Identifier.text⟩
  simp only [Function.comp_apply, hm, assignedName, hname, ParameterKey.named.injEq]

/-- Behind named parameters a named one reports the first value under its name if it carries another. -/
theorem records_register_named {p : Parameter} (hp : p.key = .named n) :
    (((ParameterTable.new (.new stem) reserved).registerAll ps).value.2.register p).records =
      conflicts n.text (firstValue (carried n ps)) p.value := by
  have hassigned := (Assigned.start stem reserved).registerAll ps
  have hname := (hassigned.register p).2
  rw [hp] at hname
  obtain ⟨-, hrecords⟩ := register_of_entries (entries_registerAll ps) p
  rw [hrecords, hassigned.records_nameOf p, if_neg (by simp [Parameter.isAnonymous_of_named hp]), List.nil_append, hname]
  exact congrArg (fun vs => conflicts n.text (firstValue vs) p.value) (valuesOf_registrations hps n)

end Named

/-- A run of registrations on a new table reports a conflict under a name. -/
def Warns (stem : String) (reserved : List String) (ps : List Parameter) (n : Identifier) : Prop :=
  ∃ kept, conflict n.text kept ∈ ((ParameterTable.new (.new stem) reserved).registerAll ps).records

/-- Among named parameters a name is reported exactly if the values that are carried under it conflict. -/
theorem warns_iff (hps : ∀ p ∈ ps, ∃ m, p.key = .named m) :
    Warns stem reserved ps n ↔ Conflicting (carried n ps) := by
  constructor
  · rintro ⟨kept, hkept⟩
    obtain ⟨before, p, behind, rfl, hp⟩ := mem_records_registerAll.mp hkept
    obtain ⟨m, hm⟩ := hps p (by simp)
    rw [records_register_named (fun q hq => hps q (List.mem_append_left _ hq)) hm] at hp
    obtain ⟨first, v, hfirst, hv, hdiffer, hreport⟩ := mem_conflicts.mp hp
    obtain rfl := conflict_inj hreport
    refine ⟨carried n before, v, carried n behind, first, ?_, hfirst, hdiffer⟩
    rw [carried_append, carried, carried, carried, List.filterMap_cons_some (by rw [if_pos hm, hv])]
  · rintro ⟨before, v, behind, kept, heq, hkept, hdiffer⟩
    obtain ⟨first, p, last, rfl, rfl, hp, hv⟩ := carried_eq_append_cons heq
    refine ⟨kept, mem_records_registerAll.mpr ⟨first, p, last, rfl, ?_⟩⟩
    rw [records_register_named (fun q hq => hps q (List.mem_append_left _ hq)) hp]
    exact mem_conflicts.mpr ⟨kept, v, hkept, hv, hdiffer, rfl⟩

theorem warns_iff_differing (hps : ∀ p ∈ ps, ∃ m, p.key = .named m) (hone : ¬NullAndOne (carried n ps)) :
    Warns stem reserved ps n ↔ Differing (carried n ps) :=
  (warns_iff hps).trans ⟨Conflicting.differing, fun h => h.conflicting hone⟩

theorem mem_carried_hasValue :
    v ∈ carried n (ps.filter Parameter.hasValue) ↔ v ∈ carried n ps ∧ v.isNull = false := by
  simp only [mem_carried, List.mem_filter]
  constructor
  · rintro ⟨p, ⟨hp, hvalue⟩, hkey, hv⟩
    exact ⟨⟨p, hp, hkey, hv⟩, by simpa [Parameter.hasValue, hv] using hvalue⟩
  · rintro ⟨⟨p, hp, hkey, hv⟩, hnull⟩
    exact ⟨p, ⟨hp, by simp [Parameter.hasValue, hv, hnull]⟩, hkey, hv⟩

theorem mem_carried_not_hasValue :
    v ∈ carried n (ps.filter (!Parameter.hasValue ·)) ↔ v ∈ carried n ps ∧ v.isNull = true := by
  simp only [mem_carried, List.mem_filter]
  constructor
  · rintro ⟨p, ⟨hp, hvalue⟩, hkey, hv⟩
    exact ⟨⟨p, hp, hkey, hv⟩, by simpa [Parameter.hasValue, hv] using hvalue⟩
  · rintro ⟨⟨p, hp, hkey, hv⟩, hnull⟩
    exact ⟨p, ⟨hp, by simp [Parameter.hasValue, hv, hnull]⟩, hkey, hv⟩

/-- Null and one other value conflict if null comes last, and they do not if it comes first. -/
theorem exists_orders (hone : NullAndOne (carried n ps)) :
    ∃ qs qs', ps.Perm qs ∧ ps.Perm qs' ∧ Conflicting (carried n qs) ∧ ¬Conflicting (carried n qs') := by
  have hperm := (List.filter_append_perm Parameter.hasValue ps).symm
  refine ⟨_, _, hperm, hperm.trans List.perm_append_comm, ?_, ?_⟩
  · obtain ⟨v, hv, hnull⟩ := hone.other
    rw [carried_append]
    exact conflicting_of_null_last (fun w hw => (mem_carried_hasValue.mp hw).2)
      (mem_carried_hasValue.mpr ⟨hv, hnull⟩) (mem_carried_not_hasValue.mpr ⟨hone.null, rfl⟩)
  · rw [carried_append]
    refine not_conflicting_of_null_first (fun v hv => (mem_carried_not_hasValue.mp hv).2) fun v hv w hw => ?_
    obtain ⟨hv, hnv⟩ := mem_carried_hasValue.mp hv
    obtain ⟨hw, hnw⟩ := mem_carried_hasValue.mp hw
    exact hone.same v hv w hw hnv hnw

/-- Whether a name is reported is the same for all orders of some registrations of named parameters, unless
the name comes with null and with one value besides. A name that does not come so is reported exactly if it
comes with two different values. -/
theorem warns_perm (stem : String) (reserved : List String) {ps : List Parameter}
    (hps : ∀ p ∈ ps, ∃ m, p.key = .named m) (n : Identifier) :
    ((∀ qs, ps.Perm qs → (Warns stem reserved qs n ↔ Warns stem reserved ps n)) ↔ ¬NullAndOne (carried n ps)) ∧
      (¬NullAndOne (carried n ps) → (Warns stem reserved ps n ↔ Differing (carried n ps))) := by
  have hnamed : ∀ {qs}, ps.Perm qs → ∀ q ∈ qs, ∃ m, q.key = .named m := fun hperm q hq =>
    hps q (hperm.mem_iff.mpr hq)
  refine ⟨⟨fun h hone => ?_, fun hone qs hperm => ?_⟩, warns_iff_differing hps⟩
  · obtain ⟨qs, qs', hqs, hqs', hyes, hno⟩ := exists_orders hone
    have hwarns := (h qs hqs).mp ((warns_iff (hnamed hqs)).mpr hyes)
    exact hno ((warns_iff (hnamed hqs')).mp ((h qs' hqs').mpr hwarns))
  · have hvalues : (carried n ps).Perm (carried n qs) := hperm.filterMap _
    have hone' : ¬NullAndOne (carried n qs) := fun h => hone (h.perm hvalues.symm)
    rw [warns_iff_differing hps hone, warns_iff_differing (hnamed hperm) hone']
    exact ⟨fun h => h.perm hvalues.symm, fun h => h.perm hvalues⟩

/-- A name that comes with two values besides null is reported in both orders. -/
theorem warns_perm_reversed :
    let n : Identifier := ⟨"a", by decide⟩
    let ps : List Parameter := [.null, .bool true, .bool false].map fun v => ⟨0, some n, some v⟩
    (∀ p ∈ ps, ∃ m, p.key = .named m) ∧ Warns "p" [] ps n ∧ Warns "p" [] ps.reverse n := by
  intro n ps
  have hps : ∀ p ∈ ps, ∃ m, p.key = .named m := by
    intro p hp
    obtain ⟨v, -, rfl⟩ := List.mem_map.mp hp
    exact ⟨n, rfl⟩
  have hvalues : carried n ps = [.null, .bool true, .bool false] := by simp [carried, ps, Parameter.key]
  have hone : ¬NullAndOne (carried n ps) := by
    intro h
    have hsame := h.same (.bool true) (by simp [hvalues]) (.bool false) (by simp [hvalues]) rfl rfl
    simp [Json.same] at hsame
  have hdiffer : Differing (carried n ps) := ⟨.bool true, by simp [hvalues], .bool false, by simp [hvalues], rfl⟩
  obtain ⟨horders, hwarns⟩ := warns_perm "p" [] hps n
  have hfirst := (hwarns hone).mpr hdiffer
  exact ⟨hps, hfirst, (horders.mpr hone ps.reverse ps.reverse_perm.symm).mpr hfirst⟩

/-- Null is not reported in front of a value, behind which it is. -/
theorem warns_perm_null : ¬∀ (stem : String) (reserved : List String) (ps qs : List Parameter) (n : Identifier),
    (∀ p ∈ ps, ∃ m, p.key = .named m) → ps.Perm qs → (Warns stem reserved ps n ↔ Warns stem reserved qs n) := by
  intro h
  let n : Identifier := ⟨"a", by decide⟩
  let missing : Parameter := ⟨0, some n, some .null⟩
  let one : Parameter := ⟨1, some n, some (.integer ⟨1, by decide, by decide⟩)⟩
  have hnamed : ∀ p ∈ [missing, one], ∃ m, p.key = .named m := by
    intro p hp
    simp only [List.mem_cons, List.not_mem_nil, or_false] at hp
    obtain rfl | rfl := hp <;> exact ⟨n, rfl⟩
  have hwarns : Warns "p" [] [one, missing] n := ⟨.integer ⟨1, by decide, by decide⟩, by decide +kernel⟩
  obtain ⟨kept, hkept⟩ := (h "p" [] [missing, one] [one, missing] n hnamed (.swap _ _ _)).mpr hwarns
  have hnone : ((ParameterTable.new (.new "p") []).registerAll [missing, one]).records = [] := by decide +kernel
  rw [hnone] at hkept
  cases hkept

end ParameterTable
end GraphQuery
