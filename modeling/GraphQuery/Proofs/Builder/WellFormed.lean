import GraphQuery.Builder
import GraphQuery.Proofs.Outcome

/-! Well-formed clauses, queries and statements, and the checks that the openings of a clause make. -/
namespace GraphQuery

/-- No type is empty, and no minimum length lies above the maximum. -/
structure RelationshipDetail.WellFormed (d : RelationshipDetail) : Prop where
  types : "" ∉ d.types
  length : ∀ r ∈ d.length, ∀ a ∈ r.minimum, ∀ b ∈ r.maximum, a ≤ b

def PatternElement.WellFormed (e : PatternElement) : Prop :=
  ∀ r ∈ e.relationships, r.detail.WellFormed

structure Pattern.WellFormed (p : Pattern) : Prop where
  nonempty : p.elements ≠ []
  elements : ∀ e ∈ p.elements, e.WellFormed

structure Projection.WellFormed (b : Projection) : Prop where
  items : b.items ≠ []
  order : ∀ items ∈ b.order, items ≠ []

namespace Clause

def WellFormed : Clause → Prop
  | .matching m => m.pattern.WellFormed
  | .creating p => p.WellFormed
  | .merging p => p.WellFormed
  | .deleting _ items => items ≠ []
  | .setting items => items ≠ []
  | .removing items => items ≠ []
  | .unwinding .. => True
  | .passing w => w.body.WellFormed
  | .returning b => b.WellFormed

def isReturning : Clause → Bool
  | .returning _ => true
  | _ => false

end Clause

/-- RETURN can only be the last clause, and the last clause is a RETURN or an update. -/
structure Query.WellFormed (q : Query) : Prop where
  nonempty : q.clauses ≠ []
  clauses : ∀ c ∈ q.clauses, c.WellFormed
  returning_last : ∀ c ∈ q.clauses.dropLast, c.isReturning = false
  ends : ∃ c ∈ q.clauses.getLast?, c.isReturning ∨ c.isUpdating

def Statement.WellFormed : Statement → Prop
  | .single q => q.WellFormed
  | .union _ parts => 2 ≤ parts.length ∧ ∀ q ∈ parts, q.WellFormed

/-- A well-formed query is some clauses without RETURN and then its last clause. -/
theorem Query.WellFormed.split {q : Query} (h : q.WellFormed) :
    ∃ cs c, q.clauses = cs ++ [c] ∧ (∀ d ∈ cs, d.WellFormed ∧ d.isReturning = false) ∧ c.WellFormed := by
  have hs := List.dropLast_concat_getLast h.nonempty
  refine ⟨q.clauses.dropLast, q.clauses.getLast h.nonempty, hs.symm, ?_, ?_⟩
  · intro d hd
    exact ⟨h.clauses d (List.dropLast_subset _ hd), h.returning_last d hd⟩
  · exact h.clauses _ (List.getLast_mem h.nonempty)

namespace RelationshipDetail

theorem validate_eq_ok_iff (d : RelationshipDetail) : d.validate = .ok () ↔ d.WellFormed := by
  unfold validate
  by_cases ht : "" ∈ d.types
  · simp only [ht, if_true, reduceCtorEq, false_iff]
    exact fun h => h.types ht
  · simp only [ht, if_false]
    constructor
    · intro h
      refine ⟨ht, fun r hr a ha b hb => ?_⟩
      rw [Option.mem_def] at hr ha hb
      refine UInt32.not_lt.mp fun hab => ?_
      have hi : r.inverted? = some (a, b) := by simp [LengthRange.inverted?, ha, hb, hab]
      simp [hr, hi] at h
    · intro h
      cases hl : d.length with
      | none => simp
      | some r =>
        have hr := h.length r hl
        have hi : r.inverted? = none := by
          unfold LengthRange.inverted?
          split
          · next a b ha hb => simp [UInt32.not_lt.mpr (hr a ha b hb)]
          · rfl
        simp [hi]

end RelationshipDetail

theorem PatternElement.validate_eq_ok_iff (e : PatternElement) :
    e.validate = .ok () ↔ e.WellFormed := by
  simp only [validate, Outcome.forM_eq_ok_iff, RelationshipDetail.validate_eq_ok_iff]
  rfl

theorem Pattern.wellFormed_of_ofElements {es : List PatternElement} {p : Pattern}
    (h : ofElements es = .ok p) : p.WellFormed := by
  unfold ofElements at h
  split at h
  · cases h
  · next hne =>
    obtain ⟨⟨⟩, hv, rfl⟩ := Outcome.map_eq_ok_iff.mp h
    refine ⟨by simpa using hne, fun e he => ?_⟩
    exact e.validate_eq_ok_iff.mp (Outcome.forM_eq_ok_iff.mp hv e he)

theorem Label.ofString_eq_ok_iff {s : String} {l : Label} : ofString s = .ok l ↔ s = l.text := by
  unfold ofString
  split
  · next h => exact ⟨nofun, fun hl => absurd (hl.symm.trans h) l.nonempty⟩
  · rw [Except.ok.injEq]
    exact ⟨fun hl => hl ▸ rfl, fun hl => by cases hl; rfl⟩

/-- Labels are made of texts if there are any. -/
theorem Label.ofStrings_eq_ok_iff {labels : List String} {ls : List Label} :
    ofStrings labels = .ok ls ↔ ls ≠ [] ∧ labels = ls.map text := by
  have hmap : labels.mapM ofString = .ok ls ↔ labels = ls.map text := by
    rw [Outcome.mapM_eq_ok_iff]
    simp only [ofString_eq_ok_iff]
    rw [← List.forall₂_map_right_iff, List.forall₂_eq_eq_eq]
  unfold ofStrings
  split
  · next h =>
    rw [List.isEmpty_iff] at h
    exact ⟨nofun, fun ⟨hne, hls⟩ => absurd (List.map_eq_nil_iff.mp (hls.symm.trans h)) hne⟩
  · next h =>
    rw [hmap]
    refine ⟨fun hls => ⟨fun hnil => h ?_, hls⟩, fun hls => hls.2⟩
    rw [hls, hnil, List.map_nil, List.isEmpty_nil]

theorem nonemptyItems_eq_ok_iff {α : Type} {items kept : List α} :
    nonemptyItems items = .ok kept ↔ kept = items ∧ items ≠ [] := by
  unfold nonemptyItems
  cases items with
  | nil => simp
  | cons a as => simp [eq_comm]

end GraphQuery
