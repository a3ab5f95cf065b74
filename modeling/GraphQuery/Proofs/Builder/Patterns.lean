import GraphQuery.Proofs.Builder.Run
import GraphQuery.Proofs.Pattern.Modifiers

/-! Patterns that enter a clause. The calls on a relationship never check its types or its length. The calls that
open a clause with a pattern do, hop by hop, and refuse the pattern with the first fault they meet. -/
namespace GraphQuery

theorem LengthRange.inverted?_eq_some_iff {r : LengthRange} {a b : UInt32} :
    r.inverted? = some (a, b) ↔ r = ⟨some a, some b⟩ ∧ b < a := by
  obtain ⟨minimum, maximum⟩ := r
  constructor
  · intro h
    unfold inverted? at h
    split at h
    · next c d hmin hmax =>
      obtain rfl : minimum = some c := hmin
      obtain rfl : maximum = some d := hmax
      split at h
      · next hlt =>
        cases h
        exact ⟨rfl, hlt⟩
      · cases h
    · cases h
  · rintro ⟨hr, hlt⟩
    cases hr
    exact if_pos hlt

/-- What is wrong with a relationship. An empty type comes before an inverted range. -/
inductive RelationshipDetail.Fault (d : RelationshipDetail) : ArgumentError → Prop
  | type (empty : "" ∈ d.types) : d.Fault .relationshipTypeEmpty
  | length {a b : UInt32} (types : "" ∉ d.types) (range : d.length = some ⟨some a, some b⟩) (inverted : b < a) :
      d.Fault (.lengthInverted a.toNat b.toNat)

theorem RelationshipDetail.validate_eq_error_iff {d : RelationshipDetail} {e : ArgumentError} :
    d.validate = .error e ↔ d.Fault e := by
  unfold validate
  by_cases ht : "" ∈ d.types
  · rw [if_pos ht]
    constructor
    · intro h
      cases h
      exact .type ht
    · intro h
      cases h with
      | type => rfl
      | length types => exact absurd ht types
  · rw [if_neg ht]
    constructor
    · intro h
      split at h
      · next a b hbounds =>
        obtain ⟨r, hr, hinverted⟩ := Option.bind_eq_some_iff.mp hbounds
        obtain ⟨rfl, hlt⟩ := LengthRange.inverted?_eq_some_iff.mp hinverted
        cases h
        exact .length ht hr hlt
      · cases h
    · intro h
      cases h with
      | type empty => exact absurd empty ht
      | length _ range inverted =>
        rw [range, Option.bind_some, LengthRange.inverted?_eq_some_iff.mpr ⟨rfl, inverted⟩]

/-- The first fault of some elements, hop by hop. -/
def PatternElement.FirstFault (es : List PatternElement) (e : ArgumentError) : Prop :=
  ∃ before r behind, es.flatMap relationships = before ++ r :: behind ∧
    (∀ q ∈ before, q.detail.WellFormed) ∧ r.detail.Fault e

theorem PatternElement.forM_validate_eq_ok_iff {es : List PatternElement} :
    es.forM validate = .ok () ↔ ∀ e ∈ es, e.WellFormed := by
  simp only [Outcome.forM_eq_ok_iff, validate_eq_ok_iff]

theorem PatternElement.forM_validate_eq_error_iff {es : List PatternElement} {e : ArgumentError} :
    es.forM validate = .error e ↔ FirstFault es e := by
  have hhops : es.forM validate = (es.flatMap relationships).forM fun r => r.detail.validate :=
    Outcome.forM_flatMap _ relationships es
  rw [hhops, Outcome.forM_eq_error_iff]
  simp only [RelationshipDetail.validate_eq_ok_iff, RelationshipDetail.validate_eq_error_iff]
  rfl

namespace Pattern

theorem ofElements_eq_ok_iff {es : List PatternElement} {p : Pattern} :
    ofElements es = .ok p ↔ (es ≠ [] ∧ ∀ e ∈ es, e.WellFormed) ∧ p = ⟨es⟩ := by
  cases es with
  | nil => exact ⟨nofun, fun h => absurd rfl h.1.1⟩
  | cons e es =>
    change ((e :: es).forM PatternElement.validate).map _ = _ ↔ _
    rw [Outcome.map_eq_ok_iff]
    constructor
    · rintro ⟨⟨⟩, hvalid, rfl⟩
      exact ⟨⟨List.cons_ne_nil e es, PatternElement.forM_validate_eq_ok_iff.mp hvalid⟩, rfl⟩
    · rintro ⟨⟨-, hvalid⟩, rfl⟩
      exact ⟨(), PatternElement.forM_validate_eq_ok_iff.mpr hvalid, rfl⟩

theorem ofElements_eq_error_iff {es : List PatternElement} {e : ArgumentError} :
    ofElements es = .error e ↔ es = [] ∧ e = .patternsMissing ∨ PatternElement.FirstFault es e := by
  cases es with
  | nil =>
    refine ⟨fun h => ?_, fun h => ?_⟩
    · cases h
      exact .inl ⟨rfl, rfl⟩
    · obtain ⟨-, rfl⟩ | ⟨before, r, behind, hsplit, -⟩ := h
      · rfl
      · cases before <;> cases hsplit
  | cons f es =>
    change ((f :: es).forM PatternElement.validate).map _ = _ ↔ _
    rw [Outcome.map_eq_error_iff, PatternElement.forM_validate_eq_error_iff]
    exact ⟨.inr, fun h => h.resolve_left nofun⟩

end Pattern

/-- The calls that open a clause with a pattern. -/
inductive PatternCall where
  | matching
  | optionalMatching
  | creating
  | merging

namespace PatternCall

def opening (es : List PatternElement) : PatternCall → Opening
  | matching => .matching false es
  | optionalMatching => .matching true es
  | creating => .create es
  | merging => .merge es

def clause (p : Pattern) : PatternCall → Clause
  | matching => .matching ⟨false, p, none⟩
  | optionalMatching => .matching ⟨true, p, none⟩
  | creating => .creating p
  | merging => .merging p

/-- The stage that a pattern leads to. -/
def stage (finished : ClauseList) (p : Pattern) : PatternCall → Stage
  | matching => .matching finished ⟨false, p, none⟩ .matched
  | optionalMatching => .matching finished ⟨true, p, none⟩ .matched
  | creating => .updating (finished.push (.creating p))
  | merging => .updating (finished.push (.merging p))

theorem run_opening (k : PatternCall) (finished : ClauseList) (es : List PatternElement) :
    (k.opening es).run finished = (Pattern.ofElements es).map fun p => k.stage finished p := by
  cases k with
  | matching => rfl
  | optionalMatching => rfl
  | creating =>
    change ((Pattern.ofElements es).map Clause.creating).map _ = _
    cases Pattern.ofElements es <;> rfl
  | merging =>
    change ((Pattern.ofElements es).map Clause.merging).map _ = _
    cases Pattern.ofElements es <;> rfl

theorem clauses?_stage (k : PatternCall) (finished : ClauseList) (p : Pattern) :
    (k.stage finished p).clauses? = some (finished.push (k.clause p)) := by
  cases k <;> rfl

end PatternCall

namespace Stage

theorem call_opening_eq_error_iff {s : Stage} {finished : ClauseList} {o : Opening} {x : CallError}
    (hs : s.clauses? = some finished) :
    s.call (.opening o) = .error x ↔ ∃ e, o.run finished = .error e ∧ x = .argument e := by
  rw [call, hs]
  change (o.run finished).mapError CallError.argument = _ ↔ _
  cases o.run finished <;> simp [Except.mapError, eq_comm]

/-- A pattern leads to its stage if it has an element and every hop is well formed. -/
theorem call_pattern_eq_ok_iff {s t : Stage} {finished : ClauseList} {k : PatternCall} {es : List PatternElement}
    (hs : s.clauses? = some finished) : s.call (.opening (k.opening es)) = .ok t ↔
      (es ≠ [] ∧ ∀ e ∈ es, e.WellFormed) ∧ t = k.stage finished ⟨es⟩ := by
  rw [call_opening_eq_ok_iff, hs]
  simp only [PatternCall.run_opening, Outcome.map_eq_ok_iff, Pattern.ofElements_eq_ok_iff]
  constructor
  · rintro ⟨_, ⟨⟩, _, ⟨hes, rfl⟩, rfl⟩
    exact ⟨hes, rfl⟩
  · rintro ⟨hes, rfl⟩
    exact ⟨finished, rfl, ⟨es⟩, ⟨hes, rfl⟩, rfl⟩

/-- A pattern is refused if it has no element, or for its first fault. -/
theorem call_pattern_eq_error_iff {s : Stage} {finished : ClauseList} {k : PatternCall}
    {es : List PatternElement} {x : CallError} (hs : s.clauses? = some finished) :
    s.call (.opening (k.opening es)) = .error x ↔
      ∃ e, (es = [] ∧ e = .patternsMissing ∨ PatternElement.FirstFault es e) ∧ x = .argument e := by
  simp only [call_opening_eq_error_iff hs, PatternCall.run_opening, Outcome.map_eq_error_iff,
    Pattern.ofElements_eq_error_iff]

/-- The length of a new relationship is what the calls on it have left, with other calls between them or not. It is
checked, like the types, where the relationship enters a clause. -/
theorem lengths_checked_on_entry :
    (∀ left direction right types ms, ((Relationship.new left direction right types).attemptAll ms).detail.length =
        LengthCall.range? (ms.filterMap Modifier.lengthCall?)) ∧
      ∀ {s : Stage} {finished : ClauseList}, s.clauses? = some finished →
        ∀ (k : PatternCall) (es : List PatternElement),
        ((∃ t, s.call (.opening (k.opening es)) = .ok t) ↔ es ≠ [] ∧ ∀ e ∈ es, e.WellFormed) ∧
        (∀ t, s.call (.opening (k.opening es)) = .ok t → t.clauses? = some (finished.push (k.clause ⟨es⟩))) ∧
        ∀ x, s.call (.opening (k.opening es)) = .error x ↔
          ∃ e, (es = [] ∧ e = .patternsMissing ∨ PatternElement.FirstFault es e) ∧ x = .argument e := by
  refine ⟨fun left direction right types ms => ?_, fun hs k es => ⟨?_, fun t ht => ?_, fun x => ?_⟩⟩
  · rw [Relationship.attemptAll_eq]
    exact RelationshipDetail.length_attemptAll rfl ms
  · simp only [call_pattern_eq_ok_iff hs, exists_and_left, exists_eq, and_true]
  · rw [((call_pattern_eq_ok_iff hs).mp ht).2, PatternCall.clauses?_stage]
  · exact call_pattern_eq_error_iff hs

/-- An inverted range behind an empty type: the type is the fault that is met. -/
theorem lengths_checked_on_entry_first_fault :
    start.call (.opening (PatternCall.merging.opening
      [.relationship ((Relationship.new .any .leftToRight .any [""]).bound (.between 3 2))])) =
      .error (.argument .relationshipTypeEmpty) :=
  ((lengths_checked_on_entry.2 (s := start) rfl .merging _).2.2 _).mpr
    ⟨_, .inr ⟨[], _, [], rfl, nofun, .type (by decide)⟩, rfl⟩

end Stage
end GraphQuery
