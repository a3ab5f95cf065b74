import GraphQuery.Proofs.Builder.Run

/-! The statements that builder calls and unions make. -/
namespace GraphQuery.Statement

/-- A run of builder calls makes a statement, and so does a union of statements made before. -/
inductive Built : Statement → Prop where
  | run {calls : List Call} {statement : Logged Statement}
      (finished : (Stage.start.attemptAll calls).build = .ok statement) : Built statement.value
  | union {all : Bool} {statements : List Statement} {s : Statement}
      (parts : ∀ t ∈ statements, Built t) (joined : unionOf all statements = .ok s) : Built s

theorem partsFor_wellFormed {all : Bool} {s : Statement} {parts : List Query} (h : s.WellFormed)
    (hp : s.partsFor all = .ok parts) : 1 ≤ parts.length ∧ ∀ q ∈ parts, q.WellFormed := by
  cases s with
  | single q =>
    cases hp
    exact ⟨Nat.le_refl _, List.forall_mem_singleton.mpr h⟩
  | union kind queries =>
    simp only [partsFor] at hp
    split at hp
    · cases hp
      exact ⟨by have := h.1; omega, h.2⟩
    · cases hp

/-- Every statement brings at least one query into a union. -/
theorem joinParts_wellFormed {all : Bool} {statements : List Statement} {parts : List Query}
    (h : ∀ s ∈ statements, s.WellFormed) (hp : joinParts all statements = .ok parts) :
    statements.length ≤ parts.length ∧ ∀ q ∈ parts, q.WellFormed := by
  induction statements generalizing parts with
  | nil =>
    cases hp
    exact ⟨Nat.le_refl _, by simp⟩
  | cons s rest ih =>
    obtain ⟨first, hs, hr⟩ := Outcome.bind_eq_ok_iff.mp hp
    obtain ⟨others, ho, hj⟩ := Outcome.bind_eq_ok_iff.mp hr
    cases hj
    obtain ⟨hlen, hfirst⟩ := partsFor_wellFormed (h s (by simp)) hs
    obtain ⟨hlens, hothers⟩ := ih (fun t ht => h t (by simp [ht])) ho
    refine ⟨by simp only [List.length_cons, List.length_append]; omega, fun q hq => ?_⟩
    rcases List.mem_append.mp hq with hq | hq
    · exact hfirst q hq
    · exact hothers q hq

theorem unionOf_wellFormed {all : Bool} {statements : List Statement} {s : Statement}
    (h : ∀ t ∈ statements, t.WellFormed) (hs : unionOf all statements = .ok s) : s.WellFormed := by
  unfold unionOf at hs
  split at hs
  · cases hs
  · obtain ⟨parts, hp, rfl⟩ := Outcome.map_eq_ok_iff.mp hs
    obtain ⟨hlen, hq⟩ := joinParts_wellFormed h hp
    exact ⟨by omega, hq⟩

theorem Built.wellFormed {s : Statement} (h : s.Built) : s.WellFormed := by
  induction h with
  | run finished =>
    obtain ⟨q, hq, hw⟩ := (Stage.attemptAll_invariant Stage.start_invariant _).build finished
    rw [hq]
    exact hw
  | union parts joined ih => exact unionOf_wellFormed ih joined

end GraphQuery.Statement
