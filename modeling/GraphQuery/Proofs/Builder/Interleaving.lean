import GraphQuery.Proofs.Builder.Run

/-! Refinements of a WITH in another order. A filter passes over every other refinement, so a run
depends only on the filters in their order and on the others in theirs. The others can be made in
one order only. -/
namespace GraphQuery

namespace Refinement

def filter? : Refinement → Option Condition
  | .filter c => some c
  | _ => none

def isFilter (r : Refinement) : Bool := r.filter?.isSome

/-- The place among the refinements of a projection. -/
def rank : Refinement → Nat
  | .orderBy _ => 1
  | .skip _ => 2
  | .limit _ => 3
  | _ => 0

theorem isFilter_iff {r : Refinement} : r.isFilter = true ↔ ∃ c, r = .filter c := by
  cases r <;> simp [isFilter, filter?]

end Refinement

def Progress.rank : Progress → Nat
  | .projected => 0
  | .ordered => 1
  | .skipped => 2
  | .limited => 3

/-- What refines a projection leads on, as far as the refinement. -/
theorem Projection.Refines.rank {b b' : Projection} {progress progress' : Progress} {r : Refinement}
    (h : b.Refines progress r b' progress') : progress.rank < r.rank ∧ progress'.rank = r.rank := by
  cases h with
  | order => exact ⟨Nat.zero_lt_one, rfl⟩
  | skip allowed n =>
    cases progress with
    | projected | ordered => exact ⟨by simp [Progress.rank, Refinement.rank], rfl⟩
    | skipped | limited => cases allowed
  | limit allowed n =>
    cases progress with
    | projected | ordered | skipped => exact ⟨by simp [Progress.rank, Refinement.rank], rfl⟩
    | limited => cases allowed

namespace Stage

variable {finished : ClauseList} {w : WithClause} {progress : Progress} {r : Refinement} {s : Stage}

/-- A refinement other than a filter leads on to a WITH that is as far as the refinement. -/
theorem call_passing (hr : r.isFilter = false)
    (h : (passing finished w progress).call (.refinement r) = .ok s) :
    ∃ w' progress', s = passing finished w' progress' ∧ progress.rank < r.rank ∧ progress'.rank = r.rank := by
  obtain ⟨c, rfl, -⟩ | ⟨b, progress', hb, rfl⟩ := cases_refine_passing (call_refinement_eq_ok_iff.mp h)
  · cases hr
  · exact ⟨_, _, rfl, hb.rank⟩

/-- A filter and another refinement may change places. -/
theorem call_filter_bind (c : Condition) (hr : r.isFilter = false) :
    ((passing finished w progress).call (.refinement (.filter c))).bind (·.call (.refinement r)) =
      ((passing finished w progress).call (.refinement r)).bind (·.call (.refinement (.filter c))) := by
  cases r with
  | filter d => cases hr
  | orderBy items =>
    cases progress with
    | projected => cases items <;> rfl
    | ordered | skipped | limited => rfl
  | skip n | limit n | and d | or d | as name => cases progress <;> rfl

theorem run_cons (s : Stage) (c : Call) (rest : List Call) :
    s.run (c :: rest) = (s.call c).bind fun t => t.run rest := rfl

/-- A filter and the refinement behind it may change places. -/
theorem run_filter_cons (c : Condition) (hr : r.isFilter = false) (rest : List Call) :
    (passing finished w progress).run (.refinement (.filter c) :: .refinement r :: rest) =
      (passing finished w progress).run (.refinement r :: .refinement (.filter c) :: rest) := by
  have hbind : ∀ a b : Call, ∀ s : Stage,
      s.run (a :: b :: rest) = ((s.call a).bind (·.call b)).bind fun t => t.run rest := by
    intro a b s
    rw [run_cons]
    cases s.call a with
    | error e => rfl
    | ok t => rfl
  rw [hbind, hbind, call_filter_bind c hr]

/-- A filter may be made after refinements that are none. -/
theorem run_filter_others (c : Condition) {others : List Refinement} (ho : ∀ r ∈ others, r.isFilter = false)
    (rest : List Call) :
    (passing finished w progress).run (.refinement (.filter c) :: (others.map .refinement ++ rest)) =
      (passing finished w progress).run (others.map .refinement ++ .refinement (.filter c) :: rest) := by
  induction others generalizing w progress with
  | nil => rfl
  | cons r others ih =>
    obtain ⟨hr, hrest⟩ := List.forall_mem_cons.mp ho
    rw [List.map_cons, List.cons_append, List.cons_append, run_filter_cons c hr, run_cons,
      run_cons]
    cases hcall : (passing finished w progress).call (.refinement r) with
    | error e => rfl
    | ok t =>
      obtain ⟨w', progress', rfl, -⟩ := call_passing hr hcall
      exact ih hrest

/-- The refinements can be made in two rounds, the filters last. -/
theorem run_filters_last (rs : List Refinement) :
    (passing finished w progress).run (rs.map .refinement) =
      (passing finished w progress).run ((rs.filter fun r => !r.isFilter).map .refinement ++
        (rs.filter Refinement.isFilter).map .refinement) := by
  induction rs generalizing w progress with
  | nil => rfl
  | cons r rs ih =>
    by_cases hr : r.isFilter = true
    · obtain ⟨c, rfl⟩ := Refinement.isFilter_iff.mp hr
      rw [List.map_cons, List.filter_cons_of_neg (by simp [hr]), List.filter_cons_of_pos hr, List.map_cons,
        ← run_filter_others c (by simp), run_cons, run_cons]
      exact ih
    · rw [List.map_cons, List.filter_cons_of_pos (by simp [hr]), List.filter_cons_of_neg hr, List.map_cons,
        List.cons_append, run_cons, run_cons]
      cases hcall : (passing finished w progress).call (.refinement r) with
      | error e => rfl
      | ok t =>
        obtain ⟨w', progress', rfl, -⟩ := call_passing (Bool.eq_false_iff.mpr hr) hcall
        exact ih

/-- Refinements that are no filters follow one another in their ranks. -/
theorem rank_of_run {others : List Refinement} {rest : List Call} (ho : ∀ r ∈ others, r.isFilter = false)
    (h : (passing finished w progress).run (others.map .refinement ++ rest) = .ok s) :
    (∀ r ∈ others, progress.rank < r.rank) ∧ others.Pairwise fun a b => a.rank < b.rank := by
  induction others generalizing w progress with
  | nil => exact ⟨nofun, .nil⟩
  | cons r others ih =>
    obtain ⟨hr, hrest⟩ := List.forall_mem_cons.mp ho
    obtain ⟨t, hcall, hrun⟩ := Outcome.bind_eq_ok_iff.mp h
    obtain ⟨w', progress', rfl, hlt, heq⟩ := call_passing hr hcall
    obtain ⟨hmore, hpairs⟩ := ih hrest hrun
    rw [heq] at hmore
    exact ⟨List.forall_mem_cons.mpr ⟨hlt, fun r' hr' => Nat.lt_trans hlt (hmore r' hr')⟩, .cons hmore hpairs⟩

/-- Interleavings of the same filters with the same other refinements make the same WITH, whichever
of them the stages permit. -/
theorem run_interleaving {rs rs' : List Refinement} {s' : Stage} (hperm : rs.Perm rs')
    (hfilters : rs.filter Refinement.isFilter = rs'.filter Refinement.isFilter)
    (h : (passing finished w progress).run (rs.map .refinement) = .ok s)
    (h' : (passing finished w progress).run (rs'.map .refinement) = .ok s') : s = s' := by
  rw [run_filters_last] at h h'
  -- The ranks rise in both runs, so what is no filter comes in one order only.
  have hothers : rs.filter (fun r => !r.isFilter) = rs'.filter fun r => !r.isFilter :=
    (hperm.filter _).eq_of_pairwise (fun a b _ _ hab hba => absurd hba (Nat.lt_asymm hab))
      (rank_of_run (by simp) h).2 (rank_of_run (by simp) h').2
  rw [hothers, hfilters, h'] at h
  exact (Except.ok.inj h).symm

end Stage
end GraphQuery
