import GraphQuery.Proofs.Builder.WellFormed

/-! Runs of builder calls. A stage that any run reaches holds clauses that further clauses can
follow, an open clause that passed its checks, and a marker that agrees with the open clause; so
every statement that is built is well formed. -/
namespace GraphQuery

/-- Clauses that further clauses can follow. -/
def Continuable (cs : List Clause) : Prop := ∀ c ∈ cs, c.WellFormed ∧ c.isReturning = false

theorem Continuable.concat {cs : List Clause} {c : Clause} (h : Continuable cs)
    (hc : c.WellFormed) (hr : c.isReturning = false) : Continuable (cs ++ [c]) := by
  intro d hd
  rcases List.mem_append.mp hd with hd | hd
  · exact h d hd
  · obtain rfl := List.mem_singleton.mp hd
    exact ⟨hc, hr⟩

theorem Continuable.push {cs : ClauseList} {c : Clause} (h : Continuable cs.toList)
    (hc : c.WellFormed) (hr : c.isReturning = false) : Continuable (cs.push c).toList := by
  rw [ClauseList.toList_push]
  exact h.concat hc hr

/-- A last clause that is a RETURN or an update completes a query. -/
theorem Continuable.query {cs : List Clause} {c : Clause} (h : Continuable cs) (hc : c.WellFormed)
    (he : c.isReturning ∨ c.isUpdating) : (Query.mk (cs ++ [c])).WellFormed := by
  refine ⟨by simp, ?_, ?_, c, by simp, he⟩
  · intro d hd
    rcases List.mem_append.mp hd with hd | hd
    · exact (h d hd).1
    · obtain rfl := List.mem_singleton.mp hd
      exact hc
  · intro d hd
    rw [List.dropLast_concat] at hd
    exact (h d hd).2

/-- Whether a MATCH has a filter. -/
def Filtering.Agrees : Filtering → MatchClause → Prop
  | .matched, m => m.filter = none
  | .filtered, m => m.filter.isSome

/-- Which of ORDER BY, SKIP and LIMIT a projection has. -/
def Progress.Agrees : Progress → Projection → Prop
  | .projected, b => b.order = none ∧ b.skip = none ∧ b.limit = none
  | .ordered, b => b.order.isSome ∧ b.skip = none ∧ b.limit = none
  | .skipped, b => b.skip.isSome ∧ b.limit = none
  | .limited, b => b.limit.isSome

namespace Stage

/-- The marker of the stage says what the open clause holds. -/
def MarkerAgrees : Stage → Prop
  | .matching _ m filtering => filtering.Agrees m
  | .passing _ w progress => progress.Agrees w.body
  | .returning _ b progress => progress.Agrees b
  | .reading _ | .updating _ | .unwinding .. => True

/-- The stages that have only read so far. -/
def isReading : Stage → Bool
  | .reading _ | .matching .. | .passing .. => true
  | .updating _ | .unwinding .. | .returning .. => false

/-- The finished clauses can be followed by others and the open clause is well formed. An update
is finished at once, so it stands last among the finished clauses. -/
def Sound : Stage → Prop
  | .reading cs => Continuable cs.toList
  | .matching cs m _ => Continuable cs.toList ∧ m.pattern.WellFormed
  | .updating cs => ∃ before c, cs.toList = before ++ [c] ∧ Continuable before ∧ c.WellFormed ∧ c.isUpdating
  | .unwinding cs _ => Continuable cs.toList
  | .passing cs w _ => Continuable cs.toList ∧ w.body.WellFormed
  | .returning cs b _ => Continuable cs.toList ∧ b.WellFormed

/-- What every call preserves. -/
structure Invariant (s : Stage) : Prop where
  sound : s.Sound
  marker : s.MarkerAgrees

/-- Make a call. A call that fails leaves the stage as it is. -/
def attempt (s : Stage) (c : Call) : Stage :=
  match s.call c with
  | .ok t => t
  | .error _ => s

/-- The stage after some calls, of which any may fail. -/
def attemptAll (s : Stage) (calls : List Call) : Stage := calls.foldl attempt s

end Stage

theorem Clause.not_isReturning_of_isUpdating {c : Clause} (h : c.isUpdating) : c.isReturning = false := by
  cases c <;> simp_all [isUpdating, isReturning]

theorem Projection.wellFormed_new {distinct : Bool} {items : List Expression} (h : items ≠ []) :
    (new distinct items).WellFormed := ⟨h, by simp [new]⟩

namespace Opening

theorem update_invariant {finished : ClauseList} {clause : Except ArgumentError Clause} {s : Stage}
    (hf : Continuable finished.toList) (hc : ∀ c, clause = .ok c → c.WellFormed ∧ c.isUpdating)
    (h : update finished clause = .ok s) : s.Invariant := by
  obtain ⟨c, hcl, rfl⟩ := Outcome.map_eq_ok_iff.mp h
  exact ⟨⟨finished.toList, c, finished.toList_push c, hf, hc c hcl⟩, trivial⟩

theorem settingOf_wellFormed {operations : List Operation} {c : Clause}
    (h : settingOf operations = .ok c) : c.WellFormed ∧ c.isUpdating := by
  obtain ⟨items, hi, rfl⟩ := Outcome.map_eq_ok_iff.mp h
  obtain ⟨rfl, hne⟩ := nonemptyItems_eq_ok_iff.mp hi
  exact ⟨hne, rfl⟩

/-- Targets and values that come in pairs are set as assignments. -/
theorem update_of_run_set {finished : ClauseList} {es : List Expression} {s : Stage}
    (h : (Opening.set es).run finished = .ok s) :
    es.length % 2 ≠ 1 ∧ update finished (settingOf (assignments es)) = .ok s := by
  simp only [run] at h
  split at h
  · cases h
  · split at h
    · cases h
    · next heven => exact ⟨heven, h⟩

/-- A clause that is opened behind sound clauses leads to a sound stage. -/
theorem run_invariant {finished : ClauseList} {o : Opening} {s : Stage} (hf : Continuable finished.toList)
    (h : o.run finished = .ok s) : s.Invariant := by
  cases o with
  | matching optional es =>
    obtain ⟨p, hp, rfl⟩ := Outcome.map_eq_ok_iff.mp h
    exact ⟨⟨hf, Pattern.wellFormed_of_ofElements hp⟩, rfl⟩
  | create es =>
    refine update_invariant hf (fun c hc => ?_) h
    obtain ⟨p, hp, rfl⟩ := Outcome.map_eq_ok_iff.mp hc
    exact ⟨Pattern.wellFormed_of_ofElements hp, rfl⟩
  | merge es =>
    refine update_invariant hf (fun c hc => ?_) h
    obtain ⟨p, hp, rfl⟩ := Outcome.map_eq_ok_iff.mp hc
    exact ⟨Pattern.wellFormed_of_ofElements hp, rfl⟩
  | delete detach items =>
    refine update_invariant hf (fun c hc => ?_) h
    obtain ⟨kept, hk, rfl⟩ := Outcome.map_eq_ok_iff.mp hc
    obtain ⟨rfl, hne⟩ := nonemptyItems_eq_ok_iff.mp hk
    exact ⟨hne, rfl⟩
  | set es => exact update_invariant hf (fun c hc => settingOf_wellFormed hc) (update_of_run_set h).2
  | setOperations ops => exact update_invariant hf (fun c hc => settingOf_wellFormed hc) h
  | setLabels n labels =>
    refine update_invariant hf (fun c hc => ?_) h
    obtain ⟨op, -, hs⟩ := Outcome.bind_eq_ok_iff.mp hc
    exact settingOf_wellFormed hs
  | remove items =>
    refine update_invariant hf (fun c hc => ?_) h
    obtain ⟨kept, hk, rfl⟩ := Outcome.map_eq_ok_iff.mp hc
    obtain ⟨rfl, hne⟩ := nonemptyItems_eq_ok_iff.mp hk
    exact ⟨hne, rfl⟩
  | removeLabels n labels =>
    refine update_invariant hf (fun c hc => ?_) h
    obtain ⟨op, -, rfl⟩ := Outcome.map_eq_ok_iff.mp hc
    exact ⟨List.cons_ne_nil _ _, rfl⟩
  | unwind e =>
    cases h
    exact ⟨hf, trivial⟩
  | passing distinct items =>
    obtain ⟨kept, hk, rfl⟩ := Outcome.map_eq_ok_iff.mp h
    obtain ⟨rfl, hne⟩ := nonemptyItems_eq_ok_iff.mp hk
    exact ⟨⟨hf, Projection.wellFormed_new hne⟩, rfl, rfl, rfl⟩
  | returning distinct items =>
    obtain ⟨kept, hk, rfl⟩ := Outcome.map_eq_ok_iff.mp h
    obtain ⟨rfl, hne⟩ := nonemptyItems_eq_ok_iff.mp hk
    exact ⟨⟨hf, Projection.wellFormed_new hne⟩, rfl, rfl, rfl⟩

end Opening

/-- What a refinement sets in a projection, and how far the projection is then. -/
inductive Projection.Refines (b : Projection) : Progress → Refinement → Projection → Progress → Prop where
  | order {items : List SortItem} (nonempty : items ≠ []) :
      Refines b .projected (.orderBy items) { b with order := some items } .ordered
  | skip {progress : Progress} (allowed : progress.allowsSkip = true) (n : UInt64) :
      Refines b progress (.skip n) { b with skip := some n } .skipped
  | limit {progress : Progress} (allowed : progress.allowsLimit = true) (n : UInt64) :
      Refines b progress (.limit n) { b with limit := some n } .limited

namespace Projection.Refines

variable {b b' : Projection} {progress progress' : Progress} {r : Refinement}

theorem wellFormed (h : b.Refines progress r b' progress') (hb : b.WellFormed) : b'.WellFormed := by
  cases h with
  | order hne => exact ⟨hb.items, by simpa using hne⟩
  | skip | limit => exact ⟨hb.items, hb.order⟩

theorem agrees (h : b.Refines progress r b' progress') (hb : progress.Agrees b) : progress'.Agrees b' := by
  cases h with
  | order => exact ⟨rfl, hb.2⟩
  | skip allowed n =>
    cases progress with
    | projected | ordered => exact ⟨rfl, hb.2.2⟩
    | skipped | limited => cases allowed
  | limit => exact rfl

end Projection.Refines

namespace Stage

/-- The clauses of a stage that gives them away can be followed by others. -/
theorem Sound.clauses {s : Stage} {finished : ClauseList} (h : s.Sound)
    (hs : s.clauses? = some finished) : Continuable finished.toList := by
  cases s with
  | reading cs =>
    cases hs
    exact h
  | matching cs m filtering =>
    cases hs
    exact h.1.push h.2 rfl
  | updating cs =>
    cases hs
    obtain ⟨before, c, hcs, hb, hc, hu⟩ := h
    rw [hcs]
    exact hb.concat hc (Clause.not_isReturning_of_isUpdating hu)
  | unwinding cs e => cases hs
  | passing cs w progress =>
    cases hs
    exact h.1.push h.2 rfl
  | returning cs b progress => cases hs

section Refinements

variable {cs : ClauseList} {r : Refinement} {t : Stage}

/-- A filter marks a MATCH as filtered, and further conditions join the filter. -/
theorem refine_matching {m : MatchClause} {filtering : Filtering}
    (h : (matching cs m filtering).Sound) (hr : (matching cs m filtering).refine? r = some (.ok t)) :
    t.Invariant := by
  cases filtering with
  | matched =>
    cases r with
    | filter c =>
      cases hr
      exact ⟨h, rfl⟩
    | and c | or c | orderBy items | skip n | limit n | as name => cases hr
  | filtered =>
    cases r with
    | and c | or c =>
      cases hr
      exact ⟨h, rfl⟩
    | filter c | orderBy items | skip n | limit n | as name => cases hr

/-- A refinement of a WITH is a filter or refines its projection. -/
theorem cases_refine_passing {w : WithClause} {progress : Progress}
    (hr : (passing cs w progress).refine? r = some (.ok t)) :
    (∃ c, r = .filter c ∧ t = passing cs (w.addFilter c) progress) ∨
      ∃ b progress', w.body.Refines progress r b progress' ∧ t = passing cs { w with body := b } progress' := by
  cases r with
  | filter c =>
    simp only [refine?] at hr
    cases hr
    exact .inl ⟨c, rfl, rfl⟩
  | orderBy items =>
    cases progress with
    | projected =>
      obtain ⟨kept, hk, rfl⟩ := Outcome.map_eq_ok_iff.mp (Option.some.inj hr)
      obtain ⟨rfl, hne⟩ := nonemptyItems_eq_ok_iff.mp hk
      exact .inr ⟨_, _, .order hne, rfl⟩
    | ordered | skipped | limited => cases hr
  | skip n =>
    simp only [refine?] at hr
    split at hr
    · next allowed =>
      cases hr
      exact .inr ⟨_, _, .skip allowed n, rfl⟩
    · cases hr
  | limit n =>
    simp only [refine?] at hr
    split at hr
    · next allowed =>
      cases hr
      exact .inr ⟨_, _, .limit allowed n, rfl⟩
    · cases hr
  | and c | or c | as name => cases progress <;> cases hr

/-- A refinement of a RETURN refines its projection. -/
theorem cases_refine_returning {b : Projection} {progress : Progress}
    (hr : (returning cs b progress).refine? r = some (.ok t)) :
    ∃ b' progress', b.Refines progress r b' progress' ∧ t = returning cs b' progress' := by
  cases r with
  | orderBy items =>
    cases progress with
    | projected =>
      obtain ⟨kept, hk, rfl⟩ := Outcome.map_eq_ok_iff.mp (Option.some.inj hr)
      obtain ⟨rfl, hne⟩ := nonemptyItems_eq_ok_iff.mp hk
      exact ⟨_, _, .order hne, rfl⟩
    | ordered | skipped | limited => cases hr
  | skip n =>
    simp only [refine?] at hr
    split at hr
    · next allowed =>
      cases hr
      exact ⟨_, _, .skip allowed n, rfl⟩
    · cases hr
  | limit n =>
    simp only [refine?] at hr
    split at hr
    · next allowed =>
      cases hr
      exact ⟨_, _, .limit allowed n, rfl⟩
    · cases hr
  | filter c | and c | or c | as name => cases progress <;> cases hr

/-- A filter leaves the projection of a WITH alone; each other refinement moves the marker on. -/
theorem refine_passing {w : WithClause} {progress : Progress} (h : (passing cs w progress).Invariant)
    (hr : (passing cs w progress).refine? r = some (.ok t)) : t.Invariant := by
  obtain ⟨⟨hcs, hw⟩, hm⟩ := h
  obtain ⟨c, -, rfl⟩ | ⟨b, progress', hb, rfl⟩ := cases_refine_passing hr
  · exact ⟨⟨hcs, hw⟩, hm⟩
  · exact ⟨⟨hcs, hb.wellFormed hw⟩, hb.agrees hm⟩

theorem refine_returning {b : Projection} {progress : Progress}
    (h : (returning cs b progress).Invariant)
    (hr : (returning cs b progress).refine? r = some (.ok t)) : t.Invariant := by
  obtain ⟨⟨hcs, hw⟩, hm⟩ := h
  obtain ⟨b', progress', hb, rfl⟩ := cases_refine_returning hr
  exact ⟨⟨hcs, hb.wellFormed hw⟩, hb.agrees hm⟩

/-- A name completes an UNWIND. -/
theorem refine_unwinding {e : Expression} (h : Continuable cs.toList)
    (hr : (unwinding cs e).refine? r = some (.ok t)) : t.Invariant := by
  cases r with
  | as name =>
    obtain ⟨n, -, rfl⟩ := Outcome.map_eq_ok_iff.mp (Option.some.inj hr)
    exact ⟨h.push trivial rfl, trivial⟩
  | filter c | and c | or c | orderBy items | skip n | limit n => cases hr

end Refinements

theorem refine_invariant {s t : Stage} {r : Refinement} (h : s.Invariant)
    (hr : s.refine? r = some (.ok t)) : t.Invariant := by
  cases s with
  | matching cs m filtering => exact refine_matching h.sound hr
  | passing cs w progress => exact refine_passing h hr
  | returning cs b progress => exact refine_returning h hr
  | unwinding cs e => exact refine_unwinding h.sound hr
  | reading cs | updating cs => cases r <;> cases hr

theorem call_opening_eq_ok_iff {s t : Stage} {o : Opening} :
    s.call (.opening o) = .ok t ↔ ∃ finished, s.clauses? = some finished ∧ o.run finished = .ok t := by
  rw [call]
  cases s.clauses? with
  | none => simp
  | some finished => simp [Outcome.mapError_eq_ok_iff]

theorem call_refinement_eq_ok_iff {s t : Stage} {r : Refinement} :
    s.call (.refinement r) = .ok t ↔ s.refine? r = some (.ok t) := by
  rw [call]
  cases s.refine? r with
  | none => simp
  | some result => simp [Outcome.mapError_eq_ok_iff]

/-- Every successful call preserves the invariant. -/
theorem call_invariant {s t : Stage} {c : Call} (h : s.Invariant) (hc : s.call c = .ok t) :
    t.Invariant := by
  cases c with
  | opening o =>
    obtain ⟨finished, hs, ho⟩ := call_opening_eq_ok_iff.mp hc
    exact Opening.run_invariant (h.sound.clauses hs) ho
  | refinement r => exact refine_invariant h (call_refinement_eq_ok_iff.mp hc)

theorem attempt_invariant {s : Stage} (h : s.Invariant) (c : Call) : (s.attempt c).Invariant := by
  unfold attempt
  split
  · next t ht => exact call_invariant h ht
  · exact h

/-- Every run of calls preserves the invariant. -/
theorem attemptAll_invariant {s : Stage} (h : s.Invariant) (calls : List Call) :
    (s.attemptAll calls).Invariant := by
  induction calls generalizing s with
  | nil => exact h
  | cons c calls ih => exact ih (attempt_invariant h c)

theorem start_invariant : start.Invariant := by
  refine ⟨?_, trivial⟩
  intro c hc
  cases hc

/-- What an invariant stage builds is a well-formed query. -/
theorem Invariant.build {s : Stage} {statement : Logged Statement} (h : s.Invariant)
    (hb : s.build = .ok statement) : ∃ q, statement.value = .single q ∧ q.WellFormed := by
  cases s with
  | updating cs =>
    cases hb
    obtain ⟨before, c, hcs, hbefore, hc, hu⟩ := h.sound
    rw [hcs]
    exact ⟨_, rfl, hbefore.query hc (.inr hu)⟩
  | returning cs b progress =>
    cases hb
    exact ⟨_, rfl, h.sound.1.query h.sound.2 (.inl rfl)⟩
  | reading cs | matching cs m filtering | unwinding cs e | passing cs w progress => cases hb

/-- After every run of calls, failing ones included, the marker of the stage agrees with its
clause, a statement that can be built is well formed, and a stage that has only read so far
misses its RETURN. -/
theorem attemptAll_start_wellFormed (calls : List Call) :
    (start.attemptAll calls).MarkerAgrees ∧
      (∀ statement, (start.attemptAll calls).build = .ok statement → statement.value.WellFormed) ∧
      ((start.attemptAll calls).isReading = true →
        (start.attemptAll calls).build = .error (.statement (.incomplete .returning))) := by
  have h := attemptAll_invariant start_invariant calls
  refine ⟨h.marker, fun statement hb => ?_, fun hr => ?_⟩
  · obtain ⟨q, hq, hw⟩ := h.build hb
    rw [hq]
    exact hw
  · cases hs : start.attemptAll calls with
    | reading cs | matching cs m filtering | passing cs w progress => rfl
    | updating cs | unwinding cs e | returning cs b progress => simp [hs, isReading] at hr

/-- A run in which one call is not offered still ends in a well-formed statement. -/
theorem attemptAll_start_wellFormed_match :
    ∃ statement, (start.attemptAll [.opening (.matching false [.node .any]), .refinement (.skip 1),
        .opening (.returning true [.asterisk]), .refinement (.limit 2)]).build = .ok statement ∧
      statement.value.WellFormed := by
  have h := attemptAll_start_wellFormed [.opening (.matching false [.node .any]), .refinement (.skip 1),
    .opening (.returning true [.asterisk]), .refinement (.limit 2)]
  exact ⟨_, rfl, h.2.1 _ rfl⟩

end Stage
end GraphQuery
