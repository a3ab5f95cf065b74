import GraphQuery.Proofs.Builder.Calls

/-! What runs of builder calls build. The last clause that is opened decides whether a run ends a statement,
and every call so far has its place in the clauses. -/
namespace GraphQuery

def Call.opening? : Call → Option Opening
  | .opening o => some o
  | .refinement _ => none

/-- Whether a statement can end with the clause that the call opens. -/
def Opening.isEnding : Opening → Bool
  | .matching .. | .unwind _ | .passing .. => false
  | .create _ | .merge _ | .delete .. | .set _ | .setOperations _ | .setLabels .. | .remove _
  | .removeLabels .. | .returning .. => true

/-- Whether a statement can end with the last clause that the calls open. -/
def endsStatement (calls : List Call) : Bool :=
  (calls.filterMap Call.opening?).getLast?.any Opening.isEnding

/-- The stages with a clause that can end a statement. -/
def Stage.isFinal : Stage → Bool
  | .updating _ | .returning .. => true
  | .reading _ | .matching .. | .unwinding .. | .passing .. => false

theorem endsStatement_opening (calls : List Call) (o : Opening) :
    endsStatement (calls ++ [.opening o]) = o.isEnding := by
  simp [endsStatement, Call.opening?]

theorem endsStatement_refinement (calls : List Call) (r : Refinement) :
    endsStatement (calls ++ [.refinement r]) = endsStatement calls := by
  simp [endsStatement, Call.opening?]

namespace Opening

variable {finished : ClauseList} {t : Stage}

theorem isFinal_update {clause : Except ArgumentError Clause} (h : update finished clause = .ok t) :
    t.isFinal = true := by
  obtain ⟨c, -, rfl⟩ := Outcome.map_eq_ok_iff.mp h
  rfl

/-- A call leads to a final stage if its clause can end a statement. -/
theorem isFinal_run {o : Opening} (h : o.run finished = .ok t) : t.isFinal = o.isEnding := by
  cases o with
  | matching _ _ | passing _ _ | returning _ _ =>
    obtain ⟨_, -, rfl⟩ := Outcome.map_eq_ok_iff.mp h
    rfl
  | unwind e =>
    cases h
    rfl
  | set es => exact isFinal_update (update_of_run_set h).2
  | create _ | merge _ | delete _ _ | setOperations _ | setLabels _ _ | remove _ | removeLabels _ _ =>
    exact isFinal_update h

end Opening

namespace Stage

variable {calls : List Call} {r : Refinement} {t : Stage}

/-- Only an update or a RETURN builds a statement. -/
theorem exists_build_iff {s : Stage} : (∃ statement, s.build = .ok statement) ↔ s.isFinal = true := by
  cases s with
  | updating _ | returning _ _ _ => exact ⟨fun _ => rfl, fun _ => ⟨_, rfl⟩⟩
  | reading _ | matching _ _ _ | unwinding _ _ | passing _ _ _ => exact ⟨nofun, nofun⟩

theorem isFinal_refine {s : Stage} (hr : s.refine? r = some (.ok t)) : t.isFinal = s.isFinal := by
  cases s with
  | matching cs m filtering =>
    cases filtering <;> cases r <;> cases hr <;> rfl
  | passing cs w progress => obtain ⟨_, -, rfl⟩ | ⟨_, _, -, rfl⟩ := cases_refine_passing hr <;> rfl
  | returning cs b progress =>
    obtain ⟨_, _, -, rfl⟩ := cases_refine_returning hr
    rfl
  | unwinding cs e =>
    cases r with
    | as name =>
      obtain ⟨_, -, rfl⟩ := Outcome.map_eq_ok_iff.mp (Option.some.inj hr)
      rfl
    | filter _ | and _ | or _ | orderBy _ | skip _ | limit _ => cases hr
  | reading cs | updating cs => cases r <;> cases hr

/-- A call decides anew whether the statement can end, unless it refines the open clause. -/
theorem isFinal_call {s : Stage} {c : Call} (h : s.isFinal = endsStatement calls) (hc : s.call c = .ok t) :
    t.isFinal = endsStatement (calls ++ [c]) := by
  cases c with
  | opening o =>
    obtain ⟨finished, -, ho⟩ := call_opening_eq_ok_iff.mp hc
    rw [endsStatement_opening, Opening.isFinal_run ho]
  | refinement r => rw [endsStatement_refinement, isFinal_refine (call_refinement_eq_ok_iff.mp hc), h]

/-- What a stage is known to be after successful calls from the start. -/
structure ReachedBy (calls : List Call) (s : Stage) : Prop where
  invariant : s.Invariant
  holds : s.Holds calls
  final : s.isFinal = endsStatement calls

theorem reachedBy_start : start.ReachedBy [] := ⟨start_invariant, start_holds, rfl⟩

theorem ReachedBy.call {s : Stage} {c : Call} (h : s.ReachedBy calls) (hc : s.call c = .ok t) :
    t.ReachedBy (calls ++ [c]) :=
  ⟨call_invariant h.invariant hc, h.holds.call h.invariant.marker hc, isFinal_call h.final hc⟩

/-- A run adds all its calls to those before. -/
theorem ReachedBy.run {s : Stage} {more : List Call} (h : s.ReachedBy calls) (hr : s.run more = .ok t) :
    t.ReachedBy (calls ++ more) := by
  induction more generalizing s calls with
  | nil =>
    cases hr
    rwa [List.append_nil]
  | cons c more ih =>
    obtain ⟨u, hc, hu⟩ := Outcome.bind_eq_ok_iff.mp hr
    have hrest := ih (h.call hc) hu
    rwa [List.append_assoc, List.singleton_append] at hrest

/-- A run of successful calls loses and reorders nothing. It builds a statement exactly if the last clause
it opened can end one, and the statement has one clause for each group of calls, made of the arguments of that
group. A stage that gives its clauses away has as many as there were opening calls, and the last one is that of
the last group. In a WITH, filters may be made before or after other refinements. -/
theorem clauses_of_run {calls : List Call} {s : Stage} (h : start.run calls = .ok s) :
    ((∃ statement, s.build = .ok statement) ↔ endsStatement calls = true) ∧
      (∀ statement, s.build = .ok statement → ∃ q, statement.value = .single q ∧ MadeBy q.clauses calls) ∧
      (∀ cs, s.clauses? = some cs →
        MadeBy cs.toList calls ∧ cs.len = calls.countP Call.isOpening ∧
          (cs.isEmpty ↔ calls.countP Call.isOpening = 0) ∧ cs.last? = cs.toList.getLast? ∧
          ∀ c, cs.last? = some c →
            ∃ before g, calls = before ++ CallGroup.calls g ∧ g.Makes c) ∧
      ∀ finished w progress, s = passing finished w progress → ∀ rs rs' : List Refinement,
        rs.filter Refinement.isFilter = rs'.filter Refinement.isFilter →
          (rs.filter (fun r => !r.isFilter) = rs'.filter (fun r => !r.isFilter) →
            s.run (rs.map .refinement) = s.run (rs'.map .refinement)) ∧
          (rs.Perm rs' → ∀ t t', s.run (rs.map .refinement) = .ok t →
            s.run (rs'.map .refinement) = .ok t' → t = t') := by
  have hs : s.ReachedBy calls := reachedBy_start.run h
  refine ⟨?_, fun statement hb => hs.holds.build hb, fun cs hcs => ?_, ?_⟩
  · rw [exists_build_iff, hs.final]
  · have hmade := hs.holds.clauses hcs
    have hlen : cs.len = calls.countP Call.isOpening := cs.len_eq_length.trans hmade.length_eq
    have hlast := cs.last?_eq_getLast?
    refine ⟨hmade, hlen, ?_, hlast, fun c hc => hmade.getLast?_makes (hlast.symm.trans hc)⟩
    rw [ClauseList.isEmpty_iff, hlen]
  · rintro finished w progress rfl rs rs' hfilters
    refine ⟨fun hothers => ?_, fun hperm t t' ht ht' => run_interleaving hperm hfilters ht ht'⟩
    rw [run_filters_last, hothers, hfilters, ← run_filters_last]

/-- A run through a MATCH with a filter to a WITH with a SKIP, and two ways on. At the WITH four calls have made two
clauses, nothing can be built, and a filter and a LIMIT may follow in either order. A RETURN with a LIMIT behind it
ends a statement, and so does an update behind an UNWIND. -/
theorem clauses_of_run_built :
    let calls : List Call := [.opening (.matching false [.node .any]),
      .refinement (.filter Expression.asterisk.isNotNull), .opening (.passing true [.asterisk]),
      .refinement (.skip 1)]
    (∃ s, start.run calls = .ok s ∧ (¬ ∃ statement, s.build = .ok statement) ∧
      (∃ cs, s.clauses? = some cs ∧ MadeBy cs.toList calls ∧ cs.len = 2) ∧
      s.run [.refinement (.filter Expression.asterisk.isNull), .refinement (.limit 2)] =
        s.run [.refinement (.limit 2), .refinement (.filter Expression.asterisk.isNull)]) ∧
    ∀ more ∈ [[Call.opening (.returning false [.asterisk]), .refinement (.limit 3)],
        [.opening (.unwind .asterisk), .refinement (.as "x"), .opening (.delete true [.asterisk])]],
      ∃ s statement q, start.run (calls ++ more) = .ok s ∧ s.build = .ok statement ∧
        statement.value = .single q ∧ MadeBy q.clauses (calls ++ more) := by
  intro calls
  refine ⟨?_, ?_⟩
  · have hrun : start.run calls = .ok _ := rfl
    obtain ⟨hbuilds, -, hclauses, hwith⟩ := clauses_of_run hrun
    have hcs := hclauses _ rfl
    have hswap := hwith _ _ _ rfl [.filter Expression.asterisk.isNull, .limit 2]
      [.limit 2, .filter Expression.asterisk.isNull] rfl
    exact ⟨_, hrun, fun hb => absurd (hbuilds.mp hb) (by decide), ⟨_, rfl, hcs.1, hcs.2.1⟩, hswap.1 rfl⟩
  · have hbuilt : ∀ more s, start.run (calls ++ more) = .ok s → endsStatement (calls ++ more) = true →
        ∃ s statement q, start.run (calls ++ more) = .ok s ∧ s.build = .ok statement ∧
          statement.value = .single q ∧ MadeBy q.clauses (calls ++ more) := by
      intro more s hrun hends
      obtain ⟨hbuilds, hmade, -⟩ := clauses_of_run hrun
      obtain ⟨statement, hb⟩ := hbuilds.mpr hends
      obtain ⟨q, hq, hclauses⟩ := hmade statement hb
      exact ⟨s, statement, q, hrun, hb, hq, hclauses⟩
    simp only [List.forall_mem_cons]
    exact ⟨hbuilt _ _ rfl rfl, hbuilt _ _ rfl rfl, nofun⟩

end Stage
end GraphQuery
