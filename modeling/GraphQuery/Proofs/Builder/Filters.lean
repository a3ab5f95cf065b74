import GraphQuery.Proofs.Builder.Calls
import GraphQuery.Proofs.Condition.Evaluation
import GraphQuery.Proofs.Condition.NormalForm

/-! The filters that calls give to MATCH and WITH. The conditions of the calls are composed from left to
right, and so are their values. -/
namespace GraphQuery

namespace Refinement

/-- The refinements that join a condition to the filter of a MATCH. -/
def isJoin : Refinement → Bool
  | .and _ | .or _ => true
  | _ => false

/-- The filter of a MATCH with a condition joined to it. -/
def join (d : Condition) : Refinement → Condition
  | .and c => d.and c
  | .or c => d.or c
  | _ => d

/-- The value of a filter with a condition joined to it. -/
def joinValue (v : Condition → Truth) (x : Truth) : Refinement → Truth
  | .and c => x.and (c.value v)
  | .or c => x.or (c.value v)
  | _ => x

theorem value_join (v : Condition → Truth) (d : Condition) (r : Refinement) :
    (join d r).value v = joinValue v (d.value v) r := by
  cases r with
  | and c => exact Condition.value_compose v .and d c
  | or c => exact Condition.value_compose v .or d c
  | filter c | orderBy items | skip n | limit n | as name => rfl

/-- Joined from left to right, conditions have the value joined from left to right. -/
theorem value_foldl_join (v : Condition → Truth) (d : Condition) (joins : List Refinement) :
    (joins.foldl join d).value v = joins.foldl (joinValue v) (d.value v) := by
  induction joins generalizing d with
  | nil => rfl
  | cons r joins ih => rw [List.foldl_cons, List.foldl_cons, ih, value_join]

end Refinement

theorem value_foldl_and (v : Condition → Truth) (d : Condition) (cs : List Condition) :
    (cs.foldl Condition.and d).value v = (cs.map (Condition.value v)).foldl Truth.and (d.value v) := by
  induction cs generalizing d with
  | nil => rfl
  | cons c cs ih =>
    rw [List.foldl_cons, List.map_cons, List.foldl_cons, ih, Condition.and, Condition.value_compose]
    rfl

theorem value_conjunction {cs : List Condition} {f : Condition} (h : conjunction cs = some f)
    (v : Condition → Truth) : f.value v = LogicalOperator.and.fold (cs.map (Condition.value v)) := by
  cases cs with
  | nil => cases h
  | cons c cs =>
    obtain rfl := Option.some.inj h
    exact value_foldl_and v c cs

theorem conjunction_eq_none_iff {cs : List Condition} : conjunction cs = none ↔ cs = [] := by
  cases cs with
  | nil => exact ⟨fun _ => rfl, fun _ => rfl⟩
  | cons c cs => exact ⟨nofun, nofun⟩

namespace Stage

section Matching

variable {finished : ClauseList} {m : MatchClause}

/-- Conditions can be joined to a filter, and no other call is offered. -/
theorem call_filtered {d : Condition} (hm : m.filter = some d) (r : Refinement) :
    (matching finished m .filtered).call (.refinement r) =
      if r.isJoin then .ok (matching finished { m with filter := some (r.join d) } .filtered)
      else .error .notOffered := by
  cases r with
  | and c | or c =>
    simp only [call, refine?, hm]
    rfl
  | filter c | orderBy items | skip n | limit n | as name => rfl

theorem run_filtered_eq_ok_iff {d : Condition} (hm : m.filter = some d) {rs : List Refinement} {t : Stage} :
    (matching finished m .filtered).run (rs.map .refinement) = .ok t ↔
      (∀ r ∈ rs, r.isJoin = true) ∧
        t = matching finished { m with filter := some (rs.foldl Refinement.join d) } .filtered := by
  induction rs generalizing m d with
  | nil =>
    rw [List.foldl_nil, ← hm]
    exact ⟨fun h => ⟨by simp, (Except.ok.inj h).symm⟩, fun h => congrArg Except.ok h.2.symm⟩
  | cons r rs ih =>
    rw [List.map_cons, run_cons, call_filtered hm, List.forall_mem_cons, List.foldl_cons]
    by_cases hr : r.isJoin = true
    · rw [if_pos hr]
      exact (ih rfl).trans (and_congr_left fun _ => (and_iff_right hr).symm)
    · rw [if_neg hr]
      exact ⟨nofun, fun h => absurd h.1.1 hr⟩

/-- A MATCH without a filter takes a condition first, and then others are joined to it. -/
theorem run_matched_eq_ok_iff {rs : List Refinement} {t : Stage} :
    (matching finished m .matched).run (rs.map .refinement) = .ok t ↔
      (rs = [] ∧ t = matching finished m .matched) ∨
        ∃ c joins, rs = .filter c :: joins ∧ (∀ r ∈ joins, r.isJoin = true) ∧
          t = matching finished { m with filter := some (joins.foldl Refinement.join c) } .filtered := by
  cases rs with
  | nil =>
    refine ⟨fun h => .inl ⟨rfl, (Except.ok.inj h).symm⟩, ?_⟩
    rintro (⟨-, rfl⟩ | ⟨c, joins, h, -⟩)
    · rfl
    · cases h
  | cons r joins =>
    rw [List.map_cons, run_cons]
    cases r with
    | filter c =>
      refine (run_filtered_eq_ok_iff rfl).trans ⟨fun h => .inr ⟨c, joins, rfl, h⟩, ?_⟩
      rintro (⟨h, -⟩ | ⟨c', joins', h, hrun⟩)
      · cases h
      · cases h
        exact hrun
    | and c | or c | orderBy items | skip n | limit n | as name => exact ⟨nofun, by simp⟩

end Matching

section Passing

variable {finished : ClauseList} {w : WithClause} {progress : Progress}

theorem filter_addFilter {cs : List Condition} (h : w.filter = conjunction cs) (c : Condition) :
    (w.addFilter c).filter = conjunction (cs ++ [c]) := by
  rw [conjunction_concat, ← h]
  rfl

/-- The filter of a WITH takes in the conditions of the calls, and other refinements leave it alone. -/
theorem filter_of_run_passing {cs : List Condition} (hw : w.filter = conjunction cs) {rs : List Refinement}
    {t : Stage} (h : (passing finished w progress).run (rs.map .refinement) = .ok t) :
    ∃ w' progress', t = passing finished w' progress' ∧
      w'.filter = conjunction (cs ++ rs.filterMap Refinement.filter?) := by
  induction rs generalizing w progress cs with
  | nil =>
    cases h
    rw [List.filterMap_nil, List.append_nil]
    exact ⟨w, progress, rfl, hw⟩
  | cons r rs ih =>
    obtain ⟨s, hcall, hrun⟩ := Outcome.bind_eq_ok_iff.mp h
    obtain ⟨c, rfl, rfl⟩ | ⟨b, progress', hb, rfl⟩ := cases_refine_passing (call_refinement_eq_ok_iff.mp hcall)
    · have hr : (Refinement.filter c).filter? = some c := rfl
      rw [List.filterMap_cons_some hr, ← List.singleton_append, ← List.append_assoc]
      exact ih (filter_addFilter hw c) hrun
    · have hr : r.filter? = none := by cases hb <;> rfl
      rw [List.filterMap_cons_none hr]
      exact ih (w := { w with body := b }) hw hrun

/-- A WITH takes a condition at any time. -/
theorem run_filters (cs : List Condition) :
    ∃ w', (passing finished w progress).run (cs.map fun c => .refinement (.filter c)) =
      .ok (passing finished w' progress) := by
  induction cs generalizing w with
  | nil => exact ⟨w, rfl⟩
  | cons c cs ih => exact ih (w := w.addFilter c)

end Passing
end Stage

namespace Condition

/-- Composing conditions makes chains of one operator flat, at every depth, does not depend on how such
a chain is grouped, and applies the operator to the values of the operands. So the filter of a MATCH has
the value of its conditions joined from left to right, in the only order of calls that is offered, and
the filter of a WITH has the conjunction of the values of its conditions, wherever the other refinements
stand between them. -/
theorem composition_laws :
    (∀ c : Condition, c.Composed → ∀ d ∈ c.conditions, d.IsNormal) ∧
      (∀ (op : LogicalOperator) (a b c : Condition),
        compose op (compose op a b) c = compose op a (compose op b c)) ∧
      (∀ (v : Condition → Truth) (a b : Condition),
        (∀ op : LogicalOperator, (compose op a b).value v = op.apply (a.value v) (b.value v)) ∧
          (Condition.not a).value v = (a.value v).not) ∧
      (∀ (finished : ClauseList) (m : MatchClause),
        (∀ (c : Condition) (joins : List Refinement), (∀ r ∈ joins, r.isJoin = true) → ∃ f,
          (Stage.matching finished m .matched).run ((.filter c :: joins).map .refinement) =
              .ok (.matching finished { m with filter := some f } .filtered) ∧
            ∀ v, f.value v = joins.foldl (Refinement.joinValue v) (c.value v)) ∧
          ∀ rs t, (Stage.matching finished m .matched).run (rs.map .refinement) = .ok t →
            rs = [] ∨ ∃ c joins, rs = .filter c :: joins ∧ ∀ r ∈ joins, r.isJoin = true) ∧
      ∀ (finished : ClauseList) (w : WithClause) (progress : Progress),
        (∀ cs : List Condition, ∃ w', (Stage.passing finished w progress).run
          (cs.map fun c => .refinement (.filter c)) = .ok (.passing finished w' progress)) ∧
          ∀ (rs : List Refinement) t, (Stage.passing finished w progress).run (rs.map .refinement) = .ok t →
            ∃ w' progress', t = .passing finished w' progress' ∧
              (w'.filter = none ↔ w.filter.toList ++ rs.filterMap Refinement.filter? = []) ∧
              ∀ f, w'.filter = some f → ∀ v, f.value v = LogicalOperator.and.fold
                ((w.filter.toList ++ rs.filterMap Refinement.filter?).map (value v)) := by
  refine ⟨fun c hc d hd => (hc.of_mem_conditions d hd).isNormal, compose_assoc,
    fun v a b => ⟨fun op => value_compose v op a b, rfl⟩, fun finished m => ⟨fun c joins hjoins => ?_, ?_⟩,
    fun finished w progress => ⟨fun cs => ?_, fun rs t ht => ?_⟩⟩
  · refine ⟨joins.foldl Refinement.join c, ?_, fun v => Refinement.value_foldl_join v c joins⟩
    exact Stage.run_matched_eq_ok_iff.mpr (.inr ⟨c, joins, rfl, hjoins, rfl⟩)
  · intro rs t ht
    obtain ⟨hrs, -⟩ | ⟨c, joins, hrs, hjoins, -⟩ := Stage.run_matched_eq_ok_iff.mp ht
    · exact .inl hrs
    · exact .inr ⟨c, joins, hrs, hjoins⟩
  · exact Stage.run_filters cs
  · have hw : w.filter = conjunction w.filter.toList := by cases w.filter <;> rfl
    obtain ⟨w', progress', rfl, hfilter⟩ := Stage.filter_of_run_passing hw ht
    refine ⟨w', progress', rfl, ?_, fun f hf v => ?_⟩
    · rw [hfilter, conjunction_eq_none_iff]
    · exact value_conjunction (hfilter.symm.trans hf) v

/-- A chain of three members, the last of which is a chain of another operator. Joined to a condition that
holds, it makes the filter of a MATCH null, since one of its members is. -/
theorem composition_laws_nested :
    let leaf : Expression → Condition := Expression.isNull
    let c := ((leaf .asterisk).and (leaf (.list []))).and ((leaf .asterisk).or (leaf (.list [])))
    let m : MatchClause := ⟨false, ⟨[.node .any]⟩, none⟩
    let v : Condition → Truth := fun d => match d with
      | .test .asterisk _ _ => .holds
      | _ => .null
    c.Composed ∧ c.IsNormal ∧
      ∃ f, (Stage.matching .empty m .matched).run [.refinement (.filter (leaf .asterisk)), .refinement (.and c)] =
          .ok (.matching .empty { m with filter := some f } .filtered) ∧ f.value v = .null := by
  intro leaf c m v
  have hleaf : ∀ e : Expression, e.conditions = [] → (leaf e).Composed := fun e he => .test rfl (by simp [he])
  have hc : c.Composed := .compose .and (.compose .and (hleaf _ rfl) (hleaf _ rfl))
    (.compose .or (hleaf _ rfl) (hleaf _ rfl))
  refine ⟨hc, composition_laws.1 c hc c List.mem_cons_self, ?_⟩
  obtain ⟨f, hrun, hvalue⟩ := (composition_laws.2.2.2.1 .empty m).1 (leaf .asterisk) [.and c] (by simp [Refinement.isJoin])
  exact ⟨f, hrun, (hvalue v).trans rfl⟩

end Condition
end GraphQuery
