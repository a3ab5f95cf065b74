import GraphQuery.Proofs.Builder.Interleaving
import GraphQuery.Proofs.Builder.Run
import Mathlib.Data.List.Forall2

/-! What builder calls make. A run of calls falls into groups, each an opening with the refinements
made before the next one. Every stage holds one clause for each group, in the order of the calls, and
the clause carries the arguments of its own group and nothing else. -/
namespace GraphQuery

namespace Refinement

def order? : Refinement → Option (List SortItem)
  | .orderBy items => some items
  | _ => none

def skip? : Refinement → Option UInt64
  | .skip n => some n
  | _ => none

def limit? : Refinement → Option UInt64
  | .limit n => some n
  | _ => none

/-- The refinements of a projection. -/
def isProjecting : Refinement → Bool
  | .orderBy _ | .skip _ | .limit _ => true
  | _ => false

end Refinement

def Call.isOpening : Call → Bool
  | .opening _ => true
  | .refinement _ => false

/-- An opening call and the refinements made while its clause is open. -/
structure CallGroup where
  opening : Opening
  refinements : List Refinement

def CallGroup.calls (g : CallGroup) : List Call := .opening g.opening :: g.refinements.map .refinement

/-- All conditions together, from left to right. -/
def conjunction : List Condition → Option Condition
  | [] => none
  | c :: rest => some (rest.foldl Condition.and c)

/-- The filter that refinements give to a MATCH: the first sets it and the others join it. -/
inductive MatchFilter : List Refinement → Option Condition → Prop where
  | none : MatchFilter [] none
  | filter (c : Condition) : MatchFilter [.filter c] (some c)
  | and {rs : List Refinement} {d : Condition} (before : MatchFilter rs (some d)) (c : Condition) :
      MatchFilter (rs ++ [.and c]) (some (d.and c))
  | or {rs : List Refinement} {d : Condition} (before : MatchFilter rs (some d)) (c : Condition) :
      MatchFilter (rs ++ [.or c]) (some (d.or c))

/-- A projection with its items and with what each refinement sets, which no two of them do. -/
structure Projection.Carries (b : Projection) (distinct : Bool) (items : List Expression)
    (rs : List Refinement) : Prop where
  distinct : b.distinct = distinct
  items : b.items = items
  order : b.order.toList = rs.filterMap Refinement.order?
  skip : b.skip.toList = rs.filterMap Refinement.skip?
  limit : b.limit.toList = rs.filterMap Refinement.limit?

/-- The clause of a group of calls. -/
inductive CallGroup.Makes : CallGroup → Clause → Prop where
  | matching {optional : Bool} {es : List PatternElement} {rs : List Refinement} {f : Option Condition}
      (filter : MatchFilter rs f) : Makes ⟨.matching optional es, rs⟩ (.matching ⟨optional, ⟨es⟩, f⟩)
  | create (es : List PatternElement) : Makes ⟨.create es, []⟩ (.creating ⟨es⟩)
  | merge (es : List PatternElement) : Makes ⟨.merge es, []⟩ (.merging ⟨es⟩)
  | delete (detach : Bool) (items : List Expression) :
      Makes ⟨.delete detach items, []⟩ (.deleting detach items)
  | set (pairs : List (Expression × Expression)) :
      Makes ⟨.set (pairs.flatMap fun p => [p.1, p.2]), []⟩
        (.setting (pairs.map fun p => .operation (.assign p.1 p.2)))
  | setOperations (ops : List Operation) : Makes ⟨.setOperations ops, []⟩ (.setting (ops.map .operation))
  | setLabels {n : Node} {name : Identifier} (named : n.name = some name) (ls : List Label) :
      Makes ⟨.setLabels n (ls.map Label.text), []⟩ (.setting [.operation (.labels name .add ls)])
  | remove (items : List Expression) : Makes ⟨.remove items, []⟩ (.removing items)
  | removeLabels {n : Node} {name : Identifier} (named : n.name = some name) (ls : List Label) :
      Makes ⟨.removeLabels n (ls.map Label.text), []⟩ (.removing [.operation (.labels name .remove ls)])
  | unwind (e : Expression) (name : Identifier) :
      Makes ⟨.unwind e, [.as name.text]⟩ (.unwinding e name)
  | passing {distinct : Bool} {items : List Expression} {rs : List Refinement} {b : Projection}
      (body : b.Carries distinct items rs) (refined : ∀ r ∈ rs, r.isFilter ∨ r.isProjecting) :
      Makes ⟨.passing distinct items, rs⟩ (.passing ⟨b, conjunction (rs.filterMap Refinement.filter?)⟩)
  | returning {distinct : Bool} {items : List Expression} {rs : List Refinement} {b : Projection}
      (body : b.Carries distinct items rs) (refined : ∀ r ∈ rs, r.isProjecting) :
      Makes ⟨.returning distinct items, rs⟩ (.returning b)

/-- The clauses are those of the calls: the calls fall into groups, and each group has its clause. -/
def MadeBy (cs : List Clause) (calls : List Call) : Prop :=
  ∃ groups : List CallGroup, groups.flatMap CallGroup.calls = calls ∧ List.Forall₂ CallGroup.Makes groups cs

/-- The stage holds the clauses of the calls. An UNWIND that has no variable yet is no clause. -/
def Stage.Holds (calls : List Call) : Stage → Prop
  | .reading cs => MadeBy cs.toList calls
  | .matching cs m _ => MadeBy (cs.toList ++ [.matching m]) calls
  | .updating cs => MadeBy cs.toList calls
  | .unwinding cs e => ∃ before, calls = before ++ [.opening (.unwind e)] ∧ MadeBy cs.toList before
  | .passing cs w _ => MadeBy (cs.toList ++ [.passing w]) calls
  | .returning cs b _ => MadeBy (cs.toList ++ [.returning b]) calls

namespace MadeBy

variable {cs : List Clause} {calls : List Call}

/-- A new group adds its clause. -/
theorem concat (h : MadeBy cs calls) {g : CallGroup} {c : Clause} (hg : g.Makes c) :
    MadeBy (cs ++ [c]) (calls ++ g.calls) := by
  obtain ⟨groups, rfl, hgroups⟩ := h
  exact ⟨groups ++ [g], by simp, List.rel_append hgroups (.cons hg .nil)⟩

theorem opened (h : MadeBy cs calls) {o : Opening} {c : Clause} (hg : CallGroup.Makes ⟨o, []⟩ c) :
    MadeBy (cs ++ [c]) (calls ++ [.opening o]) := h.concat hg

/-- The last clause belongs to the last group. -/
theorem split {c : Clause} (h : MadeBy (cs ++ [c]) calls) :
    ∃ before g, calls = before ++ CallGroup.calls g ∧ MadeBy cs before ∧ g.Makes c := by
  obtain ⟨groups, rfl, hgroups⟩ := h
  induction cs generalizing groups with
  | nil =>
    cases hgroups with
    | cons hg hnil =>
      cases hnil
      exact ⟨[], _, by simp, ⟨[], rfl, .nil⟩, hg⟩
  | cons d cs ih =>
    cases hgroups with
    | cons hd hrest =>
      obtain ⟨before, g, hcalls, ⟨front, hfront, hmakes⟩, hg⟩ := ih _ hrest
      refine ⟨_ ++ before, g, ?_, ⟨_ :: front, by rw [List.flatMap_cons, hfront], .cons hd hmakes⟩, hg⟩
      rw [List.flatMap_cons, hcalls, List.append_assoc]

/-- A refinement of the last clause belongs to the last group. -/
theorem refine {c d : Clause} {r : Refinement} (h : MadeBy (cs ++ [c]) calls)
    (hg : ∀ g, CallGroup.Makes g c → CallGroup.Makes ⟨g.opening, g.refinements ++ [r]⟩ d) :
    MadeBy (cs ++ [d]) (calls ++ [.refinement r]) := by
  obtain ⟨before, g, rfl, hbefore, hmakes⟩ := h.split
  have hcalls : CallGroup.calls g ++ [.refinement r] =
      CallGroup.calls ⟨g.opening, g.refinements ++ [r]⟩ := by simp [CallGroup.calls]
  rw [List.append_assoc, hcalls]
  exact hbefore.concat (hg g hmakes)

/-- There are as many clauses as opening calls. -/
theorem length_eq (h : MadeBy cs calls) : cs.length = calls.countP Call.isOpening := by
  obtain ⟨groups, rfl, hgroups⟩ := h
  have hone : ∀ g : CallGroup, g.calls.countP Call.isOpening = 1 := by
    intro g
    have hnone : (g.refinements.map Call.refinement).countP Call.isOpening = 0 := by
      simp [List.countP_eq_zero, Call.isOpening]
    rw [CallGroup.calls, List.countP_cons_of_pos rfl, hnone]
  rw [← hgroups.length_eq, List.countP_flatMap, Function.comp_def]
  simp [hone]

/-- The last clause is that of the last group. -/
theorem getLast?_makes {c : Clause} (h : MadeBy cs calls) (hc : cs.getLast? = some c) :
    ∃ before g, calls = before ++ CallGroup.calls g ∧ g.Makes c := by
  obtain ⟨front, rfl⟩ := List.getLast?_eq_some_iff.mp hc
  obtain ⟨before, g, hcalls, -, hg⟩ := h.split
  exact ⟨before, g, hcalls, hg⟩

end MadeBy

section Arguments

theorem Pattern.eq_of_ofElements {es : List PatternElement} {p : Pattern} (h : ofElements es = .ok p) :
    p = ⟨es⟩ := by
  unfold ofElements at h
  split at h
  · cases h
  · obtain ⟨_, -, rfl⟩ := Outcome.map_eq_ok_iff.mp h
    rfl

/-- A change of labels is one of the node by its name. -/
theorem Node.eq_of_changeLabels {n : Node} {change : LabelChange} {labels : List String} {op : Operation}
    (h : n.changeLabels change labels = .ok op) :
    ∃ name ls, n.name = some name ∧ labels = ls.map Label.text ∧ op = .labels name change ls := by
  obtain ⟨name, hname, hlabels⟩ := Outcome.bind_eq_ok_iff.mp h
  obtain ⟨ls, hls, hop⟩ := Outcome.bind_eq_ok_iff.mp hlabels
  cases hop
  refine ⟨name, ls, ?_, ?_, rfl⟩
  · unfold requiredName at hname
    split at hname
    · next name' hn =>
      cases hname
      exact hn
    · cases hname
  · exact (Label.ofStrings_eq_ok_iff.mp hls).2

/-- Targets and values in turn are pairs of them. -/
theorem Opening.exists_pairs (es : List Expression) (h : es.length % 2 ≠ 1) :
    ∃ pairs : List (Expression × Expression), es = pairs.flatMap (fun p => [p.1, p.2]) ∧
      assignments es = pairs.map fun p => .assign p.1 p.2 := by
  match es with
  | [] => exact ⟨[], rfl, rfl⟩
  | [e] => exact absurd rfl h
  | target :: value :: rest =>
    rw [List.length_cons, List.length_cons] at h
    obtain ⟨pairs, hes, hassign⟩ := exists_pairs rest (by omega)
    refine ⟨(target, value) :: pairs, ?_, ?_⟩
    · rw [List.flatMap_cons, ← hes]
      rfl
    · rw [assignments, hassign, List.map_cons]

theorem Opening.eq_of_settingOf {ops : List Operation} {c : Clause} (h : settingOf ops = .ok c) :
    c = .setting (ops.map .operation) := by
  obtain ⟨items, hi, rfl⟩ := Outcome.map_eq_ok_iff.mp h
  rw [(nonemptyItems_eq_ok_iff.mp hi).1]

theorem Projection.carries_new (distinct : Bool) (items : List Expression) :
    (new distinct items).Carries distinct items [] := ⟨rfl, rfl, rfl, rfl, rfl⟩

theorem Identifier.text_of_symbolic {s : String} {n : Identifier} (h : symbolic s = .ok n) : n.text = s := by
  unfold symbolic at h
  split at h
  · cases h
  · split at h
    · next m hm =>
      cases h
      unfold ofString? at hm
      split at hm
      · cases hm
        rfl
      · cases hm
    · cases h

end Arguments

namespace MadeBy

variable {finished : ClauseList} {calls : List Call} {t : Stage}

theorem update {o : Opening} {clause : Except ArgumentError Clause} (h : MadeBy finished.toList calls)
    (hc : ∀ c, clause = .ok c → CallGroup.Makes ⟨o, []⟩ c) (hu : Opening.update finished clause = .ok t) :
    t.Holds (calls ++ [.opening o]) := by
  obtain ⟨c, hclause, rfl⟩ := Outcome.map_eq_ok_iff.mp hu
  rw [Stage.Holds, ClauseList.toList_push]
  exact h.opened (hc c hclause)

/-- An opening call begins a group of its own. -/
theorem opening {o : Opening} (h : MadeBy finished.toList calls) (hr : o.run finished = .ok t) :
    t.Holds (calls ++ [.opening o]) := by
  cases o with
  | matching optional es =>
    obtain ⟨p, hp, rfl⟩ := Outcome.map_eq_ok_iff.mp hr
    rw [Pattern.eq_of_ofElements hp]
    exact h.opened (.matching .none)
  | create es =>
    refine h.update (fun c hc => ?_) hr
    obtain ⟨p, hp, rfl⟩ := Outcome.map_eq_ok_iff.mp hc
    rw [Pattern.eq_of_ofElements hp]
    exact .create es
  | merge es =>
    refine h.update (fun c hc => ?_) hr
    obtain ⟨p, hp, rfl⟩ := Outcome.map_eq_ok_iff.mp hc
    rw [Pattern.eq_of_ofElements hp]
    exact .merge es
  | delete detach items =>
    refine h.update (fun c hc => ?_) hr
    obtain ⟨kept, hk, rfl⟩ := Outcome.map_eq_ok_iff.mp hc
    rw [(nonemptyItems_eq_ok_iff.mp hk).1]
    exact .delete detach items
  | set es =>
    obtain ⟨heven, hr⟩ := Opening.update_of_run_set hr
    obtain ⟨pairs, rfl, hassign⟩ := Opening.exists_pairs es heven
    refine h.update (fun c hc => ?_) hr
    rw [Opening.eq_of_settingOf hc, hassign, List.map_map]
    exact .set pairs
  | setOperations ops =>
    refine h.update (fun c hc => ?_) hr
    rw [Opening.eq_of_settingOf hc]
    exact .setOperations ops
  | setLabels n labels =>
    refine h.update (fun c hc => ?_) hr
    obtain ⟨op, hop, hs⟩ := Outcome.bind_eq_ok_iff.mp hc
    obtain ⟨name, ls, hname, rfl, rfl⟩ := Node.eq_of_changeLabels hop
    rw [Opening.eq_of_settingOf hs]
    exact .setLabels hname ls
  | remove items =>
    refine h.update (fun c hc => ?_) hr
    obtain ⟨kept, hk, rfl⟩ := Outcome.map_eq_ok_iff.mp hc
    rw [(nonemptyItems_eq_ok_iff.mp hk).1]
    exact .remove items
  | removeLabels n labels =>
    refine h.update (fun c hc => ?_) hr
    obtain ⟨op, hop, rfl⟩ := Outcome.map_eq_ok_iff.mp hc
    obtain ⟨name, ls, hname, rfl, rfl⟩ := Node.eq_of_changeLabels hop
    exact .removeLabels hname ls
  | unwind e =>
    cases hr
    exact ⟨calls, rfl, h⟩
  | passing distinct items =>
    obtain ⟨kept, hk, rfl⟩ := Outcome.map_eq_ok_iff.mp hr
    rw [(nonemptyItems_eq_ok_iff.mp hk).1]
    exact h.opened (.passing (Projection.carries_new distinct items) (by simp))
  | returning distinct items =>
    obtain ⟨kept, hk, rfl⟩ := Outcome.map_eq_ok_iff.mp hr
    rw [(nonemptyItems_eq_ok_iff.mp hk).1]
    exact h.opened (.returning (Projection.carries_new distinct items) (by simp))

end MadeBy

theorem filterMap_concat {α β : Type} (f : α → Option β) (xs : List α) (x : α) :
    (xs ++ [x]).filterMap f = xs.filterMap f ++ (f x).toList := by
  cases h : f x <;> simp [h]

theorem Projection.Carries.concat {b b' : Projection} {distinct : Bool} {es : List Expression}
    {rs : List Refinement} {r : Refinement} (h : b.Carries distinct es rs) (hd : b'.distinct = b.distinct)
    (hi : b'.items = b.items) (ho : b'.order.toList = b.order.toList ++ r.order?.toList)
    (hs : b'.skip.toList = b.skip.toList ++ r.skip?.toList)
    (hl : b'.limit.toList = b.limit.toList ++ r.limit?.toList) : b'.Carries distinct es (rs ++ [r]) where
  distinct := hd.trans h.distinct
  items := hi.trans h.items
  order := by rw [ho, h.order, filterMap_concat]
  skip := by rw [hs, h.skip, filterMap_concat]
  limit := by rw [hl, h.limit, filterMap_concat]

theorem Projection.Carries.filter {b : Projection} {distinct : Bool} {es : List Expression}
    {rs : List Refinement} (h : b.Carries distinct es rs) (c : Condition) :
    b.Carries distinct es (rs ++ [.filter c]) :=
  h.concat rfl rfl (List.append_nil _).symm (List.append_nil _).symm (List.append_nil _).symm

theorem Progress.Agrees.skip_eq_none {progress : Progress} {b : Projection} (h : progress.Agrees b)
    (allowed : progress.allowsSkip = true) : b.skip = none := by
  cases progress with
  | projected | ordered => exact h.2.1
  | skipped | limited => cases allowed

theorem Progress.Agrees.limit_eq_none {progress : Progress} {b : Projection} (h : progress.Agrees b)
    (allowed : progress.allowsLimit = true) : b.limit = none := by
  cases progress with
  | projected | ordered => exact h.2.2
  | skipped => exact h.2
  | limited => cases allowed

namespace Projection.Refines

variable {b b' : Projection} {progress progress' : Progress} {r : Refinement}

theorem isProjecting (h : b.Refines progress r b' progress') : r.isProjecting = true := by
  cases h <;> rfl

/-- What a refinement sets was not there before. -/
theorem carries {distinct : Bool} {es : List Expression} {rs : List Refinement}
    (h : b.Refines progress r b' progress') (hm : progress.Agrees b) (hb : b.Carries distinct es rs) :
    b'.Carries distinct es (rs ++ [r]) := by
  cases h with
  | order =>
    refine hb.concat rfl rfl ?_ (List.append_nil _).symm (List.append_nil _).symm
    rw [hm.1]
    rfl
  | skip allowed n =>
    refine hb.concat rfl rfl (List.append_nil _).symm ?_ (List.append_nil _).symm
    rw [hm.skip_eq_none allowed]
    rfl
  | limit allowed n =>
    refine hb.concat rfl rfl (List.append_nil _).symm (List.append_nil _).symm ?_
    rw [hm.limit_eq_none allowed]
    rfl

end Projection.Refines

theorem conjunction_concat (cs : List Condition) (c : Condition) :
    conjunction (cs ++ [c]) = some (match conjunction cs with | some d => d.and c | none => c) := by
  cases cs with
  | nil => rfl
  | cons d cs => simp [conjunction]

namespace CallGroup.Makes

variable {g : CallGroup} {r : Refinement}

/-- A condition joins those of a WITH. -/
theorem addFilter {w : WithClause} (h : g.Makes (.passing w)) (c : Condition) :
    Makes ⟨g.opening, g.refinements ++ [.filter c]⟩ (.passing (w.addFilter c)) := by
  cases h with
  | @passing distinct items rs b body refined =>
    have hconj : conjunction ((rs ++ [Refinement.filter c]).filterMap Refinement.filter?) =
        some (match conjunction (rs.filterMap Refinement.filter?) with | some d => d.and c | none => c) := by
      rw [filterMap_concat]
      exact conjunction_concat _ c
    have hmade := CallGroup.Makes.passing (body.filter c)
      (List.forall_mem_append.mpr ⟨refined, List.forall_mem_singleton.mpr (.inl rfl)⟩)
    rw [hconj] at hmade
    exact hmade

/-- What is set in the projection of a WITH. -/
theorem setPassing {w : WithClause} (h : g.Makes (.passing w)) (hr : r.isProjecting = true) {b : Projection}
    (hb : ∀ distinct items, w.body.Carries distinct items g.refinements →
      b.Carries distinct items (g.refinements ++ [r])) :
    Makes ⟨g.opening, g.refinements ++ [r]⟩ (.passing { w with body := b }) := by
  cases h with
  | @passing distinct items rs b' body refined =>
    have hfilter : (rs ++ [r]).filterMap Refinement.filter? = rs.filterMap Refinement.filter? := by
      cases r <;> simp_all [Refinement.filter?, Refinement.isProjecting]
    have hmade := CallGroup.Makes.passing (hb _ _ body)
      (List.forall_mem_append.mpr ⟨refined, List.forall_mem_singleton.mpr (.inr hr)⟩)
    rw [hfilter] at hmade
    exact hmade

theorem setReturning {b b' : Projection} (h : g.Makes (.returning b)) (hr : r.isProjecting = true)
    (hb : ∀ distinct items, b.Carries distinct items g.refinements →
      b'.Carries distinct items (g.refinements ++ [r])) :
    Makes ⟨g.opening, g.refinements ++ [r]⟩ (.returning b') := by
  cases h with
  | returning body refined =>
    exact .returning (hb _ _ body) (List.forall_mem_append.mpr ⟨refined, List.forall_mem_singleton.mpr hr⟩)

end CallGroup.Makes

namespace Stage

variable {cs : ClauseList} {calls : List Call} {r : Refinement} {t : Stage}

theorem holds_refine_matching {m : MatchClause} {filtering : Filtering}
    (h : (matching cs m filtering).Holds calls) (hm : filtering.Agrees m)
    (hr : (matching cs m filtering).refine? r = some (.ok t)) : t.Holds (calls ++ [.refinement r]) := by
  cases filtering with
  | matched =>
    cases r with
    | filter c =>
      cases hr
      refine MadeBy.refine h fun g hg => ?_
      cases hg with
      | matching filter =>
        obtain rfl : _ = none := hm
        cases filter
        exact .matching (.filter c)
    | and c | or c | orderBy items | skip n | limit n | as name => cases hr
  | filtered =>
    obtain ⟨d, hd⟩ := Option.isSome_iff_exists.mp hm
    cases r with
    | and c =>
      cases hr
      refine MadeBy.refine h fun g hg => ?_
      cases hg with
      | matching filter =>
        obtain rfl : _ = some d := hd
        exact .matching (.and filter c)
    | or c =>
      cases hr
      refine MadeBy.refine h fun g hg => ?_
      cases hg with
      | matching filter =>
        obtain rfl : _ = some d := hd
        exact .matching (.or filter c)
    | filter c | orderBy items | skip n | limit n | as name => cases hr

theorem holds_refine_passing {w : WithClause} {progress : Progress}
    (h : (passing cs w progress).Holds calls) (hm : progress.Agrees w.body)
    (hr : (passing cs w progress).refine? r = some (.ok t)) : t.Holds (calls ++ [.refinement r]) := by
  obtain ⟨c, rfl, rfl⟩ | ⟨b, progress', hb, rfl⟩ := cases_refine_passing hr
  · exact MadeBy.refine h fun g hg => hg.addFilter c
  · exact MadeBy.refine h fun g hg => hg.setPassing hb.isProjecting fun _ _ hc => hb.carries hm hc

theorem holds_refine_returning {b : Projection} {progress : Progress}
    (h : (returning cs b progress).Holds calls) (hm : progress.Agrees b)
    (hr : (returning cs b progress).refine? r = some (.ok t)) : t.Holds (calls ++ [.refinement r]) := by
  obtain ⟨b', progress', hb, rfl⟩ := cases_refine_returning hr
  exact MadeBy.refine h fun g hg => hg.setReturning hb.isProjecting fun _ _ hc => hb.carries hm hc

/-- The name of an UNWIND completes its group. -/
theorem holds_refine_unwinding {e : Expression} (h : (unwinding cs e).Holds calls)
    (hr : (unwinding cs e).refine? r = some (.ok t)) : t.Holds (calls ++ [.refinement r]) := by
  cases r with
  | as name =>
    obtain ⟨n, hn, rfl⟩ := Outcome.map_eq_ok_iff.mp (Option.some.inj hr)
    obtain ⟨before, rfl, hbefore⟩ := h
    rw [Holds, ClauseList.toList_push, List.append_assoc, ← Identifier.text_of_symbolic hn]
    exact hbefore.concat (.unwind e n)
  | filter c | and c | or c | orderBy items | skip n | limit n => cases hr

theorem Holds.refine {s : Stage} (h : s.Holds calls) (hm : s.MarkerAgrees)
    (hr : s.refine? r = some (.ok t)) : t.Holds (calls ++ [.refinement r]) := by
  cases s with
  | matching cs m filtering => exact holds_refine_matching h hm hr
  | passing cs w progress => exact holds_refine_passing h hm hr
  | returning cs b progress => exact holds_refine_returning h hm hr
  | unwinding cs e => exact holds_refine_unwinding h hr
  | reading cs | updating cs => cases r <;> cases hr

/-- A stage gives away the clauses of the calls so far. -/
theorem Holds.clauses {s : Stage} (h : s.Holds calls) (hs : s.clauses? = some cs) : MadeBy cs.toList calls := by
  cases s with
  | reading _ | updating _ =>
    cases hs
    exact h
  | matching _ _ _ | passing _ _ _ =>
    cases hs
    rw [ClauseList.toList_push]
    exact h
  | unwinding _ _ | returning _ _ _ => cases hs

/-- A successful call adds itself to the calls whose clauses the stage holds. -/
theorem Holds.call {s : Stage} {c : Call} (h : s.Holds calls) (hm : s.MarkerAgrees)
    (hc : s.call c = .ok t) : t.Holds (calls ++ [c]) := by
  cases c with
  | opening o =>
    obtain ⟨finished, hs, ho⟩ := call_opening_eq_ok_iff.mp hc
    exact (h.clauses hs).opening ho
  | refinement r => exact h.refine hm (call_refinement_eq_ok_iff.mp hc)

theorem start_holds : start.Holds [] := ⟨[], rfl, .nil⟩

/-- What is built has the clauses that the stage holds. -/
theorem Holds.build {s : Stage} {statement : Logged Statement} (h : s.Holds calls)
    (hb : s.build = .ok statement) : ∃ q, statement.value = .single q ∧ MadeBy q.clauses calls := by
  cases s with
  | updating cs =>
    cases hb
    exact ⟨⟨cs.toList⟩, rfl, h⟩
  | returning cs b progress =>
    cases hb
    have hmade : MadeBy (cs.toList ++ [.returning b]) calls := h
    exact ⟨⟨cs.toList ++ [.returning b]⟩, rfl, hmade⟩
  | reading cs | matching cs m filtering | unwinding cs e | passing cs w progress => cases hb

end Stage
end GraphQuery
