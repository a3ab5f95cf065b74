import GraphQuery.Proofs.Traversal.Trace

/-! What the calls of a traversal find. A record of the states in which the calls are made changes nothing
else. Every place of the tree is asked for, unless one above it is refused, and a place that is accepted is
entered and left, with what a walk through its tree makes of the state, wherever the place is. -/
namespace GraphQuery

/-- A call of a visitor with the state in which it is made. -/
structure Observation (σ : Type) where
  event : Event
  state : σ

namespace Observation

variable {σ : Type} {os os' : List (Observation σ)} {p : Place} {ancestors : List Place}

/-- The visitor was asked whether it accepts the place. -/
def Asked (os : List (Observation σ)) (p : Place) (ancestors : List Place) : Prop :=
  ∃ accepted s, ⟨⟨.accept accepted, p, ancestors⟩, s⟩ ∈ os

/-- The visitor has refused the place. -/
def Refused (os : List (Observation σ)) (p : Place) : Prop :=
  ∃ ancestors s, ⟨⟨.accept false, p, ancestors⟩, s⟩ ∈ os

theorem Asked.mono (h : Asked os p ancestors) (hsub : os ⊆ os') : Asked os' p ancestors := by
  obtain ⟨accepted, s, hs⟩ := h
  exact ⟨accepted, s, hsub hs⟩

end Observation

open Observation (Asked Refused)

namespace Visitor

variable {σ : Type}

/-- The visitor with a record of its calls and of the states in which they are made. -/
def observed (v : Visitor σ) : Visitor (σ × List (Observation σ)) where
  accept p ancestors s :=
    let (accepted, t) := v.accept p ancestors s.1
    (accepted, t, s.2 ++ [⟨⟨.accept accepted, p, ancestors⟩, s.1⟩])
  enter p ancestors s := (v.enter p ancestors s.1, s.2 ++ [⟨⟨.enter, p, ancestors⟩, s.1⟩])
  leave p ancestors s := (v.leave p ancestors s.1, s.2 ++ [⟨⟨.leave, p, ancestors⟩, s.1⟩])
  afterLeave p ancestors s := (v.afterLeave p ancestors s.1, s.2 ++ [⟨⟨.afterLeave, p, ancestors⟩, s.1⟩])

/-- The calls that follow when a place is accepted in a state. What they end with is what a walk leads to. -/
structure Completed (v : Visitor σ) (os : List (Observation σ)) (p : Place) (ancestors : List Place) (s : σ) :
    Prop where
  entered : ⟨⟨.enter, p, ancestors⟩, (v.accept p ancestors s).2⟩ ∈ os
  children : ∀ q ∈ p.children, Asked os q (p :: ancestors)
  left : ∃ t, ⟨⟨.afterLeave, p, ancestors⟩, t⟩ ∈ os ∧
    v.afterLeave p ancestors t = v.walk p.path p.tree ancestors s

/-- Every decision in the record is that of the visitor, and every place that it accepts is completed. -/
def Completes (v : Visitor σ) (os : List (Observation σ)) : Prop :=
  ∀ accepted p ancestors s, ⟨⟨.accept accepted, p, ancestors⟩, s⟩ ∈ os →
    (v.accept p ancestors s).1 = accepted ∧ (accepted = true → v.Completed os p ancestors s)

/-- What is recorded for a place that is accepted, around the calls for its children. -/
def enclose (v : Visitor σ) (p : Place) (ancestors : List Place) (r s t : σ) (os : List (Observation σ)) :
    List (Observation σ) :=
  [⟨⟨.accept true, p, ancestors⟩, r⟩, ⟨⟨.enter, p, ancestors⟩, s⟩] ++ os ++
    [⟨⟨.leave, p, ancestors⟩, t⟩, ⟨⟨.afterLeave, p, ancestors⟩, v.leave p ancestors t⟩]

section Completes

variable {v : Visitor σ} {os os' : List (Observation σ)} {p : Place} {ancestors : List Place} {r s t : σ}

theorem Completed.mono (h : v.Completed os p ancestors s) (hsub : os ⊆ os') :
    v.Completed os' p ancestors s where
  entered := hsub h.entered
  children q hq := (h.children q hq).mono hsub
  left := by
    obtain ⟨t, ht, hwalk⟩ := h.left
    exact ⟨t, hsub ht, hwalk⟩

theorem Completes.nil : v.Completes [] := fun _ _ _ _ h => absurd h List.not_mem_nil

theorem Completes.append (h : v.Completes os) (h' : v.Completes os') : v.Completes (os ++ os') := by
  intro accepted p ancestors s hs
  obtain hs | hs := List.mem_append.mp hs
  · obtain ⟨haccept, hcompleted⟩ := h accepted p ancestors s hs
    exact ⟨haccept, fun ha => (hcompleted ha).mono (List.subset_append_left os os')⟩
  · obtain ⟨haccept, hcompleted⟩ := h' accepted p ancestors s hs
    exact ⟨haccept, fun ha => (hcompleted ha).mono (List.subset_append_right os os')⟩

theorem Completes.refused (h : v.accept p ancestors r = (false, s)) :
    v.Completes [⟨⟨.accept false, p, ancestors⟩, r⟩] := by
  intro accepted q others t ht
  obtain ⟨⟨rfl, rfl, rfl⟩, rfl⟩ : ((accepted = false) ∧ q = p ∧ others = ancestors) ∧ t = r := by
    simpa using ht
  exact ⟨by rw [h], fun ha => absurd ha Bool.false_ne_true⟩

theorem Completes.enclose (h : v.Completes os) (haccept : v.accept p ancestors r = (true, s))
    (hchildren : ∀ q ∈ p.children, Asked os q (p :: ancestors))
    (hwalk : v.afterLeave p ancestors (v.leave p ancestors t) = v.walk p.path p.tree ancestors r) :
    v.Completes (v.enclose p ancestors r s t os) := by
  have hinner : os ⊆ v.enclose p ancestors r s t os := fun _ ho =>
    List.mem_append_left _ (List.mem_append_right _ ho)
  have hplace : v.Completed (v.enclose p ancestors r s t os) p ancestors r :=
    ⟨by simp [Visitor.enclose, haccept], fun q hq => (hchildren q hq).mono hinner,
      _, List.mem_append_right _ (by simp), hwalk⟩
  intro accepted q others u hu
  simp only [Visitor.enclose, List.mem_append, List.mem_cons, Observation.mk.injEq, Event.mk.injEq,
    Callback.accept.injEq, reduceCtorEq, false_and, List.not_mem_nil, or_false] at hu
  obtain ⟨⟨rfl, rfl, rfl⟩, rfl⟩ | hu := hu
  · exact ⟨by rw [haccept], fun _ => hplace⟩
  · obtain ⟨ha, hcompleted⟩ := h accepted q others u hu
    exact ⟨ha, fun h => (hcompleted h).mono hinner⟩

/-- A place of the tree was asked for and accepted, unless it or a place above it was refused. -/
theorem Completes.accepted_or_refused (h : v.Completes os) {root : SyntaxTree} (hroot : Asked os ⟨[], root⟩ [])
    (hp : root.Lineage p ancestors) :
    (∃ s, ⟨⟨.accept true, p, ancestors⟩, s⟩ ∈ os) ∨ ∃ q ∈ p :: ancestors, Refused os q := by
  have hasked : ∀ {q : Place} {others : List Place}, Asked os q others →
      (∃ s, ⟨⟨.accept true, q, others⟩, s⟩ ∈ os) ∨ Refused os q := by
    rintro q others ⟨accepted, s, hs⟩
    cases accepted with
    | false => exact .inr ⟨others, s, hs⟩
    | true => exact .inl ⟨s, hs⟩
  induction hp with
  | root => exact (hasked hroot).imp_right fun hr => ⟨_, List.mem_cons_self, hr⟩
  | child hlineage hq ih =>
    obtain ⟨s, hs⟩ | ⟨q, hq', hr⟩ := ih
    · obtain ⟨-, hcompleted⟩ := h _ _ _ s hs
      exact (hasked ((hcompleted rfl).children _ hq)).imp_right fun hr => ⟨_, List.mem_cons_self, hr⟩
    · exact .inr ⟨q, List.mem_cons_of_mem _ hq', hr⟩

end Completes

mutual

/-- A walk that is recorded ends as it does without the record, and all that it accepts is completed. -/
theorem walk_observed (v : Visitor σ) (path : List Nat) (tree : SyntaxTree) (ancestors : List Place) (s : σ)
    (os : List (Observation σ)) : ∃ found, v.Completes found ∧ Asked found ⟨path, tree⟩ ancestors ∧
      v.observed.walk path tree ancestors (s, os) = (v.walk path tree ancestors s, os ++ found) := by
  match tree with
  | .branch c ts =>
    cases ha : v.accept ⟨path, .branch c ts⟩ ancestors s with
    | mk accepted s₁ =>
      have hoa : v.observed.accept ⟨path, .branch c ts⟩ ancestors (s, os) =
          (accepted, s₁, os ++ [⟨⟨.accept accepted, ⟨path, .branch c ts⟩, ancestors⟩, s⟩]) := by
        simp only [observed, ha]
      cases accepted with
      | false =>
        rw [v.observed.walk_of_refused path ancestors (s, os) hoa, v.walk_of_refused path ancestors s ha]
        exact ⟨_, .refused ha, ⟨false, s, List.mem_cons_self⟩, rfl⟩
      | true =>
        obtain ⟨found, hinner, hchildren, hwalk⟩ := walkAll_observed v path 0 ts
          (⟨path, .branch c ts⟩ :: ancestors) (v.enter ⟨path, .branch c ts⟩ ancestors s₁)
          (os ++ [⟨⟨.accept true, ⟨path, .branch c ts⟩, ancestors⟩, s⟩] ++
            [⟨⟨.enter, ⟨path, .branch c ts⟩, ancestors⟩, s₁⟩])
        have hplain := v.walk_of_accepted path ancestors s ha
        refine ⟨_, hinner.enclose ha hchildren hplain.symm, ⟨true, s, List.mem_cons_self⟩, ?_⟩
        rw [v.observed.walk_of_accepted path ancestors (s, os) hoa, hplain]
        change v.observed.afterLeave _ _ (v.observed.leave _ _ (v.observed.walkAll path 0 ts _ (_, _))) = _
        rw [hwalk]
        simp [observed, Visitor.enclose]
termination_by structural tree

theorem walkAll_observed (v : Visitor σ) (path : List Nat) (index : Nat) (trees : List SyntaxTree)
    (ancestors : List Place) (s : σ) (os : List (Observation σ)) : ∃ found, v.Completes found ∧
      (∀ q ∈ (trees.zipIdx index).map (fun child => (⟨child.2 :: path, child.1⟩ : Place)),
        Asked found q ancestors) ∧
      v.observed.walkAll path index trees ancestors (s, os) =
        (v.walkAll path index trees ancestors s, os ++ found) := by
  match trees with
  | [] => exact ⟨[], .nil, by simp, by simp⟩
  | tree :: rest =>
    obtain ⟨found, hfound, hasked, hwalk⟩ := walk_observed v (index :: path) tree ancestors s os
    obtain ⟨others, hothers, haskeds, hwalks⟩ := walkAll_observed v path (index + 1) rest ancestors
      (v.walk (index :: path) tree ancestors s) (os ++ found)
    refine ⟨found ++ others, hfound.append hothers, ?_, ?_⟩
    · rw [List.zipIdx_cons, List.map_cons, List.forall_mem_cons]
      exact ⟨hasked.mono (List.subset_append_left _ _), fun q hq =>
        (haskeds q hq).mono (List.subset_append_right _ _)⟩
    · rw [walkAll_cons, walkAll_cons, hwalk, hwalks, List.append_assoc]
termination_by structural trees

end

/-- Each callback leads to a state that the relation puts behind the one before. -/
structure Advances (v : Visitor σ) (R : σ → σ → Prop) : Prop where
  refl : ∀ s, R s s
  trans : ∀ {s t u}, R s t → R t u → R s u
  accept : ∀ p ancestors s, R s (v.accept p ancestors s).2
  enter : ∀ p ancestors s, R s (v.enter p ancestors s)
  leave : ∀ p ancestors s, R s (v.leave p ancestors s)
  afterLeave : ∀ p ancestors s, R s (v.afterLeave p ancestors s)

/-- The end of a walk is behind every state that its calls have found. -/
theorem Advances.preserves {v : Visitor σ} {R : σ → σ → Prop} (h : v.Advances R) :
    v.observed.Preserves (fun _ => True) fun s => ∀ o ∈ s.2, R o.state s.1 := by
  have hstep : ∀ {s t : σ} {os : List (Observation σ)} (e : Event), R s t → (∀ o ∈ os, R o.state s) →
      ∀ o ∈ os ++ [⟨e, s⟩], R o.state t := by
    intro s t os e hst hos o ho
    obtain ho | ho := List.mem_append.mp ho
    · exact h.trans (hos o ho) hst
    · exact List.mem_singleton.mp ho ▸ hst
  exact ⟨fun p ancestors s => hstep _ (h.accept p ancestors s.1),
    fun p ancestors s _ => hstep _ (h.enter p ancestors s.1),
    fun p ancestors s _ => hstep _ (h.leave p ancestors s.1),
    fun p ancestors s => hstep _ (h.afterLeave p ancestors s.1)⟩

end Visitor
end GraphQuery
