import GraphQuery.Traversal

/-! Traversals as walks. A visit leaves the stack and the errors as it found them, so a traversal
is a recursion on the tree that hands on nothing but the state of the visitor. -/
namespace GraphQuery

namespace SyntaxTree

mutual

/-- The constructs in a tree, each of them before those below it. -/
def constructs : SyntaxTree → List Construct
  | .branch c ts => c :: constructsOfAll ts
termination_by structural x => x

def constructsOfAll : List SyntaxTree → List Construct
  | [] => []
  | t :: rest => t.constructs ++ constructsOfAll rest
termination_by structural x => x

end

@[simp] theorem constructsOfAll_eq_flatMap (ts : List SyntaxTree) :
    constructsOfAll ts = ts.flatMap constructs := by
  induction ts with
  | nil => rfl
  | cons t ts ih => simp [constructsOfAll, ih]

@[simp] theorem constructs_branch (c : Construct) (ts : List SyntaxTree) :
    (branch c ts).constructs = c :: ts.flatMap constructs := by
  simp [constructs]

mutual

/-- The tree with other constructs in the same places. -/
def map (m : Construct → Construct) : SyntaxTree → SyntaxTree
  | .branch c ts => .branch (m c) (mapAll m ts)
termination_by structural x => x

def mapAll (m : Construct → Construct) : List SyntaxTree → List SyntaxTree
  | [] => []
  | t :: rest => t.map m :: mapAll m rest
termination_by structural x => x

end

@[simp] theorem mapAll_eq_map (m : Construct → Construct) (ts : List SyntaxTree) :
    mapAll m ts = ts.map (map m) := by
  induction ts with
  | nil => rfl
  | cons t ts ih => simp [mapAll, ih]

@[simp] theorem map_branch (m : Construct → Construct) (c : Construct) (ts : List SyntaxTree) :
    (branch c ts).map m = branch (m c) (ts.map (map m)) := by
  simp [map]

mutual

@[simp] theorem map_id (t : SyntaxTree) : t.map id = t := by
  match t with
  | .branch c ts => rw [map, mapAll_id ts, id]
termination_by structural t

theorem mapAll_id (ts : List SyntaxTree) : mapAll id ts = ts := by
  match ts with
  | [] => rfl
  | t :: rest => rw [mapAll, map_id t, mapAll_id rest]
termination_by structural ts

end

end SyntaxTree

/-- The same place in the tree with other constructs. -/
def Place.map (m : Construct → Construct) (p : Place) : Place := ⟨p.path, p.tree.map m⟩

@[simp] theorem Place.map_id (p : Place) : p.map id = p := by simp [map]

@[simp] theorem Place.map_id_fun : Place.map id = id := funext map_id

@[simp] theorem Place.isSame_self (p : Place) : p.isSame p = true := by simp [isSame]

namespace Visitor

variable {σ : Type}

mutual

/-- The state after a visit of the tree at a path below the open places. -/
def walk (v : Visitor σ) (path : List Nat) (tree : SyntaxTree) (ancestors : List Place) (s : σ) : σ :=
  match tree with
  | .branch c children =>
    let place : Place := ⟨path, .branch c children⟩
    match v.accept place ancestors s with
    | (false, s) => s
    | (true, s) =>
      v.afterLeave place ancestors <| v.leave place ancestors <|
        walkAll v path 0 children (place :: ancestors) (v.enter place ancestors s)
termination_by structural tree

/-- The state after visits of the children of a path, numbered from `index` on. -/
def walkAll (v : Visitor σ) (path : List Nat) (index : Nat) (trees : List SyntaxTree)
    (ancestors : List Place) (s : σ) : σ :=
  match trees with
  | [] => s
  | tree :: rest => walkAll v path (index + 1) rest ancestors (walk v (index :: path) tree ancestors s)
termination_by structural trees

end

variable (v : Visitor σ) (path : List Nat) (ancestors : List Place) (s : σ)

@[simp] theorem walkAll_nil (index : Nat) : v.walkAll path index [] ancestors s = s := rfl

@[simp] theorem walkAll_cons (index : Nat) (t : SyntaxTree) (ts : List SyntaxTree) :
    v.walkAll path index (t :: ts) ancestors s =
      v.walkAll path (index + 1) ts ancestors (v.walk (index :: path) t ancestors s) := rfl

theorem walkAll_append (index : Nat) (ts us : List SyntaxTree) :
    v.walkAll path index (ts ++ us) ancestors s =
      v.walkAll path (index + ts.length) us ancestors (v.walkAll path index ts ancestors s) := by
  induction ts generalizing index s with
  | nil => rfl
  | cons t ts ih =>
    simp only [List.cons_append, walkAll_cons, ih, List.length_cons]
    congr 1
    omega

/-- A tree that the visitor refuses. -/
theorem walk_of_refused {c : Construct} {ts : List SyntaxTree} {t : σ}
    (h : v.accept ⟨path, .branch c ts⟩ ancestors s = (false, t)) :
    v.walk path (.branch c ts) ancestors s = t := by
  simp only [walk, h]

/-- A tree that the visitor accepts. -/
theorem walk_of_accepted {c : Construct} {ts : List SyntaxTree} {t : σ}
    (h : v.accept ⟨path, .branch c ts⟩ ancestors s = (true, t)) :
    v.walk path (.branch c ts) ancestors s =
      v.afterLeave ⟨path, .branch c ts⟩ ancestors (v.leave ⟨path, .branch c ts⟩ ancestors
        (v.walkAll path 0 ts (⟨path, .branch c ts⟩ :: ancestors)
          (v.enter ⟨path, .branch c ts⟩ ancestors t))) := by
  simp only [walk, h]

section Invariants

variable {v}
variable {P : σ → Prop} {Q : Construct → Prop}

/-- What the callbacks preserve at constructs of one kind. -/
structure Preserves (v : Visitor σ) (Q : Construct → Prop) (P : σ → Prop) : Prop where
  accept : ∀ p ancestors s, P s → P (v.accept p ancestors s).2
  enter : ∀ p ancestors s, Q p.tree.construct → P s → P (v.enter p ancestors s)
  leave : ∀ p ancestors s, Q p.tree.construct → P s → P (v.leave p ancestors s)
  afterLeave : ∀ p ancestors s, P s → P (v.afterLeave p ancestors s)

mutual

/-- What the callbacks preserve holds after a walk through constructs of that kind. -/
theorem Preserves.walk (h : Preserves v Q P) (path : List Nat) (tree : SyntaxTree)
    (ancestors : List Place) (s : σ) (hq : ∀ c ∈ tree.constructs, Q c) (hs : P s) :
    P (v.walk path tree ancestors s) := by
  match tree with
  | .branch c ts =>
    rw [SyntaxTree.constructs_branch, List.forall_mem_cons] at hq
    have ha := h.accept ⟨path, .branch c ts⟩ ancestors s hs
    cases hv : v.accept ⟨path, .branch c ts⟩ ancestors s with
    | mk accepted t =>
      rw [hv] at ha
      cases accepted with
      | false =>
        rw [walk_of_refused v path ancestors s hv]
        exact ha
      | true =>
        rw [walk_of_accepted v path ancestors s hv]
        have hc := h.walkAll path 0 ts (⟨path, .branch c ts⟩ :: ancestors) _ hq.2
          (h.enter ⟨path, .branch c ts⟩ ancestors t hq.1 ha)
        exact h.afterLeave _ _ _ (h.leave _ _ _ hq.1 hc)
termination_by structural tree

theorem Preserves.walkAll (h : Preserves v Q P) (path : List Nat) (index : Nat)
    (trees : List SyntaxTree) (ancestors : List Place) (s : σ)
    (hq : ∀ c ∈ trees.flatMap SyntaxTree.constructs, Q c) (hs : P s) :
    P (v.walkAll path index trees ancestors s) := by
  match trees with
  | [] => exact hs
  | t :: rest =>
    rw [List.flatMap_cons, List.forall_mem_append] at hq
    exact h.walkAll path (index + 1) rest ancestors _ hq.2 (h.walk (index :: path) t ancestors s hq.1 hs)
termination_by structural trees

end

end Invariants

section Simulations

variable {τ : Type} {v : Visitor σ} {u : Visitor τ} {m : Construct → Construct} {R : σ → τ → Prop}
  {Q : Construct → Prop}

/-- From related states the callbacks of the two visitors, the second of which finds other constructs in
the same places, make the same decisions and lead to related states. -/
structure Simulates (m : Construct → Construct) (Q : Construct → Prop) (R : σ → τ → Prop) (v : Visitor σ)
    (u : Visitor τ) : Prop where
  accept : ∀ p ancestors s t, Q p.tree.construct → R s t →
    (v.accept p ancestors s).1 = (u.accept (p.map m) (ancestors.map (Place.map m)) t).1 ∧
      R (v.accept p ancestors s).2 (u.accept (p.map m) (ancestors.map (Place.map m)) t).2
  enter : ∀ p ancestors s t, Q p.tree.construct → R s t →
    R (v.enter p ancestors s) (u.enter (p.map m) (ancestors.map (Place.map m)) t)
  leave : ∀ p ancestors s t, R s t →
    R (v.leave p ancestors s) (u.leave (p.map m) (ancestors.map (Place.map m)) t)
  afterLeave : ∀ p ancestors s t, R s t →
    R (v.afterLeave p ancestors s) (u.afterLeave (p.map m) (ancestors.map (Place.map m)) t)

mutual

/-- Two walks from related states end in related states. -/
theorem Simulates.walk (h : Simulates m Q R v u) (path : List Nat) (tree : SyntaxTree) (ancestors : List Place)
    {s : σ} {t : τ} (hq : ∀ c ∈ tree.constructs, Q c) (hr : R s t) :
    R (v.walk path tree ancestors s) (u.walk path (tree.map m) (ancestors.map (Place.map m)) t) := by
  match tree with
  | .branch c ts =>
    rw [SyntaxTree.constructs_branch, List.forall_mem_cons] at hq
    have hplace : Place.map m ⟨path, .branch c ts⟩ = ⟨path, .branch (m c) (ts.map (SyntaxTree.map m))⟩ := by
      rw [Place.map, SyntaxTree.map_branch]
    have ha := h.accept ⟨path, .branch c ts⟩ ancestors s t hq.1 hr
    rw [SyntaxTree.map_branch]
    cases hs : v.accept ⟨path, .branch c ts⟩ ancestors s with
    | mk accepted s' =>
      cases ht : u.accept ⟨path, .branch (m c) (ts.map (SyntaxTree.map m))⟩ (ancestors.map (Place.map m)) t with
      | mk accepted' t' =>
        rw [hplace, hs, ht] at ha
        obtain ⟨rfl, hr'⟩ := ha
        cases accepted with
        | false =>
          rw [walk_of_refused v path ancestors s hs, walk_of_refused u path _ t ht]
          exact hr'
        | true =>
          rw [walk_of_accepted v path ancestors s hs, walk_of_accepted u path _ t ht, ← hplace]
          have hc := h.walkAll path 0 ts (⟨path, .branch c ts⟩ :: ancestors) hq.2
            (h.enter ⟨path, .branch c ts⟩ ancestors s' t' hq.1 hr')
          exact h.afterLeave _ _ _ _ (h.leave _ _ _ _ hc)
termination_by structural tree

theorem Simulates.walkAll (h : Simulates m Q R v u) (path : List Nat) (index : Nat) (trees : List SyntaxTree)
    (ancestors : List Place) {s : σ} {t : τ} (hq : ∀ c ∈ trees.flatMap SyntaxTree.constructs, Q c)
    (hr : R s t) :
    R (v.walkAll path index trees ancestors s)
      (u.walkAll path index (trees.map (SyntaxTree.map m)) (ancestors.map (Place.map m)) t) := by
  match trees with
  | [] => exact hr
  | tree :: rest =>
    rw [List.flatMap_cons, List.forall_mem_append] at hq
    exact h.walkAll path (index + 1) rest ancestors hq.2 (h.walk (index :: path) tree ancestors hq.1 hr)
termination_by structural trees

end

end Simulations

section Relations

variable {v}
variable {R : σ → σ → Prop} {Q : Construct → Prop}

/-- From related states the callbacks lead to related states, with the same decisions. -/
structure Relates (v : Visitor σ) (Q : Construct → Prop) (R : σ → σ → Prop) : Prop where
  accept : ∀ p ancestors s t, Q p.tree.construct → R s t →
    (v.accept p ancestors s).1 = (v.accept p ancestors t).1 ∧
      R (v.accept p ancestors s).2 (v.accept p ancestors t).2
  enter : ∀ p ancestors s t, Q p.tree.construct → R s t → R (v.enter p ancestors s) (v.enter p ancestors t)
  leave : ∀ p ancestors s t, R s t → R (v.leave p ancestors s) (v.leave p ancestors t)
  afterLeave : ∀ p ancestors s t, R s t → R (v.afterLeave p ancestors s) (v.afterLeave p ancestors t)

/-- Two walks through the same tree from related states end in related states. -/
theorem Relates.walk (h : Relates v Q R) (path : List Nat) (tree : SyntaxTree) (ancestors : List Place)
    {s t : σ} (hq : ∀ c ∈ tree.constructs, Q c) (hr : R s t) :
    R (v.walk path tree ancestors s) (v.walk path tree ancestors t) := by
  have hsimulates : Simulates id Q R v v :=
    ⟨by simpa using h.accept, by simpa using h.enter, by simpa using h.leave, by simpa using h.afterLeave⟩
  simpa using hsimulates.walk path tree ancestors hq hr

end Relations

section Projections

variable {τ : Type} {f : σ → τ} {v : Visitor σ} {u : Visitor τ}

/-- The first visitor does with more state what the second one does with less. -/
structure Projects (f : σ → τ) (v : Visitor σ) (u : Visitor τ) : Prop where
  accept : ∀ p ancestors s, u.accept p ancestors (f s) =
    ((v.accept p ancestors s).1, f (v.accept p ancestors s).2)
  enter : ∀ p ancestors s, f (v.enter p ancestors s) = u.enter p ancestors (f s)
  leave : ∀ p ancestors s, f (v.leave p ancestors s) = u.leave p ancestors (f s)
  afterLeave : ∀ p ancestors s, f (v.afterLeave p ancestors s) = u.afterLeave p ancestors (f s)

theorem Projects.walk (h : Projects f v u) (path : List Nat) (tree : SyntaxTree)
    (ancestors : List Place) (s : σ) :
    f (v.walk path tree ancestors s) = u.walk path tree ancestors (f s) := by
  have hsimulates : Simulates id (fun _ => True) (fun s t => f s = t) v u := by
    refine ⟨?_, ?_, ?_, ?_⟩
    · rintro p ancestors s t - rfl
      simp [h.accept]
    · rintro p ancestors s t - rfl
      simp [h.enter]
    · rintro p ancestors s t rfl
      simp [h.leave]
    · rintro p ancestors s t rfl
      simp [h.afterLeave]
  simpa using hsimulates.walk path tree ancestors (fun _ _ => trivial) rfl

end Projections
end Visitor

namespace Traversal

variable {σ : Type}

theorem leave_top (v : Visitor σ) (p : Place) (stack : List Place) (errors : List DispatchError) (s : σ) :
    leave v p ⟨p :: stack, errors, s⟩ = ⟨stack, errors, v.afterLeave p stack (v.leave p stack s)⟩ := by
  simp [leave]

mutual

/-- A visit changes the state as the walk does, and nothing else. -/
theorem visit_eq_walk (v : Visitor σ) (path : List Nat) (tree : SyntaxTree) (t : Traversal σ) :
    visit v path tree t = { t with state := v.walk path tree t.stack t.state } := by
  match tree with
  | .branch c ts =>
    cases hv : v.accept ⟨path, .branch c ts⟩ t.stack t.state with
    | mk accepted s =>
      cases accepted with
      | false =>
        rw [v.walk_of_refused path t.stack t.state hv]
        simp only [visit, hv]
      | true =>
        rw [v.walk_of_accepted path t.stack t.state hv]
        simp only [visit, hv]
        rw [visitAll_eq_walkAll]
        exact leave_top v _ _ _ _
termination_by structural tree

theorem visitAll_eq_walkAll (v : Visitor σ) (path : List Nat) (index : Nat) (trees : List SyntaxTree)
    (t : Traversal σ) :
    visitAll v path index trees t = { t with state := v.walkAll path index trees t.stack t.state } := by
  match trees with
  | [] => rfl
  | tree :: rest =>
    rw [visitAll, visit_eq_walk, visitAll_eq_walkAll]
    rfl
termination_by structural trees

end

/-- A traversal ends with no open place and without errors, in the state of the walk. -/
theorem ofTree_eq_walk (v : Visitor σ) (tree : SyntaxTree) (s : σ) :
    ofTree v tree s = ⟨[], [], v.walk [] tree [] s⟩ :=
  visit_eq_walk v [] tree (start s)

end Traversal
end GraphQuery
