import GraphQuery.Proofs.Traversal.Walk

/-! The calls that a traversal makes. Whatever the visitor decides, they are nested as the tree is: a
node that is refused brings no other call, neither for itself nor for what is below it, and a node that
is accepted is entered, then its children are visited in order, and then it is left. -/
namespace GraphQuery

inductive Callback where
  | accept (accepted : Bool)
  | enter
  | leave
  | afterLeave
  deriving DecidableEq, Repr

/-- A call of a visitor, with what it gets. -/
structure Event where
  callback : Callback
  place : Place
  ancestors : List Place

namespace Place

/-- The places right below a place, in order. -/
def children (p : Place) : List Place :=
  p.tree.children.zipIdx.map fun child => ⟨child.2 :: p.path, child.1⟩

/-- Nothing is below both places. -/
def Apart (p q : Place) : Prop := ∀ path, p.path <:+ path → ¬ q.path <:+ path

theorem path_of_mem_children {p q : Place} (h : q ∈ p.children) : ∃ i, q.path = i :: p.path := by
  obtain ⟨child, -, rfl⟩ := List.mem_map.mp h
  exact ⟨child.2, rfl⟩

theorem suffix_of_mem_children {p q : Place} (h : q ∈ p.children) : p.path <:+ q.path := by
  obtain ⟨i, hi⟩ := path_of_mem_children h
  rw [hi]
  exact List.suffix_cons i p.path

theorem not_suffix_of_mem_children {p q : Place} (h : q ∈ p.children) : ¬ q.path <:+ p.path := by
  obtain ⟨i, hi⟩ := path_of_mem_children h
  intro hs
  have hlength := hs.length_le
  rw [hi, List.length_cons] at hlength
  omega

/-- Two children of a place have no place in common below them. -/
theorem pairwise_children (p : Place) : p.children.Pairwise Apart := by
  have hindices : p.tree.children.zipIdx.Pairwise fun a b => a.2 ≠ b.2 := by
    rw [← List.pairwise_map, List.zipIdx_map_snd]
    exact List.nodup_range'
  refine List.Pairwise.map _ (fun a b hne => ?_) hindices
  intro path ha hb
  -- Of the ends of one path of the same length there is only one.
  obtain hs | hs := List.suffix_or_suffix_of_suffix ha hb
  · exact hne (List.cons.inj (hs.eq_of_length rfl)).1
  · exact hne (List.cons.inj (hs.eq_of_length rfl)).1.symm

end Place

/-- The places from the parent of a place up to the root of a tree. -/
inductive SyntaxTree.Lineage (root : SyntaxTree) : Place → List Place → Prop
  | root : Lineage root ⟨[], root⟩ []
  | child {p q : Place} {ancestors : List Place} (h : Lineage root p ancestors) (hq : q ∈ p.children) :
      Lineage root q (p :: ancestors)

namespace Event

/-- The places that are open when the call is made. A place that is left is no longer its own ancestor. -/
def openBefore (e : Event) : List Place :=
  match e.callback with
  | .leave => e.place :: e.ancestors
  | _ => e.ancestors

/-- The places that are open behind the call. -/
def openBehind (e : Event) : List Place :=
  match e.callback with
  | .enter => e.place :: e.ancestors
  | _ => e.ancestors

/-- Every call finds open what the call before it has left open. -/
def Linked (before : List Place) : List Event → List Place → Prop
  | [], behind => before = behind
  | e :: es, behind => before = e.openBefore ∧ Linked e.openBehind es behind

theorem Linked.append {before between behind : List Place} {es fs : List Event} (h : Linked before es between)
    (h' : Linked between fs behind) : Linked before (es ++ fs) behind := by
  induction es generalizing before with
  | nil => exact h ▸ h'
  | cons e es ih => exact ⟨h.1, ih h.2⟩

/-- The calls for a place that is accepted, around those for its children. -/
def enclose (p : Place) (ancestors : List Place) (es : List Event) : List Event :=
  [⟨.accept true, p, ancestors⟩, ⟨.enter, p, ancestors⟩] ++ es ++
    [⟨.leave, p, ancestors⟩, ⟨.afterLeave, p, ancestors⟩]

theorem mem_of_mem_enclose {p : Place} {ancestors : List Place} {e : Event} {es : List Event}
    (h : e ∈ enclose p ancestors es) : e ∈ es ∨ e.place = p ∧ e.ancestors = ancestors ∧
      e.callback ≠ .accept false := by
  simp only [enclose, List.mem_append, List.mem_cons, List.not_mem_nil, or_false] at h
  obtain ((rfl | rfl) | he) | (rfl | rfl) := h
  case inl.inr => exact .inl he
  all_goals exact .inr ⟨rfl, rfl, by simp⟩

theorem Linked.enclose {p : Place} {ancestors : List Place} {es : List Event}
    (h : Linked (p :: ancestors) es (p :: ancestors)) : Linked ancestors (enclose p ancestors es) ancestors :=
  ⟨rfl, rfl, h.append ⟨rfl, rfl, rfl⟩⟩

/-- The callbacks for one place. -/
def callbacksAt (path : List Nat) (es : List Event) : List Callback :=
  (es.filter fun e => e.place.path = path).map Event.callback

section CallbacksAt

variable (path : List Nat) (e : Event) (es fs : List Event)

theorem callbacksAt_append : callbacksAt path (es ++ fs) = callbacksAt path es ++ callbacksAt path fs := by
  simp [callbacksAt]

theorem callbacksAt_cons : callbacksAt path (e :: es) =
    (if e.place.path = path then [e.callback] else []) ++ callbacksAt path es := by
  unfold callbacksAt
  rw [List.filter_cons]
  split <;> simp_all

theorem callbacksAt_enclose (p : Place) (ancestors : List Place) : callbacksAt path (enclose p ancestors es) =
    if p.path = path then [.accept true, .enter] ++ callbacksAt path es ++ [.leave, .afterLeave]
    else callbacksAt path es := by
  simp only [enclose, callbacksAt_append, callbacksAt_cons]
  split <;> simp [callbacksAt]

theorem callbacksAt_eq_nil {es : List Event} (h : ∀ e ∈ es, e.place.path ≠ path) : callbacksAt path es = [] := by
  simpa [callbacksAt] using h

end CallbacksAt

/-- If the calls inside are for what is below the children of a place, all calls are for what is below
the place. -/
theorem suffix_of_mem_enclose {p : Place} {ancestors : List Place} {es : List Event}
    (h : ∀ e ∈ es, ∃ q ∈ p.children, q.path <:+ e.place.path) :
    ∀ e ∈ enclose p ancestors es, p.path <:+ e.place.path := by
  intro e he
  obtain he | ⟨hp, -⟩ := mem_of_mem_enclose he
  · obtain ⟨q, hq, hs⟩ := h e he
    exact (Place.suffix_of_mem_children hq).trans hs
  · exact hp ▸ List.suffix_rfl

/-- Below the place of a refusal there are no calls. -/
def ClosesRefusals (es : List Event) : Prop :=
  ∀ e ∈ es, e.callback = .accept false → ∀ f ∈ es, e.place.path <:+ f.place.path →
    f.place.path = e.place.path

/-- Neither of two calls is made below the place of the other. -/
def Apart (e f : Event) : Prop := ¬ e.place.path <:+ f.place.path ∧ ¬ f.place.path <:+ e.place.path

theorem ClosesRefusals.append {es fs : List Event} (h : ClosesRefusals es) (h' : ClosesRefusals fs)
    (apart : ∀ e ∈ es, ∀ f ∈ fs, e.Apart f) : ClosesRefusals (es ++ fs) := by
  intro e he hcallback f hf hs
  obtain he | he := List.mem_append.mp he
  · obtain hf | hf := List.mem_append.mp hf
    · exact h e he hcallback f hf hs
    · exact absurd hs (apart e he f hf).1
  · obtain hf | hf := List.mem_append.mp hf
    · exact absurd hs (apart f hf e he).2
    · exact h' e he hcallback f hf hs

/-- The calls of a visit are made along the tree and nested in each other, and each place has its calls
once: none, its refusal, or its acceptance followed by what enters and leaves it. -/
structure Nested (root : SyntaxTree) (es : List Event) : Prop where
  lineage : ∀ e ∈ es, root.Lineage e.place e.ancestors
  linked : Linked [] es []
  callbacks : ∀ path, callbacksAt path es = [] ∨ callbacksAt path es = [.accept false] ∨
    callbacksAt path es = [.accept true, .enter, .leave, .afterLeave]
  refused : ClosesRefusals es

end Event

namespace Visitor

variable {σ : Type}

/-- The visitor with a record of its calls. -/
def traced (v : Visitor σ) : Visitor (σ × List Event) where
  accept p ancestors s :=
    let (accepted, t) := v.accept p ancestors s.1
    (accepted, t, s.2 ++ [⟨.accept accepted, p, ancestors⟩])
  enter p ancestors s := (v.enter p ancestors s.1, s.2 ++ [⟨.enter, p, ancestors⟩])
  leave p ancestors s := (v.leave p ancestors s.1, s.2 ++ [⟨.leave, p, ancestors⟩])
  afterLeave p ancestors s := (v.afterLeave p ancestors s.1, s.2 ++ [⟨.afterLeave, p, ancestors⟩])

/-- Keeping a record changes nothing else. -/
theorem projects_traced (v : Visitor σ) : v.traced.Projects Prod.fst v where
  accept _ _ _ := rfl
  enter _ _ _ := rfl
  leave _ _ _ := rfl
  afterLeave _ _ _ := rfl

/-- Visits of places in a row, with their calls: each place is refused or it is entered, its children
are visited, and it is left. -/
inductive Visits (v : Visitor σ) : List Place → List Place → σ → List Event → σ → Prop
  | nil {ancestors : List Place} {s : σ} : Visits v [] ancestors s [] s
  | refused {p : Place} {ps ancestors : List Place} {s s' t : σ} {es : List Event}
      (h : v.accept p ancestors s = (false, s')) (rest : Visits v ps ancestors s' es t) :
      Visits v (p :: ps) ancestors s (⟨.accept false, p, ancestors⟩ :: es) t
  | entered {p : Place} {ps ancestors : List Place} {s s₁ s₂ t : σ} {es fs : List Event}
      (h : v.accept p ancestors s = (true, s₁))
      (inner : Visits v p.children (p :: ancestors) (v.enter p ancestors s₁) es s₂)
      (rest : Visits v ps ancestors (v.afterLeave p ancestors (v.leave p ancestors s₂)) fs t) :
      Visits v (p :: ps) ancestors s (Event.enclose p ancestors es ++ fs) t

namespace Visits

variable {v : Visitor σ} {p : Place} {ps ancestors : List Place} {s s' t : σ} {es fs : List Event}

theorem cons (h : Visits v [p] ancestors s es s') (h' : Visits v ps ancestors s' fs t) :
    Visits v (p :: ps) ancestors s (es ++ fs) t := by
  cases h with
  | refused h rest =>
    cases rest
    exact .refused h h'
  | entered h inner rest =>
    cases rest
    rw [List.append_nil]
    exact .entered h inner h'

/-- All calls concern the places in the row and what is below them. -/
theorem exists_suffix (h : Visits v ps ancestors s es t) : ∀ e ∈ es, ∃ p ∈ ps, p.path <:+ e.place.path := by
  induction h with
  | nil => simp
  | refused h rest ih =>
    rw [List.forall_mem_cons]
    exact ⟨⟨_, List.mem_cons_self, List.suffix_rfl⟩, fun e he =>
      (ih e he).imp fun q hq => ⟨List.mem_cons_of_mem _ hq.1, hq.2⟩⟩
  | @entered p ps ancestors s s₁ s₂ t es fs h inner rest ihInner ihRest =>
    refine List.forall_mem_append.mpr ⟨fun e he => ⟨p, List.mem_cons_self, ?_⟩, fun e he =>
      (ihRest e he).imp fun q hq => ⟨List.mem_cons_of_mem _ hq.1, hq.2⟩⟩
    exact Event.suffix_of_mem_enclose ihInner e he

/-- Every call gets the places from its own place up to the root. -/
theorem lineage (h : Visits v ps ancestors s es t) {root : SyntaxTree}
    (hps : ∀ p ∈ ps, root.Lineage p ancestors) : ∀ e ∈ es, root.Lineage e.place e.ancestors := by
  induction h with
  | nil => simp
  | refused h rest ih =>
    rw [List.forall_mem_cons] at hps ⊢
    exact ⟨hps.1, ih hps.2⟩
  | entered h inner rest ihInner ihRest =>
    rw [List.forall_mem_cons] at hps
    refine List.forall_mem_append.mpr ⟨fun e he => ?_, ihRest hps.2⟩
    obtain he | ⟨hp, ha, -⟩ := Event.mem_of_mem_enclose he
    · exact ihInner (fun q hq => .child hps.1 hq) e he
    · rw [hp, ha]
      exact hps.1

/-- The open places are the same behind the visits as before them. -/
theorem linked (h : Visits v ps ancestors s es t) : Event.Linked ancestors es ancestors := by
  induction h with
  | nil => rfl
  | refused h rest ih => exact ⟨rfl, ih⟩
  | entered h inner rest ihInner ihRest => exact ihInner.enclose.append ihRest

/-- There are no calls for what is not below any place of the row. -/
theorem callbacksAt_eq_nil (h : Visits v ps ancestors s es t) {path : List Nat}
    (hps : ∀ p ∈ ps, ¬ p.path <:+ path) : Event.callbacksAt path es = [] := by
  refine Event.callbacksAt_eq_nil path fun e he hpath => ?_
  obtain ⟨p, hp, hs⟩ := h.exists_suffix e he
  exact hps p hp (hpath ▸ hs)

/-- The calls for a row are apart from those below a place that is apart from the row. -/
theorem apart_of_suffix (h : Visits v ps ancestors s fs t) (hp : ∀ q ∈ ps, p.Apart q)
    (hes : ∀ e ∈ es, p.path <:+ e.place.path) : ∀ e ∈ es, ∀ f ∈ fs, e.Apart f := by
  intro e he f hf
  obtain ⟨q, hq, hs⟩ := h.exists_suffix f hf
  exact ⟨fun hef => hp q hq _ ((hes e he).trans hef) hs, fun hfe => hp q hq _ (hes e he) (hs.trans hfe)⟩

/-- Of places that are apart each one has its calls once. -/
theorem callbacks (h : Visits v ps ancestors s es t) (hps : ps.Pairwise Place.Apart) (path : List Nat) :
    Event.callbacksAt path es = [] ∨ Event.callbacksAt path es = [.accept false] ∨
      Event.callbacksAt path es = [.accept true, .enter, .leave, .afterLeave] := by
  induction h with
  | nil => exact .inl rfl
  | @refused p ps ancestors s s' t es h rest ih =>
    obtain ⟨hp, hps⟩ := List.pairwise_cons.mp hps
    rw [Event.callbacksAt_cons]
    by_cases hpath : p.path = path
    · rw [if_pos hpath, rest.callbacksAt_eq_nil fun q hq => hp q hq path (hpath ▸ List.suffix_rfl)]
      exact .inr (.inl rfl)
    · rw [if_neg hpath, List.nil_append]
      exact ih hps
  | @entered p ps ancestors s s₁ s₂ t es fs h inner rest ihInner ihRest =>
    obtain ⟨hp, hps⟩ := List.pairwise_cons.mp hps
    rw [Event.callbacksAt_append, Event.callbacksAt_enclose]
    by_cases hpath : p.path = path
    · subst hpath
      rw [if_pos rfl, rest.callbacksAt_eq_nil fun q hq => hp q hq _ List.suffix_rfl,
        inner.callbacksAt_eq_nil fun q hq => Place.not_suffix_of_mem_children hq]
      exact .inr (.inr rfl)
    · rw [if_neg hpath]
      by_cases hbelow : p.path <:+ path
      · rw [rest.callbacksAt_eq_nil fun q hq => hp q hq path hbelow, List.append_nil]
        exact ihInner p.pairwise_children
      · rw [inner.callbacksAt_eq_nil fun q hq hs => hbelow ((Place.suffix_of_mem_children hq).trans hs)]
        exact ihRest hps

/-- Below a place that is refused there are no calls. -/
theorem closesRefusals (h : Visits v ps ancestors s es t) (hps : ps.Pairwise Place.Apart) :
    Event.ClosesRefusals es := by
  induction h with
  | nil => exact fun e he => absurd he List.not_mem_nil
  | @refused p ps ancestors s s' t es h rest ih =>
    obtain ⟨hp, hps⟩ := List.pairwise_cons.mp hps
    have hfirst : Event.ClosesRefusals [⟨.accept false, p, ancestors⟩] := fun e he _ f hf _ => by
      rw [List.mem_singleton.mp he, List.mem_singleton.mp hf]
    exact hfirst.append (ih hps)
      (rest.apart_of_suffix hp (List.forall_mem_singleton.mpr List.suffix_rfl))
  | @entered p ps ancestors s s₁ s₂ t es fs h inner rest ihInner ihRest =>
    obtain ⟨hp, hps⟩ := List.pairwise_cons.mp hps
    have hfirst : Event.ClosesRefusals (Event.enclose p ancestors es) := by
      intro e he hcallback f hf hs
      obtain he | ⟨-, -, hne⟩ := Event.mem_of_mem_enclose he
      · obtain hf | ⟨hfp, -⟩ := Event.mem_of_mem_enclose hf
        · exact ihInner p.pairwise_children e he hcallback f hf hs
        · -- A refusal among the calls for the children is not above their parent.
          obtain ⟨q, hq, hqs⟩ := inner.exists_suffix e he
          exact absurd (hqs.trans (hfp ▸ hs)) (Place.not_suffix_of_mem_children hq)
      · exact absurd hcallback hne
    exact hfirst.append (ihRest hps)
      (rest.apart_of_suffix hp (Event.suffix_of_mem_enclose inner.exists_suffix))

/-- Visits of the whole tree are nested. -/
theorem nested {root : SyntaxTree} (h : Visits v [⟨[], root⟩] [] s es t) : Event.Nested root es where
  lineage := h.lineage (List.forall_mem_singleton.mpr .root)
  linked := h.linked
  callbacks := h.callbacks (List.pairwise_singleton _ _)
  refused := h.closesRefusals (List.pairwise_singleton _ _)

end Visits

mutual

/-- What is recorded of a walk are the calls of a visit. -/
theorem walk_traced (v : Visitor σ) (path : List Nat) (tree : SyntaxTree) (ancestors : List Place) (s : σ)
    (es : List Event) : ∃ fs t, v.traced.walk path tree ancestors (s, es) = (t, es ++ fs) ∧
      Visits v [⟨path, tree⟩] ancestors s fs t := by
  match tree with
  | .branch c ts =>
    cases ha : v.accept ⟨path, .branch c ts⟩ ancestors s with
    | mk accepted s₁ =>
      have hta : v.traced.accept ⟨path, .branch c ts⟩ ancestors (s, es) =
          (accepted, s₁, es ++ [⟨.accept accepted, ⟨path, .branch c ts⟩, ancestors⟩]) := by
        simp only [traced, ha]
      cases accepted with
      | false =>
        rw [v.traced.walk_of_refused path ancestors (s, es) hta]
        exact ⟨_, s₁, rfl, .refused ha .nil⟩
      | true =>
        obtain ⟨fs, s₂, hwalk, hvisits⟩ := walkAll_traced v path 0 ts (⟨path, .branch c ts⟩ :: ancestors)
          (v.enter ⟨path, .branch c ts⟩ ancestors s₁)
          (es ++ [⟨.accept true, ⟨path, .branch c ts⟩, ancestors⟩] ++
            [⟨.enter, ⟨path, .branch c ts⟩, ancestors⟩])
        rw [v.traced.walk_of_accepted path ancestors (s, es) hta]
        refine ⟨_, _, ?_, .entered ha hvisits .nil⟩
        change v.traced.afterLeave _ _ (v.traced.leave _ _ (v.traced.walkAll path 0 ts _ (_, _))) = _
        rw [hwalk]
        simp [traced, Event.enclose]
termination_by structural tree

theorem walkAll_traced (v : Visitor σ) (path : List Nat) (index : Nat) (trees : List SyntaxTree)
    (ancestors : List Place) (s : σ) (es : List Event) :
    ∃ fs t, v.traced.walkAll path index trees ancestors (s, es) = (t, es ++ fs) ∧
      Visits v ((trees.zipIdx index).map fun child => ⟨child.2 :: path, child.1⟩) ancestors s fs t := by
  match trees with
  | [] => exact ⟨[], s, by simp, .nil⟩
  | tree :: rest =>
    obtain ⟨fs, s₁, hwalk, hvisits⟩ := walk_traced v (index :: path) tree ancestors s es
    obtain ⟨gs, t, hwalks, hrest⟩ := walkAll_traced v path (index + 1) rest ancestors s₁ (es ++ fs)
    refine ⟨fs ++ gs, t, ?_, hvisits.cons hrest⟩
    rw [walkAll_cons, hwalk, hwalks, List.append_assoc]
termination_by structural trees

end

end Visitor
end GraphQuery
