import GraphQuery.Proofs.Traversal.Trace
import Mathlib.Data.List.Induction

/-! Traversals made by hand, one call after the other and in any order. They are accepted if the calls are
well bracketed. A call that leaves another node than the innermost open one is an error, and the first such
error is the verdict, whatever comes behind it; but for the error and the last callback such a call is none. -/
namespace GraphQuery

/-- A call that opens a node or closes one. -/
inductive Move where
  | enter (p : Place)
  | leave (p : Place)

namespace Move

@[simp] def entered? : Move → Option Place
  | enter p => some p
  | leave _ => none

@[simp] def left? : Move → Option Place
  | enter _ => none
  | leave p => some p

/-- Well-bracketed words: what a call opens is what the call that closes it names. -/
inductive Balanced : List Move → Prop
  | nil : Balanced []
  | around {p q : Place} {inside behind : List Move} (same : p.isSame q = true) (hi : Balanced inside)
      (hb : Balanced behind) : Balanced (enter p :: (inside ++ leave q :: behind))

/-- Words that leave places open, the innermost first: around the calls that open them all is well bracketed. -/
inductive LeavesOpen : List Place → List Move → Prop
  | balanced {w : List Move} (h : Balanced w) : LeavesOpen [] w
  | enter {stack : List Place} {p : Place} {w u : List Move} (h : LeavesOpen stack w) (hu : Balanced u) :
      LeavesOpen (p :: stack) (w ++ Move.enter p :: u)

/-- The place is not the innermost open one. -/
def Mismatched (p : Place) (stack : List Place) : Prop := ∀ top ∈ stack.head?, top.isSame p = false

/-- The error of the first call that leaves another place than the innermost open one. -/
def FirstMismatch (w : List Move) (e : DispatchError) : Prop :=
  ∃ before p behind stack, w = before ++ leave p :: behind ∧ LeavesOpen stack before ∧ Mismatched p stack ∧
    e = .imbalance ((stack.head?.map Place.kind).getD "nothing") p.kind

theorem Balanced.append {w u : List Move} (h : Balanced w) (hu : Balanced u) : Balanced (w ++ u) := by
  induction h with
  | nil => exact hu
  | around same hi _ _ ihb =>
    rw [List.cons_append, List.append_assoc]
    exact .around same hi ihb

namespace LeavesOpen

variable {stack : List Place} {w u : List Move} {p q : Place}

theorem append (h : LeavesOpen stack w) (hu : Balanced u) : LeavesOpen stack (w ++ u) := by
  cases h with
  | balanced hw => exact .balanced (hw.append hu)
  | enter h hv =>
    rw [List.append_assoc, List.cons_append]
    exact .enter h (hv.append hu)

theorem concat_enter (h : LeavesOpen stack w) : LeavesOpen (p :: stack) (w ++ [Move.enter p]) :=
  .enter h .nil

theorem concat_leave (h : LeavesOpen (p :: stack) w) (same : p.isSame q = true) :
    LeavesOpen stack (w ++ [leave q]) := by
  cases h with
  | enter h hu =>
    rw [List.append_assoc, List.cons_append]
    exact h.append (.around same hu .nil)

theorem nil_iff : LeavesOpen [] w ↔ Balanced w :=
  ⟨fun h => by cases h; assumption, .balanced⟩

end LeavesOpen

theorem mismatched_or (p : Place) (stack : List Place) :
    (∃ top rest, stack = top :: rest ∧ top.isSame p = true) ∨ Mismatched p stack := by
  cases stack with
  | nil => exact .inr nofun
  | cons top rest =>
    cases h : top.isSame p with
    | true => exact .inl ⟨top, rest, rfl, h⟩
    | false =>
      refine .inr fun q hq => ?_
      obtain rfl : top = q := by simpa using hq
      exact h

end Move

namespace Traversal

open Move

variable {σ : Type} (v : Visitor σ) (t : Traversal σ) (s : σ)

def move (v : Visitor σ) (t : Traversal σ) : Move → Traversal σ
  | .enter p => t.enter v p
  | .leave p => t.leave v p

def run (v : Visitor σ) (t : Traversal σ) (w : List Move) : Traversal σ := w.foldl (move v) t

/-- A call that leaves the innermost open place. -/
theorem move_leave_matched {t : Traversal σ} {p top : Place} {rest : List Place} (h : t.stack = top :: rest)
    (same : top.isSame p = true) : move v t (.leave p) =
      ⟨rest, t.errors, v.afterLeave p rest (v.leave p rest t.state)⟩ := by
  obtain ⟨stack, errors, s⟩ := t
  obtain rfl : stack = top :: rest := h
  simp only [move, leave, same, if_true]

/-- A call that leaves any other place. -/
theorem move_leave_mismatched {t : Traversal σ} {p : Place} (h : Mismatched p t.stack) :
    move v t (.leave p) = ⟨t.stack, t.errors ++ [imbalance p t.stack], v.afterLeave p t.stack t.state⟩ := by
  obtain ⟨stack, errors, s⟩ := t
  cases stack with
  | nil => rfl
  | cons top rest =>
    have hne : top.isSame p = false := h top rfl
    simp only [move, leave, hne, Bool.false_eq_true, if_false]

section Runs

variable (w u : List Move)

@[simp] theorem run_nil : run v t [] = t := rfl

theorem run_cons (m : Move) : run v t (m :: w) = run v (move v t m) w := rfl

theorem run_append : run v t (w ++ u) = run v (run v t w) u := List.foldl_append

theorem run_concat (m : Move) : run v t (w ++ [m]) = move v (run v t w) m := run_append v t w [m]

/-- What is well bracketed leaves the open places and the errors as they are. -/
theorem run_balanced {w : List Move} (h : Balanced w) :
    (run v t w).stack = t.stack ∧ (run v t w).errors = t.errors := by
  induction h generalizing t with
  | nil => exact ⟨rfl, rfl⟩
  | @around p q inside behind same _ _ ihi ihb =>
    obtain ⟨hstack, herrors⟩ := ihi (move v t (.enter p))
    have htop : (run v (move v t (.enter p)) inside).stack = p :: t.stack := hstack
    rw [run_cons, run_append, run_cons, move_leave_matched v htop same]
    exact ⟨(ihb _).1, (ihb _).2.trans herrors⟩

/-- The places that a word leaves open are those on the stack. -/
theorem run_leavesOpen {stack : List Place} {w : List Move} (h : LeavesOpen stack w) :
    (run v (start s) w).stack = stack ∧ (run v (start s) w).errors = [] := by
  induction h with
  | balanced h => exact run_balanced v (start s) h
  | @enter stack p w u h hu ih =>
    obtain ⟨hstack, herrors⟩ := run_balanced v (move v (run v (start s) w) (.enter p)) hu
    rw [run_append, run_cons]
    exact ⟨hstack.trans (congrArg (p :: ·) ih.1), herrors.trans ih.2⟩

theorem errors_move (m : Move) : t.errors <+: (move v t m).errors := by
  cases m with
  | enter p => exact List.prefix_rfl
  | leave p =>
    obtain ⟨top, rest, hstack, same⟩ | hp := mismatched_or p t.stack
    · have herrors : (move v t (.leave p)).errors = t.errors := by rw [move_leave_matched v hstack same]
      exact herrors ▸ List.prefix_rfl
    · rw [move_leave_mismatched v hp]
      exact List.prefix_append _ _

/-- Errors are never taken back. -/
theorem errors_run : t.errors <+: (run v t w).errors := by
  induction w generalizing t with
  | nil => exact List.prefix_rfl
  | cons m w ih => exact (errors_move v t m).trans (ih (move v t m))

end Runs

section Verdicts

variable {w : List Move} {e : DispatchError}

theorem errors_of_firstMismatch (h : FirstMismatch w e) : ∃ es, (run v (start s) w).errors = e :: es := by
  obtain ⟨before, p, behind, stack, rfl, hopen, hp, rfl⟩ := h
  obtain ⟨hstack, herrors⟩ := run_leavesOpen v s hopen
  have hfirst : (move v (run v (start s) before) (.leave p)).errors = [imbalance p stack] := by
    rw [move_leave_mismatched v (hstack ▸ hp), herrors, hstack, List.nil_append]
  obtain ⟨es, hes⟩ := errors_run v (move v (run v (start s) before) (.leave p)) behind
  rw [run_append, run_cons, ← hes, hfirst]
  exact ⟨es, rfl⟩

/-- Without a mismatch, what a word leaves open is what is on the stack. -/
theorem leavesOpen_or_firstMismatch (w : List Move) :
    (run v (start s) w).errors = [] ∧ LeavesOpen (run v (start s) w).stack w ∨ ∃ e, FirstMismatch w e := by
  induction w using List.reverseRecOn with
  | nil => exact .inl ⟨rfl, .balanced .nil⟩
  | append_singleton w m ih =>
    obtain ⟨herrors, hopen⟩ | ⟨e, before, p, behind, stack, rfl, h⟩ := ih
    · cases m with
      | enter p =>
        rw [run_concat]
        exact .inl ⟨herrors, hopen.concat_enter⟩
      | leave p =>
        obtain ⟨top, rest, hstack, same⟩ | hp := mismatched_or p (run v (start s) w).stack
        · rw [run_concat, move_leave_matched v hstack same]
          exact .inl ⟨herrors, (hstack ▸ hopen).concat_leave same⟩
        · exact .inr ⟨_, w, p, [], _, rfl, hopen, hp, rfl⟩
    · exact .inr ⟨e, before, p, behind ++ [m], stack, by rw [List.append_assoc, List.cons_append], h⟩

/-- The verdict on a word that leaves places open. -/
theorem finish_of_leavesOpen {stack : List Place} (h : LeavesOpen stack w) : (run v (start s) w).finish =
    if stack = [] then .ok () else .error (.unclosed stack.length) := by
  obtain ⟨hstack, herrors⟩ := run_leavesOpen v s h
  rw [finish, herrors, hstack]
  cases stack <;> rfl

theorem finish_of_firstMismatch (h : FirstMismatch w e) : (run v (start s) w).finish = .error e := by
  obtain ⟨es, hes⟩ := errors_of_firstMismatch v s h
  rw [finish, hes]

theorem finish_eq_ok_iff : (run v (start s) w).finish = .ok () ↔ Balanced w := by
  constructor
  · intro h
    obtain ⟨-, hopen⟩ | ⟨e, he⟩ := leavesOpen_or_firstMismatch v s w
    · rw [finish_of_leavesOpen v s hopen] at h
      split at h
      · next hstack => exact LeavesOpen.nil_iff.mp (hstack ▸ hopen)
      · cases h
    · rw [finish_of_firstMismatch v s he] at h
      cases h
  · intro h
    exact finish_of_leavesOpen v s (.balanced h)

theorem finish_eq_error_iff : (run v (start s) w).finish = .error e ↔
    FirstMismatch w e ∨ ∃ stack, stack ≠ [] ∧ LeavesOpen stack w ∧ e = .unclosed stack.length := by
  constructor
  · intro h
    obtain ⟨-, hopen⟩ | ⟨d, hd⟩ := leavesOpen_or_firstMismatch v s w
    · rw [finish_of_leavesOpen v s hopen] at h
      split at h
      · cases h
      · next hstack =>
        cases h
        exact .inr ⟨_, hstack, hopen, rfl⟩
    · rw [finish_of_firstMismatch v s hd] at h
      cases h
      exact .inl hd
  · rintro (h | ⟨stack, hstack, hopen, rfl⟩)
    · exact finish_of_firstMismatch v s h
    · rw [finish_of_leavesOpen v s hopen, if_neg hstack]

end Verdicts

end Traversal

namespace Event

/-- The places of the callbacks of one kind. -/
def placesOf (k : Callback) (es : List Event) : List Place := (es.filter fun e => e.callback = k).map Event.place

@[simp] theorem placesOf_nil (k : Callback) : placesOf k [] = [] := rfl

@[simp] theorem placesOf_append (k : Callback) (es fs : List Event) :
    placesOf k (es ++ fs) = placesOf k es ++ placesOf k fs := by
  simp [placesOf]

@[simp] theorem placesOf_cons (k l : Callback) (p : Place) (ancestors : List Place) (es : List Event) :
    placesOf k (⟨l, p, ancestors⟩ :: es) = (if l = k then [p] else []) ++ placesOf k es := by
  unfold placesOf
  rw [List.filter_cons]
  split <;> simp_all

end Event

namespace Move

/-- What becomes of a word of calls. Those that are kept explain the open places; the visitor enters and leaves
what they name. Each of the others leaves a place and is an error. The last callback is there for all that leave
a place. -/
structure Account {σ : Type} (w kept : List Move) (t : Traversal (σ × List Event)) : Prop where
  sublist : kept.Sublist w
  opened : LeavesOpen t.stack kept
  entered : kept.filterMap entered? = w.filterMap entered?
  errors : t.errors.length + (kept.filterMap left?).length = (w.filterMap left?).length
  enter : Event.placesOf .enter t.state.2 = w.filterMap entered?
  leave : Event.placesOf .leave t.state.2 = kept.filterMap left?
  afterLeave : Event.placesOf .afterLeave t.state.2 = w.filterMap left?

end Move

namespace Traversal

open Move

variable {σ : Type} (v : Visitor σ) {w kept : List Move} {t : Traversal (σ × List Event)} {p : Place}

theorem account_enter (h : Account w kept t) :
    Account (w ++ [.enter p]) (kept ++ [.enter p]) (move v.traced t (.enter p)) where
  sublist := h.sublist.append (List.Sublist.refl _)
  opened := h.opened.concat_enter
  entered := by simp [h.entered]
  errors := by simpa [move, Traversal.enter, List.filterMap_cons] using h.errors
  enter := by simp [move, Traversal.enter, Visitor.traced, h.enter]
  leave := by simp [move, Traversal.enter, Visitor.traced, h.leave, List.filterMap_cons]
  afterLeave := by simp [move, Traversal.enter, Visitor.traced, h.afterLeave, List.filterMap_cons]

theorem account_matched {top : Place} {rest : List Place} (h : Account w kept t) (hstack : t.stack = top :: rest)
    (same : top.isSame p = true) :
    Account (w ++ [.leave p]) (kept ++ [.leave p]) (move v.traced t (.leave p)) := by
  have hlength := h.errors
  rw [move_leave_matched v.traced hstack same]
  exact {
    sublist := h.sublist.append (List.Sublist.refl _)
    opened := (hstack ▸ h.opened).concat_leave same
    entered := by simp [h.entered]
    errors := by simp; omega
    enter := by simp [Visitor.traced, h.enter, List.filterMap_cons]
    leave := by simp [Visitor.traced, h.leave]
    afterLeave := by simp [Visitor.traced, h.afterLeave] }

theorem account_mismatched (h : Account w kept t) (hp : Mismatched p t.stack) :
    Account (w ++ [.leave p]) kept (move v.traced t (.leave p)) := by
  have hlength := h.errors
  rw [move_leave_mismatched v.traced hp]
  exact {
    sublist := h.sublist.trans (List.sublist_append_left _ _)
    opened := h.opened
    entered := by simp [h.entered, List.filterMap_cons]
    errors := by simp; omega
    enter := by simp [Visitor.traced, h.enter, List.filterMap_cons]
    leave := by simp [Visitor.traced, h.leave]
    afterLeave := by simp [Visitor.traced, h.afterLeave] }

/-- Every word has an account. -/
theorem exists_account (w : List Move) (s : σ) : ∃ kept, Account w kept (run v.traced (start (s, [])) w) := by
  induction w using List.reverseRecOn with
  | nil => exact ⟨[], .refl _, .balanced .nil, rfl, rfl, rfl, rfl, rfl⟩
  | append_singleton w m ih =>
    obtain ⟨kept, h⟩ := ih
    rw [run_concat]
    cases m with
    | enter p => exact ⟨_, account_enter v h⟩
    | leave p =>
      obtain ⟨top, rest, hstack, same⟩ | hp := mismatched_or p (run v.traced (start (s, [])) w).stack
      · exact ⟨_, account_matched v h hstack same⟩
      · exact ⟨_, account_mismatched v h hp⟩

section Projections

variable {τ : Type} {f : σ → τ} {v : Visitor σ} {u : Visitor τ}

def mapState (f : σ → τ) (t : Traversal σ) : Traversal τ := ⟨t.stack, t.errors, f t.state⟩

theorem mapState_move (h : v.Projects f u) (t : Traversal σ) (m : Move) :
    (t.move v m).mapState f = (t.mapState f).move u m := by
  cases m with
  | enter p => simp [Traversal.move, enter, mapState, h.enter]
  | leave p =>
    obtain ⟨top, rest, hstack, same⟩ | hp := mismatched_or p t.stack
    · rw [move_leave_matched v hstack same, move_leave_matched (t := t.mapState f) u hstack same]
      simp [mapState, h.leave, h.afterLeave]
    · rw [move_leave_mismatched v hp, move_leave_mismatched (t := t.mapState f) u hp]
      simp [mapState, h.afterLeave]

/-- A visitor with more state goes the same way as one with less. -/
theorem mapState_run (h : v.Projects f u) (t : Traversal σ) (w : List Move) :
    (t.run v w).mapState f = (t.mapState f).run u w := by
  induction w generalizing t with
  | nil => rfl
  | cons m w ih => rw [run_cons, run_cons, ih, mapState_move h]

end Projections

/-- The verdict on calls in any order. It is good exactly if they are well bracketed; else it is the error of the
first mismatch, or without one the number of places left open. A call that does not match changes neither the
stack nor what the visitor has left; the others do, whatever errors there were before. -/
theorem verdict_of_calls (s : σ) (w : List Move) :
    ((run v (start s) w).finish = .ok () ↔ Balanced w) ∧
    (∀ e, (run v (start s) w).finish = .error e ↔
      FirstMismatch w e ∨ ∃ stack, stack ≠ [] ∧ LeavesOpen stack w ∧ e = .unclosed stack.length) ∧
    (∀ (t : Traversal σ) p, Mismatched p t.stack → t.leave v p =
      ⟨t.stack, t.errors ++ [imbalance p t.stack], v.afterLeave p t.stack t.state⟩) ∧
    (run v.traced (start (s, [])) w).mapState Prod.fst = run v (start s) w ∧
    ∃ kept, Account w kept (run v.traced (start (s, [])) w) :=
  ⟨finish_eq_ok_iff v s, fun _ => finish_eq_error_iff v s, fun _ _ hp => move_leave_mismatched v hp,
    mapState_run v.projects_traced _ w, exists_account v w s⟩

/-- Two places are left in the wrong order, and then in the right one. -/
theorem verdict_of_calls_recovered :
    let outer : Place := ⟨[], .leaf .list⟩
    let inner : Place := ⟨[0], .leaf .asterisk⟩
    (run (.idle Unit) (start ()) [.enter outer, .enter inner, .leave outer, .leave inner, .leave outer]).finish =
      .error (.imbalance "Asterisk" "List") := by
  intro outer inner
  have hopen : LeavesOpen [inner, outer] [.enter outer, .enter inner] :=
    (LeavesOpen.balanced .nil).concat_enter.concat_enter
  have hmismatch : Mismatched outer [inner, outer] := by
    rintro top ⟨⟩
    rfl
  exact ((verdict_of_calls (.idle Unit) () _).2.1 _).mpr
    (.inl ⟨_, outer, [.leave inner, .leave outer], _, rfl, hopen, hmismatch, rfl⟩)

end Traversal
end GraphQuery
