import GraphQuery.Proofs.Text.Ends
import GraphQuery.Proofs.Traversal.Walk
import GraphQuery.Render.Printer
import GraphQuery.Render.Writer

/-! The writer as a printer. What the writer adds to its text while it walks through a tree is the
text that a printer gives, and of its state only the part that a printer hands on matters. -/
namespace GraphQuery

namespace Printing

variable {α β : Type} (s : Printed)

theorem run_pure (a : α) : (pure a : StateM Printed α).run s = (a, s) := rfl

theorem run_bind (m : StateM Printed α) (f : α → StateM Printed β) :
    (m >>= f).run s = (f (m.run s).1).run (m.run s).2 := rfl

theorem run_map (f : α → β) (m : StateM Printed α) :
    (f <$> m).run s = (f (m.run s).1, (m.run s).2) := rfl

theorem run_aliased (e : Expression) (name : Identifier) (body : Printing) :
    (aliased e name body).run s =
      if isAliasPrinted s e name then (name.text, s)
      else
        let r := body.run { s with aliases := s.aliases ++ [(e, name)] }
        (r.1 ++ " AS " ++ name.text, r.2) := by
  unfold aliased
  change (if isAliasPrinted s e name then _ else _ : Printing).run s = _
  split <;> rfl

theorem run_node_none (body : Printing) :
    (node none body).run s = ("(" ++ (body.run s).1 ++ ")", (body.run s).2) := rfl

theorem run_node_some (n : Identifier) (body : Printing) :
    (node (some n) body).run s =
      if n ∈ s.nodes then ("(" ++ n.text ++ ")", s)
      else
        let r := body.run { s with nodes := n :: s.nodes }
        ("(" ++ n.text ++ r.1 ++ ")", r.2) := by
  unfold node
  change (if n ∈ s.nodes then _ else _ : Printing).run s = _
  split <;> rfl

/-- What all printers of a list keep, the list keeps, and what they say of their texts holds of all. -/
theorem forall_mapM {γ : Type} {f : γ → Printing} {I : Printed → Prop} {Q : String → Prop} {xs : List γ}
    (h : ∀ x ∈ xs, ∀ s, I s → Q ((f x).run s).1 ∧ I ((f x).run s).2) (hs : I s) :
    (∀ t ∈ ((xs.mapM f).run s).1, Q t) ∧ I ((xs.mapM f).run s).2 := by
  induction xs generalizing s with
  | nil => exact ⟨fun t ht => absurd ht List.not_mem_nil, hs⟩
  | cons x xs ih =>
    obtain ⟨hq, hi⟩ := h x List.mem_cons_self s hs
    obtain ⟨hqs, his⟩ := ih ((f x).run s).2 (fun y hy => h y (List.mem_cons_of_mem x hy)) hi
    rw [List.mapM_cons]
    simp only [run_bind, run_pure, List.forall_mem_cons]
    exact ⟨⟨hq, hqs⟩, his⟩

theorem length_mapM {γ : Type} (f : γ → Printing) (xs : List γ) :
    ((xs.mapM f).run s).1.length = xs.length := by
  induction xs generalizing s with
  | nil => rfl
  | cons x xs ih =>
    rw [List.mapM_cons]
    simp only [run_bind, run_pure, List.length_cons, ih]

theorem mapM_ne_nil {γ : Type} (f : γ → Printing) {xs : List γ} (h : xs ≠ []) :
    ((xs.mapM f).run s).1 ≠ [] := fun he =>
  h (List.length_eq_zero_iff.mp ((length_mapM s f xs).symm.trans (congrArg List.length he)))

/-- The members of a list behind `count` members before them. -/
def listed (count : Nat) : List String → String
  | [] => ""
  | x :: xs => (if 0 < count then ", " else "") ++ x ++ listed (count + 1) xs

theorem listed_succ (count : Nat) (xs : List String) :
    listed (count + 1) xs = String.join (xs.map fun x => ", " ++ x) := by
  induction xs generalizing count with
  | nil => rfl
  | cons x xs ih => simp [listed, ih]

/-- A list from its beginning is joined by commas. -/
theorem listed_zero (xs : List String) : listed 0 xs = ", ".intercalate xs := by
  cases xs with
  | nil => simp [listed]
  | cons x xs =>
    simp only [listed, listed_succ, Text.intercalate_cons, Nat.lt_irrefl, if_false, String.empty_append]

end Printing

/-- The operator of a comparison. -/
def Construct.comparator? : Construct → Option Comparator
  | .comparison op => some op
  | _ => none

/-- The constructs of which the writer keeps more than a count of their children. -/
def Construct.isNoted : Construct → Bool
  | .node _ | .parameter _ | .aliased .. => true
  | _ => false

namespace Render.Writer

open Printing (run_pure run_bind)

/-- The part of the state that a printer hands on. -/
def printed (w : Writer) : Printed := ⟨w.nodes, w.aliases, w.table⟩

/-- From the first writer to the second the text grows by what the printer gives. -/
structure Prints (m : Printing) (w w' : Writer) : Prop where
  text : w'.text = w.text ++ (m.run w.printed).1
  printed : w'.printed = (m.run w.printed).2
  counters : w'.counters = w.counters
  skipping : w'.skipping = false

section Writes

variable (w : Writer) (t : String)

@[simp] theorem text_write : (w.write t).text = w.text ++ t := rfl
@[simp] theorem printed_write : (w.write t).printed = w.printed := rfl

end Writes

/-- The comparison that is the innermost open construct. -/
def enclosing? (ancestors : List Place) : Option Comparator :=
  ancestors.head?.bind fun parent => parent.tree.construct.comparator?

section Places

variable (path : List Nat) (c : Construct) (ts : List SyntaxTree) (ancestors : List Place)

theorem needsParentheses_eq (op : Comparator) :
    needsParentheses op ancestors =
      (enclosing? ancestors).any fun outer => op.precedence ≤ outer.precedence := by
  cases ancestors with
  | nil => rfl
  | cons parent rest =>
    obtain ⟨path, c, ts⟩ := parent
    cases c <;> rfl

end Places

section Separators

variable (w : Writer) {ancestors : List Place}

theorem separate_of_not_isSeparated (h : isSeparated ancestors = false) : w.separate ancestors = w := by
  simp [separate, h]

theorem separate_of_isSeparated (h : isSeparated ancestors = true) {n : Nat} {rest : List Nat}
    (hw : w.counters = n :: rest) :
    w.separate ancestors = { w.write (if 0 < n then ", " else "") with counters := (n + 1) :: rest } := by
  simp [separate, h, hw]

@[simp] theorem printed_separate : (w.separate ancestors).printed = w.printed := by
  unfold separate
  split
  · split <;> rfl
  · rfl

@[simp] theorem skipping_separate : (w.separate ancestors).skipping = w.skipping := by
  unfold separate
  split
  · split <;> rfl
  · rfl

end Separators

namespace Prints

variable {m n : Printing} {w w₁ w₂ : Writer}

theorem ofText (hw : w.skipping = false) (t : String) : Prints (pure t) w (w.write t) :=
  ⟨rfl, rfl, rfl, hw⟩

theorem append (hm : Prints m w w₁) (hn : Prints n w₁ w₂) :
    Prints (do return (← m) ++ (← n)) w w₂ := by
  refine ⟨?_, ?_, hn.counters.trans hm.counters, hn.skipping⟩
  · simp only [run_bind, run_pure, hn.text, hm.text, hm.printed, String.append_assoc]
  · simp only [run_bind, run_pure, hn.printed, hm.printed]

theorem before {t : String} (h : Prints m (w.write t) w₁) : Prints (do return t ++ (← m)) w w₁ := by
  refine ⟨?_, ?_, h.counters, h.skipping⟩
  · simp only [run_bind, run_pure, h.text, text_write, printed_write, String.append_assoc]
  · simp only [run_bind, run_pure, h.printed, printed_write]

theorem behind (h : Prints m w w₁) (t : String) : Prints (do return (← m) ++ t) w (w₁.write t) := by
  refine ⟨?_, ?_, h.counters, h.skipping⟩
  · simp only [run_bind, run_pure, h.text, text_write, String.append_assoc]
  · simp only [run_bind, run_pure, h.printed, printed_write]

/-- Two printers with the same result print the same. -/
theorem congr (h : Prints m w w₁) (he : n.run w.printed = m.run w.printed) : Prints n w w₁ :=
  ⟨by rw [he, h.text], by rw [he, h.printed], h.counters, h.skipping⟩

/-- A printer that notes something first, which does not show in the text. -/
theorem after {v : Writer} (h : Prints m v w₁) (he : n.run w.printed = m.run v.printed)
    (ht : v.text = w.text) (hc : v.counters = w.counters) : Prints n w w₁ :=
  ⟨by rw [he, h.text, ht], by rw [he, h.printed], h.counters.trans hc, h.skipping⟩

end Prints

/-- The members of a list that has `n` members already, while its counter is the innermost. -/
structure PrintsAll (m : StateM Printed (List String)) (n : Nat) (rest : List Nat) (w w' : Writer) :
    Prop where
  text : w'.text = w.text ++ Printing.listed n (m.run w.printed).1
  printed : w'.printed = (m.run w.printed).2
  counters : w'.counters.tail = rest
  skipping : w'.skipping = false

namespace PrintsAll

variable {m : Printing} {ms : StateM Printed (List String)} {n : Nat} {rest : List Nat}
  {w w₁ w₂ : Writer}

theorem nil (hw : w.skipping = false) (hc : w.counters = n :: rest) : PrintsAll (pure []) n rest w w :=
  ⟨String.append_empty.symm, rfl, by rw [hc, List.tail_cons], hw⟩

theorem cons
    (hm : Prints m { w.write (if 0 < n then ", " else "") with counters := (n + 1) :: rest } w₁)
    (hms : PrintsAll ms (n + 1) rest w₁ w₂) :
    PrintsAll (do return (← m) :: (← ms)) n rest w w₂ := by
  have ht : w₁.text = w.text ++ (if 0 < n then ", " else "") ++ (m.run w.printed).1 := hm.text
  have hs : w₁.printed = (m.run w.printed).2 := hm.printed
  refine ⟨?_, ?_, hms.counters, hms.skipping⟩
  · simp only [run_bind, run_pure, hms.text, ht, hs, Printing.listed, String.append_assoc]
  · simp only [run_bind, run_pure, hms.printed, hs]

/-- The whole list between its opening and its closing text. -/
theorem enclosed {o c : String}
    (h : PrintsAll ms 0 w.counters { w.write o with counters := 0 :: w.counters } w₁) :
    Prints (do return o ++ ", ".intercalate (← ms) ++ c) w
      { w₁.write c with counters := w₁.counters.tail } := by
  have ht : w₁.text = w.text ++ o ++ ", ".intercalate (ms.run w.printed).1 := by
    rw [← Printing.listed_zero]
    exact h.text
  refine ⟨?_, h.printed, h.counters, h.skipping⟩
  change w₁.text ++ c = w.text ++ (o ++ ", ".intercalate (ms.run w.printed).1 ++ c)
  rw [ht, String.append_assoc, String.append_assoc, String.append_assoc]

end PrintsAll

section Walks

variable {path : List Nat} {c : Construct} {ts : List SyntaxTree} {ancestors : List Place} {w : Writer}

theorem accept_eq (hw : w.skipping = false) (p : Place) (ancestors : List Place) :
    accept p ancestors w =
      match p.tree.construct with
      | .aliased e name =>
        if (w.separate ancestors).isAliasWritten e name then (false, (w.separate ancestors).write name.text)
        else (true, w.separate ancestors)
      | _ => (true, w.separate ancestors) := by
  unfold accept
  rw [hw]
  rfl

theorem note_eq (hn : c.isNoted = false) (w : Writer) :
    w.note c = if c.isSeparated then { w with counters := 0 :: w.counters } else w := by
  cases c <;> first | rfl | exact absurd hn Bool.noConfusion

theorem settle_eq (hn : c.isNoted = false) (w : Writer) :
    w.settle c = if c.isSeparated then { w with counters := w.counters.tail } else w := by
  cases c <;> first | rfl | exact absurd hn Bool.noConfusion

/-- While nothing is skipped, every construct but an aliased expression is entered. -/
theorem walk_branch (hw : w.skipping = false) (hc : ∀ e name, c ≠ .aliased e name) :
    visitor.walk path (.branch c ts) ancestors w =
      leave ⟨path, .branch c ts⟩ ancestors (visitor.walkAll path 0 ts (⟨path, .branch c ts⟩ :: ancestors)
        (enter ⟨path, .branch c ts⟩ ancestors (w.separate ancestors))) := by
  refine visitor.walk_of_accepted path ancestors w ?_
  change accept _ ancestors w = _
  rw [accept_eq hw]
  change (match c with | .aliased e name => _ | _ => _) = _
  split
  · next e name => exact absurd rfl (hc e name)
  · rfl

/-- While something is skipped, every tree is refused. -/
theorem walk_of_skipping (hw : w.skipping = true) (t : SyntaxTree) : visitor.walk path t ancestors w = w := by
  obtain ⟨c, ts⟩ := t
  refine visitor.walk_of_refused path ancestors w ?_
  change accept _ ancestors w = _
  simp [accept, hw]

theorem walkAll_of_skipping (hw : w.skipping = true) (index : Nat) :
    visitor.walkAll path index ts ancestors w = w := by
  induction ts generalizing index with
  | nil => rfl
  | cons t ts ih => rw [Visitor.walkAll_cons, walk_of_skipping hw, ih]

end Walks

@[simp] theorem write_empty (w : Writer) : w.write "" = w := by simp [write]

/-- A tree that stands directly in a comparison, or in none, is written as a printer prints it. -/
def Writes (outer : Option Comparator) (t : SyntaxTree) (m : Printing) : Prop :=
  ∀ path ancestors w, enclosing? ancestors = outer → w.skipping = false →
    Prints m (w.separate ancestors) (visitor.walk path t ancestors w)

/-- Trees in a row, with no commas between them. -/
def WritesRow (outer : Option Comparator) (ts : List SyntaxTree) (m : Printing) : Prop :=
  ∀ path index ancestors w, isSeparated ancestors = false → enclosing? ancestors = outer →
    w.skipping = false → Prints m w (visitor.walkAll path index ts ancestors w)

/-- Trees with commas between them. -/
def WritesAll (ts : List SyntaxTree) (ms : StateM Printed (List String)) : Prop :=
  ∀ path index ancestors w n rest, isSeparated ancestors = true → enclosing? ancestors = none →
    w.skipping = false → w.counters = n :: rest →
    PrintsAll ms n rest w (visitor.walkAll path index ts ancestors w)

namespace WritesRow

variable {outer : Option Comparator} {t : SyntaxTree} {ts us : List SyntaxTree} {m n : Printing}

theorem nil : WritesRow outer [] (pure "") := by
  intro path index ancestors w _ _ hw
  simpa using Prints.ofText hw ""

theorem cons (ht : Writes outer t m) (hts : WritesRow outer ts n) :
    WritesRow outer (t :: ts) (do return (← m) ++ (← n)) := by
  intro path index ancestors w hsep henc hw
  have h := ht (index :: path) ancestors w henc hw
  rw [separate_of_not_isSeparated w hsep] at h
  exact h.append (hts path (index + 1) ancestors _ hsep henc h.skipping)

theorem append (hts : WritesRow outer ts m) (hus : WritesRow outer us n) :
    WritesRow outer (ts ++ us) (do return (← m) ++ (← n)) := by
  intro path index ancestors w hsep henc hw
  have h := hts path index ancestors w hsep henc hw
  rw [Visitor.walkAll_append]
  exact h.append (hus path _ ancestors _ hsep henc h.skipping)

theorem congr (h : WritesRow outer ts m) (he : ∀ s, n.run s = m.run s) : WritesRow outer ts n :=
  fun path index ancestors w hsep henc hw => (h path index ancestors w hsep henc hw).congr (he _)

theorem single (h : Writes outer t m) : WritesRow outer [t] m := by
  refine (cons h nil).congr fun s => ?_
  simp only [run_bind, run_pure, String.append_empty]
  rfl

/-- What may be missing is written as its text or not at all. -/
theorem optional {α : Type} {f : α → SyntaxTree} {g : α → String} (a : Option α)
    (h : ∀ a, Writes outer (f a) (pure (g a))) :
    WritesRow outer (a.toList.map f) (pure ((a.map g).getD "")) := by
  cases a with
  | none => exact nil
  | some a => exact single (h a)

/-- Rows one behind the other. -/
theorem flatMap {α : Type} {f : α → List SyntaxTree} {g : α → Printing} (as : List α)
    (h : ∀ a, WritesRow outer (f a) (g a)) :
    WritesRow outer (as.flatMap f) (do return String.join (← as.mapM g)) := by
  induction as with
  | nil => exact nil
  | cons a as ih =>
    refine (append (h a) ih).congr fun s => ?_
    simp only [List.mapM_cons, run_bind, run_pure, String.join_cons]

end WritesRow

namespace WritesAll

variable {t : SyntaxTree} {ts : List SyntaxTree} {m : Printing} {ms : StateM Printed (List String)}

theorem nil : WritesAll [] (pure []) := fun _ _ _ _ _ _ _ _ hw hc => PrintsAll.nil hw hc

theorem cons (ht : Writes none t m) (hts : WritesAll ts ms) :
    WritesAll (t :: ts) (do return (← m) :: (← ms)) := by
  intro path index ancestors w n rest hsep henc hw hc
  have h := ht (index :: path) ancestors w henc hw
  rw [separate_of_isSeparated w hsep hc] at h
  exact .cons h (hts path (index + 1) ancestors _ (n + 1) rest hsep henc h.skipping h.counters)

theorem map {α : Type} {f : α → SyntaxTree} {g : α → Printing} (as : List α)
    (h : ∀ a, Writes none (f a) (g a)) : WritesAll (as.map f) (as.mapM g) := by
  induction as with
  | nil => exact nil
  | cons a as ih =>
    rw [List.map_cons, List.mapM_cons]
    exact cons (h a) ih

end WritesAll

namespace Writes

variable {outer : Option Comparator} {c : Construct} {t : SyntaxTree} {ts : List SyntaxTree}
  {m n : Printing} {ms : StateM Printed (List String)}

theorem congr (h : Writes outer t m) (he : ∀ s, n.run s = m.run s) : Writes outer t n :=
  fun path ancestors w henc hw => (h path ancestors w henc hw).congr (he _)

theorem ne_aliased (hn : c.isNoted = false) : ∀ e name, c ≠ .aliased e name := by
  rintro e name rfl
  exact absurd hn (by simp [Construct.isNoted])

/-- A construct with a text before its children and a text behind them. -/
theorem branch (before behind : String) (h : WritesRow c.comparator? ts m) (hs : c.isSeparated = false)
    (hn : c.isNoted = false)
    (hb : ∀ ancestors w, enclosing? ancestors = outer → openingText c ancestors w = before)
    (he : ∀ ancestors, enclosing? ancestors = outer → closingText c ancestors = behind) :
    Writes outer (.branch c ts) (do return before ++ (← m) ++ behind) := by
  intro path ancestors w henc hw
  have hsep : (w.separate ancestors).skipping = false := (skipping_separate w).trans hw
  have hrow := h path 0 (⟨path, .branch c ts⟩ :: ancestors) ((w.separate ancestors).write before) hs rfl hsep
  have henter : enter ⟨path, .branch c ts⟩ ancestors (w.separate ancestors) =
      (w.separate ancestors).write before := by
    simp only [enter, SyntaxTree.construct, hb ancestors _ henc, note_eq hn, hs, Bool.false_eq_true, if_false]
  have hleave : ∀ v, leave ⟨path, .branch c ts⟩ ancestors v = v.write behind := fun v => by
    simp only [leave, SyntaxTree.construct, he ancestors henc, settle_eq hn, hs, Bool.false_eq_true, if_false]
  rw [walk_branch hw (ne_aliased hn), henter, hleave]
  exact hrow.before.behind behind

/-- A construct whose children are separated by commas. -/
theorem list (before behind : String) (h : WritesAll ts ms) (hs : c.isSeparated = true)
    (hc : c.comparator? = none) (hn : c.isNoted = false)
    (hb : ∀ ancestors w, openingText c ancestors w = before)
    (he : ∀ ancestors, closingText c ancestors = behind) :
    Writes outer (.branch c ts) (do return before ++ ", ".intercalate (← ms) ++ behind) := by
  intro path ancestors w _ hw
  rw [walk_branch hw (ne_aliased hn)]
  simp only [enter, leave, SyntaxTree.construct, note_eq hn, settle_eq hn, hs, if_true, hb, he]
  refine PrintsAll.enclosed (h path 0 (⟨path, .branch c ts⟩ :: ancestors) _ 0 _ hs hc ?_ rfl)
  exact (skipping_separate w).trans hw

/-- A construct without children. -/
theorem leaf (t : String) (hs : c.isSeparated = false) (hn : c.isNoted = false)
    (hb : ∀ ancestors w, openingText c ancestors w = t) (he : ∀ ancestors, closingText c ancestors = "") :
    Writes outer (.leaf c) (pure t) := by
  refine (branch t "" .nil hs hn (fun a w _ => hb a w) fun a _ => he a).congr fun s => ?_
  simp only [run_bind, run_pure, String.append_empty]

end Writes

end Render.Writer
end GraphQuery
