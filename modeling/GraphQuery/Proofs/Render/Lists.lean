import GraphQuery.Proofs.Render.Chunks
import GraphQuery.Proofs.Traversal.Observation

/-! The two ways to write a list. A list may be given as one literal or as an expression with its members
below it, and so may every list among its members. The writer makes the same text of all of them. -/
namespace GraphQuery

/-- A value that is written out: a literal, which may be a list, or a list with members of its own. -/
inductive Constant where
  | literal (value : Literal)
  | list (members : List Constant)

namespace Constant

mutual

/-- Every list that has members of its own as a list expression. -/
def expression : Constant → Expression
  | .literal l => .literal l
  | .list cs => .list (expressions cs)
termination_by structural c => c

def expressions : List Constant → List Expression
  | [] => []
  | c :: cs => c.expression :: expressions cs
termination_by structural cs => cs

end

mutual

/-- The whole as one literal. -/
def value : Constant → Literal
  | .literal l => l
  | .list cs => .list (values cs)
termination_by structural c => c

def values : List Constant → List Literal
  | [] => []
  | c :: cs => c.value :: values cs
termination_by structural cs => cs

end

end Constant

namespace Render.Writer

/-- Write the members of a list behind `n` members before them. -/
def writeListed (w : Writer) (n : Nat) (rest : List Nat) (ts : List String) : Writer :=
  { w.write (Printing.listed n ts) with counters := (n + ts.length) :: rest }

section Constants

variable {ancestors : List Place} {w : Writer} {n : Nat} {rest : List Nat}

theorem writeListed_nil (hc : w.counters = n :: rest) : w.writeListed n rest [] = w := by
  obtain ⟨text, table, nodes, aliases, skipping, counters, records⟩ := w
  obtain rfl : counters = n :: rest := hc
  simp [writeListed, Printing.listed, write]

/-- The first member with its separator, and the others behind it. -/
theorem writeListed_cons (hsep : isSeparated ancestors = true) (hc : w.counters = n :: rest) (t : String)
    (ts : List String) :
    ((w.separate ancestors).write t).writeListed (n + 1) rest ts = w.writeListed n rest (t :: ts) := by
  rw [separate_of_isSeparated w hsep hc]
  simp only [writeListed, Printing.listed, write, String.append_assoc, List.length_cons, Nat.add_assoc,
    Nat.add_comm 1]

/-- A list between its brackets, with a counter of its own as long as it is open. -/
theorem writeListed_enclosed (w : Writer) (ls : List Literal) :
    { (writeListed { w.write "[" with counters := 0 :: w.counters } 0 w.counters (Literal.texts ls)).write "]" with
      counters := w.counters } = w.write (Literal.list ls).text := by
  simp only [writeListed, Printing.listed_zero, write, Literal.text, String.append_assoc]

/-- A literal is written behind its separator, if it has one. -/
theorem walk_literal (l : Literal) (path : List Nat) (hw : w.skipping = false) :
    visitor.walk path (SyntaxTree.leaf (.literal l)) ancestors w = (w.separate ancestors).write l.text := by
  rw [SyntaxTree.leaf, walk_branch hw (by simp)]
  exact write_empty _

mutual

/-- However its lists are given, a constant is written as its literal is. -/
theorem walk_constant (c : Constant) (path : List Nat) (ancestors : List Place) (w : Writer)
    (hw : w.skipping = false) :
    visitor.walk path c.expression.tree ancestors w = (w.separate ancestors).write c.value.text := by
  match c with
  | .literal l => exact walk_literal l path hw
  | .list cs =>
    let v := w.separate ancestors
    have hmembers := walkAll_constants cs path 0
      (⟨path, .branch .list (expressionTrees (Constant.expressions cs))⟩ :: ancestors)
      { v.write "[" with counters := 0 :: v.counters } 0 v.counters rfl ((skipping_separate w).trans hw) rfl
    rw [Constant.expression, Expression.tree, walk_branch hw (by simp)]
    change leave _ _ (visitor.walkAll _ _ _ _ { v.write "[" with counters := 0 :: v.counters }) = _
    rw [hmembers, Constant.value, ← writeListed_enclosed]
    rfl
termination_by structural c

/-- The members of a list, of which `n` stand in front of these. -/
theorem walkAll_constants (cs : List Constant) (path : List Nat) (index : Nat) (ancestors : List Place)
    (w : Writer) (n : Nat) (rest : List Nat) (hsep : isSeparated ancestors = true) (hw : w.skipping = false)
    (hc : w.counters = n :: rest) :
    visitor.walkAll path index (expressionTrees (Constant.expressions cs)) ancestors w =
      w.writeListed n rest (Literal.texts (Constant.values cs)) := by
  match cs with
  | [] => exact (writeListed_nil hc).symm
  | c :: cs =>
    let v := (w.separate ancestors).write c.value.text
    have hcounters : v.counters = (n + 1) :: rest := by
      change (w.separate ancestors).counters = _
      rw [separate_of_isSeparated w hsep hc]
    have hskipping : v.skipping = false := (skipping_separate w).trans hw
    have hmembers := walkAll_constants cs path (index + 1) ancestors v (n + 1) rest hsep hskipping hcounters
    rw [Constant.expressions, expressionTrees, Visitor.walkAll_cons, walk_constant c (index :: path) ancestors w hw,
      hmembers, writeListed_cons hsep hc, Constant.values, Literal.texts]
termination_by structural cs

end

theorem walk_expression (c : Constant) (path : List Nat) :
    visitor.walk path c.expression.tree ancestors w =
      if w.skipping then w else (w.separate ancestors).write c.value.text := by
  split
  · next hw => exact walk_of_skipping hw _
  · next hw => exact walk_constant c path ancestors w (Bool.eq_false_of_not_eq_true hw)

/-- A list is entered behind its separator, if it is not skipped. -/
theorem accept_list {p : Place} {cs : List Constant} (hp : p.tree = (Constant.list cs).expression.tree)
    (h : (accept p ancestors w).1 = true) : w.skipping = false ∧ (accept p ancestors w).2 = w.separate ancestors := by
  cases hw : w.skipping with
  | true => simp [accept, hw] at h
  | false =>
    have hc : p.tree.construct = .list := by
      rw [hp, Constant.expression, Expression.tree]
      rfl
    rw [accept_eq hw, hc]
    exact ⟨rfl, rfl⟩

/-- Between entering a list and leaving it, its text is written. -/
theorem written_of_completed {p : Place} {cs : List Constant} {os : List (Observation Writer)}
    (hp : p.tree = (Constant.list cs).expression.tree) (h : visitor.Completed os p ancestors w)
    (haccept : (accept p ancestors w).1 = true) : ⟨⟨.enter, p, ancestors⟩, w.separate ancestors⟩ ∈ os ∧
      ⟨⟨.afterLeave, p, ancestors⟩, (w.separate ancestors).write (Constant.list cs).value.text⟩ ∈ os := by
  obtain ⟨hskipping, hseparate⟩ := accept_list hp haccept
  obtain ⟨w', hleave, hwalk⟩ := h.left
  have hwritten : w' = (w.separate ancestors).write (Constant.list cs).value.text := by
    rw [← walk_constant _ p.path ancestors w hskipping, ← hp]
    exact hwalk
  exact ⟨hseparate ▸ h.entered, hwritten ▸ hleave⟩

/-- Only what is below a node that was written before is refused, and an aliased expression that was. -/
theorem refused_cases {p : Place} (h : (accept p ancestors w).1 = false) : w.skipping = true ∨
    ∃ e name, p.tree.construct = .aliased e name ∧ (w.separate ancestors).isAliasWritten e name = true := by
  cases hw : w.skipping with
  | true => exact .inl rfl
  | false =>
    rw [accept_eq hw] at h
    split at h
    · next e name hc =>
      split at h
      · next halias => exact .inr ⟨e, name, hc, halias⟩
      · exact absurd h (by simp)
    · exact absurd h (by simp)

end Constants

/-- Text is only added. -/
theorem advances : visitor.Advances fun w w' => ∃ t, w'.text = w.text ++ t where
  refl _ := ⟨"", String.append_empty.symm⟩
  trans := by
    rintro w w' w'' ⟨t, ht⟩ ⟨t', ht'⟩
    exact ⟨t ++ t', by rw [ht', ht, String.append_assoc]⟩
  accept p ancestors w := (text_accept w p ancestors).imp fun _ => And.left
  enter p ancestors w := ⟨_, text_enter w p ancestors⟩
  leave p ancestors w := ⟨_, text_leave w p ancestors⟩
  afterLeave _ _ _ := ⟨"", String.append_empty.symm⟩

end Render.Writer

namespace Statement

open Render.Writer

/-- The state in which the rendering of a statement ends, and what its calls have found. -/
def observed (s : Statement) (stem : String) : Render.Writer × List (Observation Render.Writer) :=
  (Traversal.ofTree visitor.observed s.tree (s.initial stem, [])).state

/-- All places of a statement are asked for from its root on, and what is accepted is completed. -/
theorem observed_spec (s : Statement) (stem : String) :
    (s.observed stem).1 = visitor.walk [] s.tree [] (s.initial stem) ∧
      visitor.Completes (s.observed stem).2 ∧ Observation.Asked (s.observed stem).2 ⟨[], s.tree⟩ [] := by
  obtain ⟨found, hfound, hasked, hwalk⟩ := visitor.walk_observed [] s.tree [] (s.initial stem) []
  have hobserved : s.observed stem = (visitor.walk [] s.tree [] (s.initial stem), found) := by
    rw [observed, Traversal.ofTree_eq_walk]
    exact hwalk
  rw [hobserved]
  exact ⟨rfl, hfound, hasked⟩

/-- What was written when a call was made is a beginning of the whole. -/
theorem text_observed (s : Statement) (stem : String) :
    ∀ o ∈ (s.observed stem).2, ∃ t, (s.observed stem).1.text = o.state.text ++ t := by
  rw [observed, Traversal.ofTree_eq_walk]
  exact advances.preserves.walk [] s.tree [] _ (fun _ _ => trivial) fun _ ho => absurd ho List.not_mem_nil

/-- A text with tight ends that a call found written last stands in the rendered text where it was written. -/
theorem exists_behind {s : Statement} {settings : RenderSettings} {o : Observation Render.Writer}
    (ho : o ∈ (s.observed settings.stem).2) {before t : String} (hwritten : o.state.text = before ++ t)
    (ht : Text.BeginsTight t) (ht' : Text.EndsTight t) : ∃ behind, (s.render settings).value.text =
      String.ofList (Text.dropBlank before.toList) ++ t ++ behind := by
  obtain ⟨u, hu⟩ := s.text_observed settings.stem o ho
  rw [text_render, ← (s.observed_spec settings.stem).1, hu, hwritten]
  exact ⟨_, Text.trimmed_around ht ht' before u⟩

end Statement

open Render.Writer in
/-- A list is written as the list literal of the same values, however it and the lists in it are given. In
every state its expression has at every place the effect of the literal. At whatever place of a statement it
stands, the text of the literal is what comes between entering the expression and leaving it, and it stands in
the rendered text behind what was written before; unless the place is below a node or an aliased expression
that was written before, of which the writer repeats only the name. -/
theorem list_written_as_literal (members : List Constant) :
    let e := (Constant.list members).expression
    let l := (Constant.list members).value
    (∀ path ancestors w,
      visitor.walk path e.tree ancestors w = visitor.walk path (Expression.literal l).tree ancestors w) ∧
    ∀ (s : Statement) (settings : RenderSettings) (p : Place) (ancestors : List Place),
      s.tree.Lineage p ancestors → p.tree = e.tree →
      let found := (s.observed settings.stem).2
      (∃ w behind, ⟨⟨.enter, p, ancestors⟩, w⟩ ∈ found ∧
        ⟨⟨.afterLeave, p, ancestors⟩, w.write l.text⟩ ∈ found ∧
        (s.render settings).value.text = String.ofList (Text.dropBlank w.text.toList) ++ l.text ++ behind) ∨
      ∃ q ∈ p :: ancestors, ∃ others w, ⟨⟨.accept false, q, others⟩, w⟩ ∈ found ∧
        (w.skipping = true ∨ ∃ written name, q.tree.construct = .aliased written name ∧
          (w.separate others).isAliasWritten written name = true) := by
  refine ⟨fun path ancestors w => ?_, fun s settings p ancestors hlineage hp => ?_⟩
  · rw [walk_expression]
    exact (walk_expression (.literal (Constant.list members).value) path).symm
  obtain ⟨-, hcompletes, hasked⟩ := s.observed_spec settings.stem
  obtain ⟨w, haccepted⟩ | ⟨q, hq, others, w, hrefused⟩ := hcompletes.accepted_or_refused hasked hlineage
  · obtain ⟨haccept, hcompleted⟩ := hcompletes _ _ _ _ haccepted
    obtain ⟨henter, hleave⟩ := written_of_completed hp (hcompleted rfl) haccept
    obtain ⟨behind, htext⟩ := Statement.exists_behind hleave rfl (Text.beginsTight_list _) (Text.endsTight_literal _)
    exact .inl ⟨_, behind, henter, hleave, htext⟩
  · obtain ⟨haccept, -⟩ := hcompletes _ _ _ _ hrefused
    exact .inr ⟨q, hq, others, w, hrefused, refused_cases haccept⟩

/-- A list with lists of both kinds in it, where it is unwound, returned, the argument of a function, the
value in a map and both operands of a comparison. -/
theorem list_written_in_clauses :
    let members : List Constant := [.list [.literal (.integer 1)], .literal (.list [.null]), .list []]
    let e := (Constant.list members).expression
    let s : Statement := .single ⟨[.unwinding e ⟨"x", by decide +kernel⟩, .returning (.new false
      [e, .function "size" [e], .map ⟨[⟨"k", e⟩]⟩, .condition (.comparison e .within e)])]⟩
    s.text = "UNWIND [[1], [NULL], []] AS x RETURN [[1], [NULL], []], size([[1], [NULL], []]), " ++
      "\x7bk: [[1], [NULL], []]\x7d, [[1], [NULL], []] IN [[1], [NULL], []]" ∧
    (∃ p ancestors, s.tree.Lineage p ancestors ∧ p.tree = e.tree) ∧
    ∀ p ancestors, s.tree.Lineage p ancestors → p.tree = e.tree →
      ∃ w behind, s.text = String.ofList (Text.dropBlank w.text.toList) ++ "[[1], [NULL], []]" ++ behind ∧
        ⟨⟨.enter, p, ancestors⟩, w⟩ ∈ (s.observed RenderSettings.default.stem).2 := by
  intro members e s
  have hunwound : ∃ p ancestors, s.tree.Lineage p ancestors ∧ p.tree = e.tree :=
    ⟨_, _, .child (.child (.child .root List.mem_cons_self) List.mem_cons_self) List.mem_cons_self, rfl⟩
  refine ⟨by decide +kernel, hunwound, fun p ancestors hlineage hp => ?_⟩
  have haccepted : ∀ o ∈ (s.observed RenderSettings.default.stem).2, o.event.callback ≠ .accept false := by
    decide +kernel
  have hvalue : (Constant.list members).value.text = "[[1], [NULL], []]" := by decide +kernel
  obtain ⟨w, behind, henter, -, htext⟩ | ⟨q, -, others, w, hrefused, -⟩ :=
    (list_written_as_literal members).2 s .default p ancestors hlineage hp
  · exact ⟨w, behind, hvalue ▸ htext, henter⟩
  · exact absurd rfl (haccepted _ hrefused)

end GraphQuery
