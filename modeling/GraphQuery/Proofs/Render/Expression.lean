import GraphQuery.Proofs.Render.Writing

/-! Expressions in writing. The writer writes the tree of every expression, condition and node as
its printer prints it; a comparison directly inside another one gets the parentheses that the
outer comparison prints around its operand. -/
namespace GraphQuery.Render.Writer

open Printing (run_pure run_bind)
open SyntaxTree (ofName ofLabels ofOperator)

theorem Writes.name {outer : Option Comparator} (n : Identifier) :
    Writes outer (ofName n) (pure n.text) :=
  .leaf _ rfl rfl (fun _ _ => rfl) fun _ => rfl

section Suppressed

variable {outer : Option Comparator} {ts : List SyntaxTree} {m : Printing}

/-- An aliased expression that was written before is refused, and its alias stands for it. -/
theorem Writes.aliased {e : Expression} {name : Identifier} (h : Writes none e.tree m) :
    Writes outer (.branch (.aliased e name) [e.tree]) (Printing.aliased e name m) := by
  intro path ancestors w _ hw
  have hsep : (w.separate ancestors).skipping = false := (skipping_separate w).trans hw
  have ha := accept_eq hw ⟨path, .branch (.aliased e name) [e.tree]⟩ ancestors
  generalize w.separate ancestors = v at hsep ha
  have hrun := Printing.run_aliased v.printed e name m
  by_cases hp : Printing.isAliasPrinted v.printed e name = true
  · have hr : visitor.accept ⟨path, .branch (.aliased e name) [e.tree]⟩ ancestors w =
        (false, v.write name.text) := ha.trans (if_pos hp)
    rw [if_pos hp] at hrun
    rw [visitor.walk_of_refused path ancestors w hr]
    exact (Prints.ofText hsep name.text).congr hrun
  · have hr : visitor.accept ⟨path, .branch (.aliased e name) [e.tree]⟩ ancestors w = (true, v) :=
      ha.trans (if_neg hp)
    rw [if_neg hp] at hrun
    let noted : Writer := { v with aliases := v.aliases ++ [(e, name)] }
    have henter : visitor.enter ⟨path, .branch (.aliased e name) [e.tree]⟩ ancestors v = noted := by
      change (v.write "").note (.aliased e name) = noted
      rw [write_empty]
      rfl
    rw [visitor.walk_of_accepted path ancestors w hr, henter]
    have hchild := WritesRow.single h path 0 (⟨path, .branch (.aliased e name) [e.tree]⟩ :: ancestors)
      noted rfl rfl hsep
    refine (hchild.behind (" AS " ++ name.text)).after ?_ rfl rfl
    rw [hrun, run_bind, run_pure, ← String.append_assoc]
    rfl

/-- Leaving a node that was not skipped only closes its parenthesis. -/
theorem leave_node {path : List Nat} {name : Option Identifier} {ancestors : List Place} {w : Writer}
    (hw : w.skipping = false) : leave ⟨path, .branch (.node name) ts⟩ ancestors w = w.write ")" := by
  change ({ w.write ")" with skipping := false } : Writer) = w.write ")"
  rw [← hw]
  rfl

section Nodes

variable {path : List Nat} {n : Identifier} {ancestors : List Place} {w : Writer}

theorem enter_node_again (hn : n ∈ w.nodes) :
    enter ⟨path, .branch (.node (some n)) ts⟩ ancestors w =
      { w.write ("(" ++ n.text) with skipping := true } := by
  have htext : openingText (.node (some n)) ancestors w = "(" ++ n.text := by
    simp only [openingText, hn, if_true]
  simp only [enter, SyntaxTree.construct, htext]
  exact if_pos hn

theorem enter_node_first (hn : n ∉ w.nodes) :
    enter ⟨path, .branch (.node (some n)) ts⟩ ancestors w =
      { w.write "(" with skipping := false, nodes := n :: w.nodes } := by
  have htext : openingText (.node (some n)) ancestors w = "(" := by
    simp only [openingText, hn, if_false, String.append_empty]
  simp only [enter, SyntaxTree.construct, htext]
  exact if_neg hn

end Nodes

/-- A node whose name was written before is entered, but nothing below it is. -/
theorem Writes.node {name : Option Identifier} (h : WritesRow none ts m) :
    Writes outer (.branch (.node name) (name.toList.map ofName ++ ts)) (Printing.node name m) := by
  intro path ancestors w _ hw
  have hsep : (w.separate ancestors).skipping = false := (skipping_separate w).trans hw
  rw [walk_branch hw (by simp)]
  generalize w.separate ancestors = v at hsep
  cases name with
  | none =>
    have hrow := h path 0 (⟨path, .branch (.node none) ts⟩ :: ancestors) (v.write "(") rfl rfl hsep
    have hclosed := hrow.before.behind ")"
    rw [← leave_node hrow.skipping] at hclosed
    exact hclosed.congr (Printing.run_node_none _ _)
  | some n =>
    have hrun := Printing.run_node_some v.printed n m
    rw [Option.toList_some, List.map_singleton, List.singleton_append]
    by_cases hn : n ∈ v.printed.nodes
    · rw [if_pos hn] at hrun
      rw [enter_node_again hn, walkAll_of_skipping rfl]
      refine ⟨?_, ?_, rfl, rfl⟩
      · rw [hrun]
        exact String.append_assoc
      · rw [hrun]
        rfl
    · rw [if_neg hn] at hrun
      let noted : Writer := { v.write "(" with skipping := false, nodes := n :: v.nodes }
      have hrow := WritesRow.cons (Writes.name n) h path 0
        (⟨path, .branch (.node (some n)) (ofName n :: ts)⟩ :: ancestors) noted rfl rfl rfl
      rw [enter_node_first hn]
      have hclosed := Prints.before (w := { v with skipping := false, nodes := n :: v.nodes })
        (hrow.behind ")")
      rw [← leave_node hrow.skipping] at hclosed
      refine hclosed.after ?_ rfl rfl
      rw [hrun]
      simp only [run_bind, run_pure, ← String.append_assoc]
      rfl

end Suppressed

/-- The text of an expression directly inside a comparison, or outside of any. -/
def operandText (outer : Option Comparator) (e : Expression) (t : String) : String :=
  match outer with
  | some op => Printing.operand op e t
  | none => t

section Operands

variable (outer : Option Comparator) (a b : Expression) (t : String)

theorem operandText_some (op : Comparator) : operandText (some op) a t = Printing.operand op a t := rfl

theorem operandText_comparison (op : BinaryOperator) :
    operandText outer (.condition (.comparison a op b)) t =
      Printing.parenthesized (outer.any fun o => (Comparator.binary op).precedence ≤ o.precedence) t := by
  cases outer <;> rfl

theorem operandText_test (op : UnaryOperator) (h : op.placement = .after) :
    operandText outer (.condition (.test a op h)) t =
      Printing.parenthesized (outer.any fun o => (Comparator.unary op).precedence ≤ o.precedence) t := by
  cases outer <;> rfl

end Operands

namespace Writes

variable {outer : Option Comparator} {e : Expression}

/-- Outside of comparisons an expression gets no parentheses. -/
theorem plain (h : Writes none e.tree (operandText none e <$> e.print)) : Writes none e.tree e.print :=
  h.congr fun _ => rfl

theorem plainCondition {c : Condition}
    (h : Writes none c.tree (operandText none (.condition c) <$> c.print)) : Writes none c.tree c.print :=
  h.congr fun _ => rfl

/-- Parentheses are for comparisons only. -/
theorem operand {t : SyntaxTree} {m : Printing} (h : Writes outer t m)
    (he : ∀ op, Printing.isLooseOperand op e = false) : Writes outer t (operandText outer e <$> m) := by
  refine h.congr fun s => ?_
  cases outer with
  | none => rfl
  | some op =>
    simp only [Printing.run_map, operandText, Printing.operand, he, Printing.parenthesized,
      Bool.false_eq_true, if_false]
    rfl

/-- A comparison between its parentheses, if it needs any. -/
theorem comparison {op : Comparator} {ts : List SyntaxTree} {m : Printing} (h : WritesRow (some op) ts m) :
    Writes outer (.branch (.comparison op) ts)
      (Printing.parenthesized (outer.any fun o => op.precedence ≤ o.precedence) <$> m) := by
  have hb : Writes outer (.branch (.comparison op) ts)
      (do return (if outer.any fun o => op.precedence ≤ o.precedence then "(" else "") ++ (← m) ++
        (if outer.any fun o => op.precedence ≤ o.precedence then ")" else "")) := by
    refine branch _ _ h rfl rfl (fun ancestors w henc => ?_) fun ancestors henc => ?_
    · simp only [openingText, needsParentheses_eq, henc]
    · simp only [closingText, needsParentheses_eq, henc]
  refine hb.congr fun s => ?_
  simp only [run_bind, run_pure, Printing.run_map, Printing.parenthesized]
  split <;> simp

/-- A parameter takes its name from the table. -/
theorem parameter (p : Parameter) : Writes outer (.leaf (.parameter p)) (Printing.parameter p) := by
  intro path ancestors w _ hw
  have hsep : (w.separate ancestors).skipping = false := (skipping_separate w).trans hw
  rw [SyntaxTree.leaf, walk_branch hw (by simp)]
  generalize w.separate ancestors = v at hsep
  have hprints : Prints (Printing.parameter p) v (enter ⟨path, .branch (.parameter p) []⟩ ancestors v) :=
    ⟨rfl, rfl, rfl, hsep⟩
  refine (hprints.behind "").congr ?_
  simp only [run_bind, run_pure, String.append_empty]
  rfl

end Writes

theorem WritesRow.labels {outer : Option Comparator} (ls : List Label) :
    WritesRow outer (ofLabels ls) (pure (Printing.labels ls)) := by
  induction ls with
  | nil => exact .nil
  | cons l ls ih =>
    have hl : Writes outer (.leaf (.nodeLabel l)) (pure (":" ++ Text.quotedName l.text)) :=
      .leaf _ rfl rfl (fun _ _ => rfl) fun _ => rfl
    refine (WritesRow.cons hl ih).congr fun s => ?_
    simp only [run_bind, run_pure, Printing.labels, List.map_cons, String.join_cons]

theorem Writes.operator {outer : Option Comparator} (op : Operator) :
    Writes outer (ofOperator op) (pure op.text) :=
  .leaf _ rfl rfl (fun _ _ => rfl) fun _ => rfl

/-- The operator of a change of labels is not written, and neither is anything around it. -/
theorem Writes.labelChange {outer : Option Comparator} (n : Identifier) (change : LabelChange)
    (ls : List Label) :
    Writes outer (.branch (.operation change.operator)
        (ofName n :: ofOperator (.binary change.operator) :: ofLabels ls))
      (pure (n.text ++ Printing.labels ls)) := by
  have hrow : WritesRow none (ofName n :: ofOperator (.binary change.operator) :: ofLabels ls) _ :=
    .cons (.name n) (.cons (.operator _) (.labels ls))
  refine .congr (.branch "" "" hrow rfl rfl (fun _ _ _ => ?_) fun _ _ => ?_) fun s => ?_
  · cases change <;> rfl
  · cases change <;> rfl
  · cases change <;> simp only [run_bind, run_pure, String.empty_append, String.append_empty] <;> rfl

mutual

/-- The writer writes an expression as it is printed, with parentheses where it is an operand of a
comparison and does not bind more tightly. -/
theorem writes_expression (e : Expression) (outer : Option Comparator) :
    Writes outer e.tree (operandText outer e <$> e.print) := by
  match e with
  | .literal l =>
    exact .operand (.leaf _ rfl rfl (fun _ _ => rfl) fun _ => rfl) fun _ => rfl
  | .variable n => exact .operand (.name n) fun _ => rfl
  | .parameter p => exact .operand (.parameter p) fun _ => rfl
  | .property e key =>
    have h := WritesRow.single (writes_expression e none).plain
    refine .operand (.congr (.branch (c := .propertyLookup key) "" ("." ++ key) h rfl rfl
      (fun _ _ _ => rfl) fun _ _ => rfl) fun s => ?_) fun _ => rfl
    simp only [Expression.print, run_bind, run_pure, String.empty_append, String.append_assoc]
  | .function f es =>
    refine .operand ?_ fun _ => rfl
    exact .list _ _ (writesAll_expressions es) rfl rfl rfl (fun _ _ => rfl) fun _ => rfl
  | .operation o => exact .operand (writes_operation o outer) fun _ => rfl
  | .condition c => exact writes_condition c outer
  | .aliased e name => exact .operand (.aliased (writes_expression e none).plain) fun _ => rfl
  | .map m => exact .operand (writes_map m outer) fun _ => rfl
  | .list es =>
    refine .operand ?_ fun _ => rfl
    exact .list _ _ (writesAll_expressions es) rfl rfl rfl (fun _ _ => rfl) fun _ => rfl
  | .node n => exact .operand (writes_node n outer) fun _ => rfl
  | .asterisk =>
    exact .operand (.leaf _ rfl rfl (fun _ _ => rfl) fun _ => rfl) fun _ => rfl
termination_by structural e

theorem writes_operation (o : Operation) (outer : Option Comparator) : Writes outer o.tree o.print := by
  match o with
  | .binary a op b =>
    have hrow : WritesRow none [a.tree, ofOperator (.binary op), b.tree] _ :=
      .cons (writes_expression a none).plain
        (.cons (.operator _) (.single (writes_expression b none).plain))
    refine .congr (.branch (if op.isArithmetic then "(" else "") (if op.isArithmetic then ")" else "")
      hrow rfl rfl (fun _ _ _ => rfl) fun _ _ => rfl) fun s => ?_
    simp only [Operation.print, run_bind, run_pure, Printing.parenthesized]
    split <;> simp only [String.append_assoc, String.empty_append, String.append_empty]
  | .labels n change ls => exact .labelChange n change ls
termination_by structural o

theorem writes_condition (c : Condition) (outer : Option Comparator) :
    Writes outer c.tree (operandText outer (.condition c) <$> c.print) := by
  match c with
  | .comparison a op b =>
    have hrow : WritesRow (some (.binary op)) [a.tree, ofOperator (.binary op), b.tree] _ :=
      .cons (writes_expression a (some (.binary op)))
        (.cons (.operator _) (.single (writes_expression b (some (.binary op)))))
    refine .congr (.comparison hrow) fun s => ?_
    simp only [Condition.print, Printing.run_map, run_bind, run_pure, operandText_comparison,
      operandText_some, String.append_assoc]
  | .test a op _ =>
    have hrow : WritesRow (some (.unary op)) [a.tree, ofOperator (.unary op)] _ :=
      .cons (writes_expression a (some (.unary op))) (.single (.operator _))
    refine .congr (.comparison hrow) fun s => ?_
    simp only [Condition.print, Printing.run_map, run_bind, run_pure, operandText_test,
      operandText_some]
  | .compound op cs =>
    refine .operand (.congr (.branch (c := .compound op) "(" ")" (writesRow_members op cs) rfl rfl
      (fun _ _ _ => rfl) fun _ _ => rfl) fun s => ?_) fun _ => rfl
    rfl
  | .not c =>
    have h := WritesRow.single (writes_condition c none).plainCondition
    refine .operand (.congr (.branch (c := .not) "NOT (" ")" h rfl rfl (fun _ _ _ => rfl) fun _ _ => rfl)
      fun s => ?_) fun _ => rfl
    rfl
  | .hasLabels n ls =>
    have hrow : WritesRow none (ofName n :: ofLabels ls) _ := .cons (.name n) (.labels ls)
    refine .operand (.congr (.branch (c := .hasLabels) "" "" hrow rfl rfl (fun _ _ _ => rfl)
      fun _ _ => rfl) fun s => ?_) fun _ => rfl
    simp only [Condition.print, run_bind, run_pure, String.empty_append, String.append_empty]
termination_by structural c

theorem writesRow_members (op : LogicalOperator) (cs : List Condition) :
    WritesRow none (SyntaxTree.joined (.logical op) (conditionTrees cs))
      (do return (Operator.logical op).text.intercalate (← printMembers cs)) := by
  match cs with
  | [] => exact .nil
  | [c] =>
    refine (WritesRow.single (writes_condition c none).plainCondition).congr fun s => ?_
    simp only [printMembers, run_bind, run_pure, String.intercalate_singleton]
    rfl
  | c :: d :: rest =>
    have hrow := WritesRow.cons (writes_condition c none).plainCondition
      (.cons (.operator (.logical op)) (writesRow_members op (d :: rest)))
    refine hrow.congr fun s => ?_
    simp only [printMembers, run_bind, run_pure, String.intercalate_cons_cons, String.append_assoc]
termination_by structural cs

theorem writes_entry (e : MapEntry) (outer : Option Comparator) : Writes outer e.tree e.print := by
  match e with
  | ⟨key, e⟩ =>
    have h := WritesRow.single (writes_expression e none).plain
    refine .congr (.branch (key ++ ": ") "" h rfl rfl (fun _ _ _ => rfl) fun _ _ => rfl) fun s => ?_
    simp only [MapEntry.print, run_bind, run_pure, String.append_empty]
termination_by structural e

theorem writes_map (m : MapExpression) (outer : Option Comparator) : Writes outer m.tree m.print := by
  match m with
  | ⟨entries⟩ =>
    exact .list _ _ (writesAll_entries entries) rfl rfl rfl (fun _ _ => rfl) fun _ => rfl
termination_by structural m

theorem writes_node (n : Node) (outer : Option Comparator) : Writes outer n.tree n.print := by
  match n with
  | ⟨name, ls, m⟩ =>
    have hrow : WritesRow none (ofLabels ls ++ propertyTrees m) _ :=
      .append (.labels ls) (writesRow_properties m)
    rw [Node.tree, List.append_assoc]
    exact .node (hrow.congr fun s => rfl)
termination_by structural n

theorem writesRow_properties (m : Option MapExpression) :
    WritesRow none (propertyTrees m) (printProperties m) := by
  match m with
  | none => exact .nil
  | some m =>
    refine .congr (.single (.branch " " "" (.single (writes_map m none)) rfl rfl (fun _ _ _ => rfl)
      fun _ _ => rfl)) fun s => ?_
    simp only [printProperties, run_bind, run_pure, String.append_empty]
termination_by structural m

theorem writesAll_expressions (es : List Expression) : WritesAll (expressionTrees es) (printAll es) := by
  match es with
  | [] => exact .nil
  | e :: rest => exact .cons (writes_expression e none).plain (writesAll_expressions rest)
termination_by structural es

theorem writesAll_entries (es : List MapEntry) : WritesAll (entryTrees es) (printEntries es) := by
  match es with
  | [] => exact .nil
  | e :: rest => exact .cons (writes_entry e none) (writesAll_entries rest)
termination_by structural es

end

end GraphQuery.Render.Writer
