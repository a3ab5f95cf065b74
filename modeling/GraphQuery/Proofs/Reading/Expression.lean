import GraphQuery.Proofs.Reading.Groups
import GraphQuery.Proofs.Render.Expression

/-! Written expressions read back. Every operation, compound and negation has parentheses of its own,
and so has a comparison inside another one. A comparison directly inside an operation has none, so the
operation takes the operand next to it. -/
namespace GraphQuery

namespace Expression

def isComparison : Expression → Bool
  | .condition (.comparison ..) => true
  | _ => false

/-- An expression that has no parentheses of its own around an operator. -/
def isLoose : Expression → Bool
  | .condition (.comparison ..) | .condition (.test ..) => true
  | _ => false

/-- An operation behind an expression. Of a comparison without parentheses it takes only the right
operand. -/
def operateBehind (compared : Bool) (a : Expression) (op : BinaryOperator) (b : Expression) : Expression :=
  match compared, a with
  | true, .condition (.comparison x o y) => .condition (x.compare o (y.operate op b))
  | _, a => a.operate op b

/-- An operation between two expressions, either of which may be a comparison without parentheses. -/
def operateBetween (compared : Bool) (a : Expression) (op : BinaryOperator) (compared' : Bool)
    (b : Expression) : Expression :=
  match compared', b with
  | true, .condition (.comparison x o y) => .condition ((operateBehind compared a op x).compare o y)
  | _, b => operateBehind compared a op b

end Expression

mutual

/-- The expression in which every operation has taken its operands from the comparisons beside it. -/
def Expression.regroup : Expression → Expression
  | .operation o => o.regroup
  | .condition c => .condition c.regroup
  | e => e
termination_by structural x => x

def Operation.regroup : Operation → Expression
  | .binary a op b => Expression.operateBetween a.isComparison a.regroup op b.isComparison b.regroup
  | o => .operation o
termination_by structural x => x

def Condition.regroup : Condition → Condition
  | .comparison a op b => .comparison a.regroup op b.regroup
  | .test a op h => .test a.regroup op h
  | .compound op cs => .compound op (regroupMembers cs)
  | .not c => .not c.regroup
  | .hasLabels n ls => .hasLabels n ls
termination_by structural x => x

def regroupMembers : List Condition → List Condition
  | [] => []
  | c :: rest => c.regroup :: regroupMembers rest
termination_by structural x => x

end

@[simp] theorem regroupMembers_eq_map (cs : List Condition) : regroupMembers cs = cs.map Condition.regroup := by
  induction cs with
  | nil => rfl
  | cons c cs ih => simp [regroupMembers, ih]

/-- A condition that is no compound of an operator does not become one. -/
theorem Condition.membersFor_regroup {op : LogicalOperator} {c : Condition} (h : c.membersFor op = [c]) :
    c.regroup.membersFor op = [c.regroup] := by
  cases c with
  | compound o members =>
    by_cases ho : o = op
    · -- It would be its own only member.
      rw [membersFor, if_pos ho] at h
      have hsize := congrArg sizeOf h
      simp only [List.cons.sizeOf_spec, List.nil.sizeOf_spec, Condition.compound.sizeOf_spec] at hsize
      omega
    · exact if_neg ho
  | comparison a op b | test a op after | not c | hasLabels n ls => rfl

namespace Reading

/-- The expressions that the reader knows: variables, numbers and strings, arithmetic on anything but
tests, comparisons and tests of operands, and conditions made of others. A compound has at least two
members, none of which is a compound of the same operator. -/
inductive Readable : Expression → Prop where
  | name (n : Identifier) : Readable (.variable n)
  | integer (i : Int64) : Readable (.literal (.integer i))
  | string (s : String) : Readable (.literal (.string s))
  | operation {a b : Expression} {op : BinaryOperator} (ha : Readable a) (hb : Readable b)
      (readable : Operator.binary op ∈ Operator.readable) (arithmetic : op.isArithmetic = true)
      (left : a.isLoose = a.isComparison) (right : b.isLoose = b.isComparison) : Readable (a.operate op b)
  | comparison {a b : Expression} {op : BinaryOperator} (ha : Readable a) (hb : Readable b)
      (comparison : op.isComparison = true) : Readable (.condition (a.compare op b))
  | test {a : Expression} {op : UnaryOperator} (ha : Readable a) (after : op.placement = .after) :
      Readable (.condition (.test a op after))
  | compound {op : LogicalOperator} {c : Condition} {cs : List Condition} (hne : cs ≠ [])
      (members : ∀ d ∈ c :: cs, Readable (.condition d)) (flat : ∀ d ∈ c :: cs, d.membersFor op = [d]) :
      Readable (.condition (.compound op (c :: cs)))
  | not {c : Condition} (hc : Readable (.condition c)) : Readable (.condition (.not c))
  | hasLabels (n : Identifier) {ls : List Label} (hne : ls ≠ []) : Readable (.condition (.hasLabels n ls))

/-- How the lexemes of an expression are read. -/
inductive Shape : Expression → List Lexeme → Prop where
  | operand {e : Expression} {ls : List Lexeme} (tight : e.isLoose = false) (h : Operand ls e.regroup) :
      Shape e ls
  | comparison {a b : Expression} {op : BinaryOperator} {ls ms : List Lexeme} (ha : Operand ls a.regroup)
      (hb : Operand ms b.regroup) (comparison : op.isComparison = true) :
      Shape (.condition (a.compare op b)) (ls ++ (Operator.binary op).words.map .word ++ ms)
  | test {a : Expression} {op : UnaryOperator} {ls : List Lexeme} (ha : Operand ls a.regroup)
      (after : op.placement = .after) :
      Shape (.condition (.test a op after)) (ls ++ (Operator.unary op).words.map .word)

/-- An expression is printed as the text, and the text is read as the lexemes. -/
structure Spelled (e : Expression) (t : String) (ls : List Lexeme) : Prop where
  print : ∀ s, e.print.run s = (t, s)
  spells : Spells false false t ls
  shape : Shape e ls

/-- A condition is printed as the expression is. -/
theorem Spelled.print_condition {c : Condition} {t : String} {ls : List Lexeme}
    (h : Spelled (.condition c) t ls) (s : Printed) : c.print.run s = (t, s) := h.print s

section Operators

theorem readable_of_isComparison {op : BinaryOperator} (h : op.isComparison = true) :
    Operator.binary op ∈ Operator.readable := by
  cases op <;> first | decide | cases h

theorem readable_of_after {op : UnaryOperator} (h : op.placement = .after) :
    Operator.unary op ∈ Operator.readable := by
  cases op <;> first | decide | cases h

/-- The text of an operator between two operands. -/
theorem spells_between {op : Operator} (h : op ∈ Operator.readable) (hp : op.placement = .between) :
    Spells true true op.text (op.words.map .word) := by
  have hwords := Spells.words (Operator.isWord_of_readable op h)
  rw [Operator.intercalate_words] at hwords
  have htext := (Spells.blank.append hwords (.inl rfl)).append Spells.blank (.inr rfl)
  rw [List.nil_append, List.append_nil] at htext
  simpa only [Operator.text, hp] using htext

/-- The text of an operator behind its operand. -/
theorem spells_after {op : Operator} (h : op ∈ Operator.readable) (hp : op.placement = .after) :
    Spells true false op.text (op.words.map .word) := by
  have hwords := Spells.words (Operator.isWord_of_readable op h)
  rw [Operator.intercalate_words] at hwords
  have htext := Spells.blank.append hwords (.inl rfl)
  rw [List.nil_append] at htext
  simpa only [Operator.text, hp] using htext

theorem placement_of_isComparison {op : BinaryOperator} (h : op.isComparison = true) :
    (Operator.binary op).placement = .between := by
  cases op <;> first | rfl | cases h

theorem placement_of_isArithmetic {op : BinaryOperator} (h : op.isArithmetic = true) :
    (Operator.binary op).placement = .between := by
  cases op <;> first | rfl | cases h

end Operators

theorem Shape.member {e : Expression} {ls : List Lexeme} (h : Shape e ls) : Member ls e.regroup := by
  cases h with
  | operand _ h => exact h.member
  | comparison ha hb hop => exact ha.comparison hb (readable_of_isComparison hop) hop
  | test ha after => exact ha.test (readable_of_after after) after

/-- Inside a comparison an expression is an operand: a comparison there gets parentheses. -/
theorem Spelled.operand {e : Expression} {t : String} {ls : List Lexeme} (h : Spelled e t ls)
    {outer : Comparator} (ho : outer.precedence = 4) :
    ∃ ms, Spells false false (Printing.operand outer e t) ms ∧ Operand ms e.regroup := by
  have hparen : Printing.isLooseOperand outer e = true →
      ∃ ms, Spells false false (Printing.operand outer e t) ms ∧ Operand ms e.regroup := fun hl => by
    rw [Printing.operand, Printing.parenthesized, hl, if_pos rfl]
    exact ⟨_, h.spells.parenthesized.inner, h.shape.member.group.enclosed⟩
  cases h.shape with
  | operand tight hoperand =>
    have hl : Printing.isLooseOperand outer e = false := by
      unfold Printing.isLooseOperand
      split
      · cases tight
      · cases tight
      · rfl
    rw [Printing.operand, Printing.parenthesized, hl, if_neg Bool.false_ne_true]
    exact ⟨_, h.spells, hoperand⟩
  | @comparison a b op la lb ha hb hop =>
    have hle : op.precedence ≤ outer.precedence :=
      Nat.le_of_eq ((BinaryOperator.precedence_of_isComparison hop).trans ho.symm)
    exact hparen (decide_eq_true hle)
  | @test a op ls ha after =>
    have hle : op.precedence ≤ outer.precedence := by
      rw [ho]
      cases op <;> first | decide | cases after
    exact hparen (decide_eq_true hle)

section Operands

theorem operand_word {w : String} {e : Expression} (h : operandOf? w = some e) : Operand [.word w] e := by
  intro waiting outer
  rw [Reader.run_cons, Reader.step, Reader.word, h]
  rfl

theorem operand_string (s : String) : Operand [.string s] (.literal (.string s)) := fun _ _ => rfl

/-- Labels behind labels. -/
theorem run_labels (waiting : Waiting) (outer : List (Waiting × Bool)) (n : Identifier) (before ls : List Label) :
    Reader.run ⟨.holding waiting (.condition (.hasLabels n before)) [], outer⟩ (ls.map fun l => .name l.text) =
      some ⟨.holding waiting (.condition (.hasLabels n (before ++ ls))) [], outer⟩ := by
  induction ls generalizing before with
  | nil => rw [List.append_nil, List.map_nil, Reader.run_nil]
  | cons l ls ih =>
    rw [List.map_cons, Reader.run_cons, Reader.step, Reader.name, dif_neg l.nonempty]
    simp only [labelled, Option.map_some, Option.bind_some]
    rw [ih, List.append_assoc, List.singleton_append]

theorem operand_labels (n : Identifier) {ls : List Label} (hne : ls ≠ []) :
    Operand (.word n.text :: ls.map fun l => .name l.text) (.condition (.hasLabels n ls)) := by
  intro waiting outer
  obtain ⟨l, ls, rfl⟩ := List.exists_cons_of_ne_nil hne
  rw [List.map_cons, Reader.run_cons, Reader.step, Reader.word, operandOf?_text]
  simp only [Option.map_some, Option.bind_some]
  rw [Reader.run_cons, Reader.step, Reader.name, dif_neg l.nonempty]
  exact run_labels waiting outer n [l] ls

theorem spells_labels (n : Identifier) (ls : List Label) :
    Spells false false (n.text ++ Printing.labels ls) (.word n.text :: ls.map fun l => .name l.text) := by
  have hlabels : Spells true false (Printing.labels ls) (ls.flatMap fun l => [.name l.text]) :=
    .join fun l _ => .name l.text
  rw [← List.map_eq_flatMap] at hlabels
  exact (Spells.word (isWord_identifier n)).append hlabels (.inr rfl)

end Operands

section Members

/-- The members of a compound, printed and read one by one. -/
theorem exists_members {op : LogicalOperator} {cs : List Condition}
    (h : ∀ c ∈ cs, ∃ t ls, Spelled (.condition c) t ls) (flat : ∀ c ∈ cs, c.membersFor op = [c]) :
    ∃ ts lss, (∀ s, (printMembers cs).run s = (ts, s)) ∧ List.Forall₂ (Spells false false) ts lss ∧
      List.Forall₂ (Joins op) lss (cs.map Condition.regroup) := by
  induction cs with
  | nil => exact ⟨[], [], fun _ => rfl, .nil, .nil⟩
  | cons c cs ih =>
    rw [List.forall_mem_cons] at h flat
    obtain ⟨t, ls, hc⟩ := h.1
    obtain ⟨ts, lss, hprint, hspells, hjoins⟩ := ih h.2 flat.2
    refine ⟨t :: ts, ls :: lss, fun s => ?_, .cons hc.spells hspells,
      .cons ⟨hc.shape.member, Condition.membersFor_regroup flat.1⟩ hjoins⟩
    simp only [printMembers, Printing.run_bind, Printing.run_pure, hc.print_condition, hprint]

end Members

/-- Comparisons give their operands to the arithmetic beside them. -/
theorem Shape.arithmetic {a b : Expression} {op : BinaryOperator} {ls ms : List Lexeme} (ha : Shape a ls)
    (hb : Shape b ms) (hop : Operator.binary op ∈ Operator.readable) (harith : op.isArithmetic = true)
    (left : a.isLoose = a.isComparison) (right : b.isLoose = b.isComparison) :
    Group (ls ++ (Operator.binary op).words.map .word ++ ms) (a.operate op b).regroup := by
  have hvalue : (a.operate op b).regroup =
      Expression.operateBetween a.isComparison a.regroup op b.isComparison b.regroup := rfl
  rw [hvalue]
  -- A comparison on the left still waits when the operation comes; one on the right comes after it.
  cases ha with
  | operand tight ha =>
    rw [← left, tight]
    cases hb with
    | operand tight' hb =>
      rw [← right, tight']
      exact ha.leads.arithmetic nofun hop harith hb rfl
    | comparison hx hy ho =>
      exact ha.leads.comparison nofun hop harith hx (readable_of_isComparison ho) ho hy rfl
    | test => cases right
  | comparison hx hy ho =>
    have hleads := hx.leads_comparison hy (readable_of_isComparison ho)
    have hw := Operator.precedence_of_isComparison ho
    have hcombine := Operator.combine_comparison ho
    cases hb with
    | operand tight' hb =>
      rw [← right, tight']
      exact hleads.arithmetic (List.forall_mem_singleton.mpr hw) hop harith hb
        (reduce_cons (Nat.zero_le _) (hcombine _ _))
    | comparison hx' hy' ho' =>
      exact hleads.comparison (List.forall_mem_singleton.mpr hw) hop harith hx' (readable_of_isComparison ho') ho'
        hy' (reduce_cons (Nat.le_of_eq hw.symm) (hcombine _ _))
    | test => cases right
  | test => cases left

/-- Every expression of the reader is spelled in one way. -/
theorem Readable.spelled {e : Expression} (h : Readable e) : ∃ t ls, Spelled e t ls := by
  induction h with
  | name n =>
    exact ⟨n.text, [.word n.text], fun _ => rfl, .word (isWord_identifier n),
      .operand rfl (operand_word (operandOf?_text n))⟩
  | integer i =>
    exact ⟨toString i.toInt, [.word (toString i.toInt)], fun _ => rfl, .word (isWord_toString i.toInt),
      .operand rfl (operand_word (operandOf?_toString i))⟩
  | string s => exact ⟨_, [.string s], fun _ => rfl, (Spells.string s).inner, .operand rfl (operand_string s)⟩
  | @operation a b op ha hb hop harith left right iha ihb =>
    obtain ⟨t, ls, ha⟩ := iha
    obtain ⟨u, ms, hb⟩ := ihb
    have hspells := (ha.spells.append (spells_between hop (placement_of_isArithmetic harith)) (.inr rfl)).append
      hb.spells (.inl rfl)
    refine ⟨_, _, fun s => ?_, hspells.parenthesized.inner,
      .operand rfl (ha.shape.arithmetic hb.shape hop harith left right).enclosed⟩
    simp only [Expression.operate, Expression.print, Operation.print, Printing.run_bind, Printing.run_pure,
      ha.print, hb.print, Printing.parenthesized, harith, if_true]
  | @comparison a b op ha hb hop iha ihb =>
    obtain ⟨t, ls, ha⟩ := iha
    obtain ⟨u, ms, hb⟩ := ihb
    have hp : (Comparator.binary op).precedence = 4 := BinaryOperator.precedence_of_isComparison hop
    obtain ⟨ls', hspells, hread⟩ := ha.operand hp
    obtain ⟨ms', hspells', hread'⟩ := hb.operand hp
    have hbetween := spells_between (readable_of_isComparison hop) (placement_of_isComparison hop)
    refine ⟨_, _, fun s => ?_, (hspells.append hbetween (.inr rfl)).append hspells' (.inl rfl),
      .comparison hread hread' hop⟩
    simp only [Expression.compare, Expression.print, Condition.print, Printing.run_bind, Printing.run_pure,
      ha.print, hb.print]
  | @test a op ha after iha =>
    obtain ⟨t, ls, ha⟩ := iha
    have hp : (Comparator.unary op).precedence = 4 := by
      cases op <;> first | rfl | cases after
    obtain ⟨ls', hspells, hread⟩ := ha.operand hp
    refine ⟨_, _, fun s => ?_, hspells.append (spells_after (readable_of_after after) after) (.inr rfl),
      .test hread after⟩
    simp only [Expression.print, Condition.print, Printing.run_bind, Printing.run_pure, ha.print]
  | @compound op c cs hne members flat ih =>
    obtain ⟨t, ls, hc⟩ := ih c List.mem_cons_self
    obtain ⟨ts, lss, hprint, hspells, hjoins⟩ := exists_members (fun d hd => ih d (List.mem_cons_of_mem c hd))
      fun d hd => flat d (List.mem_cons_of_mem c hd)
    have hlss : lss ≠ [] := fun hnil => by
      have hlength := hjoins.length_eq
      rw [hnil, List.length_map] at hlength
      exact hne (List.length_eq_zero_iff.mp hlength.symm)
    have hjoin := Spells.intercalate (spells_between (mem_readable_logical op) rfl) (.cons hc.spells hspells)
    have hgroup := group_compound ⟨hc.shape.member, Condition.membersFor_regroup (flat c List.mem_cons_self)⟩
      hjoins hlss
    refine ⟨_, _, fun s => ?_, hjoin.parenthesized.inner, .operand rfl ?_⟩
    · simp only [Expression.print, Condition.print, printMembers, Printing.run_bind, Printing.run_pure,
        hc.print_condition, hprint]
    · rw [Expression.regroup, Condition.regroup, regroupMembers_eq_map]
      exact hgroup.enclosed
  | @not c hc ih =>
    obtain ⟨t, ls, hc⟩ := ih
    have hnot := (Spells.word (t := "NOT") (by decide)).append
      (Spells.blank.append hc.spells.parenthesized (.inl rfl)) (.inr rfl)
    refine ⟨_, _, fun s => ?_, hnot.inner, .operand rfl hc.shape.member.group.negated⟩
    have hopen : "NOT (" = "NOT" ++ (" " ++ "(") := by decide
    simp only [Expression.print, Condition.print, Printing.run_bind, Printing.run_pure, hc.print_condition, hopen,
      String.append_assoc]
  | hasLabels n hne =>
    exact ⟨_, _, fun _ => rfl, spells_labels n _, .operand rfl (operand_labels n hne)⟩

end Reading

/-- The text that the writer writes of an expression. -/
def Expression.written (e : Expression) : String :=
  (Traversal.ofTree Render.Writer.visitor e.tree (.new (.new (.new NameSource.defaultStem) []))).state.text

namespace Reading

open Render (Writer)
open Render.Writer (visitor enclosing? writes_expression)

/-- Outside of comparisons the printed text is written wherever the expression stands. -/
theorem Spelled.walk {e : Expression} {t : String} {ls : List Lexeme} (h : Spelled e t ls) (path : List Nat)
    {ancestors : List Place} (henc : enclosing? ancestors = none) {w : Writer} (hw : w.skipping = false) :
    (visitor.walk path e.tree ancestors w).text = (w.separate ancestors).text ++ t := by
  rw [((writes_expression e none).plain path ancestors w henc hw).text, h.print]

theorem Spelled.written {e : Expression} {t : String} {ls : List Lexeme} (h : Spelled e t ls) :
    e.written = t := by
  rw [Expression.written, Traversal.ofTree_eq_walk]
  exact (h.walk [] rfl rfl).trans (String.empty_append)

/-- An expression is written in the same way wherever it stands outside of a comparison. -/
theorem Readable.walk {e : Expression} (h : Readable e) (path : List Nat) {ancestors : List Place}
    (henc : enclosing? ancestors = none) {w : Writer} (hw : w.skipping = false) :
    (visitor.walk path e.tree ancestors w).text = (w.separate ancestors).text ++ e.written := by
  obtain ⟨t, ls, hspelled⟩ := h.spelled
  rw [hspelled.walk path henc hw, hspelled.written]

/-- What is written of an expression is read as the expression that takes operations and comparisons
apart as the parentheses and the precedences say. -/
theorem Readable.read_written {e : Expression} (h : Readable e) : read e.written = some e.regroup := by
  obtain ⟨t, ls, hspelled⟩ := h.spelled
  rw [hspelled.written]
  exact hspelled.shape.member.group.read hspelled.spells

end Reading

mutual

/-- No comparison is an operand of an operation. -/
def Expression.keepsComparisons : Expression → Bool
  | .operation o => o.keepsComparisons
  | .condition c => c.keepsComparisons
  | _ => true
termination_by structural x => x

def Operation.keepsComparisons : Operation → Bool
  | .binary a _ b => !a.isComparison && !b.isComparison && a.keepsComparisons && b.keepsComparisons
  | .labels .. => true
termination_by structural x => x

def Condition.keepsComparisons : Condition → Bool
  | .comparison a _ b => a.keepsComparisons && b.keepsComparisons
  | .test a _ _ => a.keepsComparisons
  | .compound _ cs => keepAllComparisons cs
  | .not c => c.keepsComparisons
  | .hasLabels .. => true
termination_by structural x => x

def keepAllComparisons : List Condition → Bool
  | [] => true
  | c :: rest => c.keepsComparisons && keepAllComparisons rest
termination_by structural x => x

end

@[simp] theorem keepAllComparisons_iff (cs : List Condition) :
    keepAllComparisons cs = true ↔ ∀ c ∈ cs, c.keepsComparisons = true := by
  induction cs with
  | nil => simp [keepAllComparisons]
  | cons c cs ih => simp [keepAllComparisons, ih]

theorem Expression.eq_compare_of_isComparison {e : Expression} (h : e.isComparison = true) :
    ∃ (a : Expression) (op : BinaryOperator) (b : Expression), e = .condition (a.compare op b) := by
  unfold isComparison at h
  split at h
  · next a op b => exact ⟨a, op, b, rfl⟩
  · cases h

namespace Reading

/-- Operations leave an expression as it is exactly when no comparison stands beside them. -/
theorem Readable.regroup_eq_iff {e : Expression} (h : Readable e) :
    e.regroup = e ↔ e.keepsComparisons = true := by
  induction h with
  | name n | integer i | string s | hasLabels n hne => exact ⟨fun _ => rfl, fun _ => rfl⟩
  | @operation a b op ha hb hop harith left right iha ihb =>
    have hvalue : (a.operate op b).regroup =
        Expression.operateBetween a.isComparison a.regroup op b.isComparison b.regroup := rfl
    have hkeeps : (a.operate op b).keepsComparisons =
        (!a.isComparison && !b.isComparison && a.keepsComparisons && b.keepsComparisons) := rfl
    rw [hvalue, hkeeps]
    cases hb' : b.isComparison with
    | true =>
      obtain ⟨x, o, y, rfl⟩ := Expression.eq_compare_of_isComparison hb'
      simp only [Bool.not_true, Bool.and_false, Bool.false_and, Bool.false_eq_true, iff_false]
      exact nofun
    | false =>
      cases ha' : a.isComparison with
      | true =>
        obtain ⟨x, o, y, rfl⟩ := Expression.eq_compare_of_isComparison ha'
        simp only [Bool.not_true, Bool.false_and, Bool.false_eq_true, iff_false]
        exact nofun
      | false =>
        have hplain : Expression.operateBetween false a.regroup op false b.regroup =
            a.regroup.operate op b.regroup := rfl
        simp [hplain, Expression.operate, iha, ihb]
  | comparison ha hb hop iha ihb =>
    simp [Expression.regroup, Condition.regroup, Expression.compare, Expression.keepsComparisons,
      Condition.keepsComparisons, iha, ihb]
  | test ha after iha =>
    simp [Expression.regroup, Condition.regroup, Expression.keepsComparisons, Condition.keepsComparisons, iha]
  | @compound op c cs hne members flat ih =>
    have hmap : (c :: cs).map Condition.regroup = c :: cs ↔ ∀ d ∈ c :: cs, d.regroup = d := by
      have h := List.map_inj_left (l := c :: cs) (f := Condition.regroup) (g := id)
      rwa [List.map_id] at h
    have hall : (∀ d ∈ c :: cs, d.regroup = d) ↔ ∀ d ∈ c :: cs, d.keepsComparisons = true :=
      forall₂_congr fun d hd => by simpa [Expression.regroup, Expression.keepsComparisons] using ih d hd
    have hregroup : (Expression.condition (.compound op (c :: cs))).regroup =
        .condition (.compound op ((c :: cs).map Condition.regroup)) := by
      rw [Expression.regroup, Condition.regroup, regroupMembers_eq_map]
    have hkeeps : (Expression.condition (.compound op (c :: cs))).keepsComparisons =
        keepAllComparisons (c :: cs) := rfl
    rw [hregroup, hkeeps, keepAllComparisons_iff, ← hall, ← hmap, Expression.condition.injEq,
      Condition.compound.injEq]
    exact ⟨fun h => h.2, fun h => ⟨rfl, h⟩⟩
  | not hc ih =>
    simpa [Expression.regroup, Condition.regroup, Expression.keepsComparisons, Condition.keepsComparisons] using ih

end Reading
end GraphQuery
