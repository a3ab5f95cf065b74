import GraphQuery.Proofs.Reading.Reader

/-! What the reader makes of lexemes in a row. An operand is held as it is, whatever waits in front of
it. A comparison without parentheses is held by its right operand while its left one waits; it comes
together as soon as an operator follows that binds no more tightly, or the parenthesis around it ends. -/
namespace GraphQuery

theorem Operator.precedence_of_isComparison {op : BinaryOperator} (h : op.isComparison = true) :
    (Operator.binary op).precedence = 4 := BinaryOperator.precedence_of_isComparison h

theorem Operator.precedence_logical (op : LogicalOperator) : (Operator.logical op).precedence < 4 := by
  cases op <;> decide

theorem Operator.precedence_of_isArithmetic {op : BinaryOperator} (h : op.isArithmetic = true) :
    4 < (Operator.binary op).precedence := by
  cases op <;> first | decide | cases h

theorem Operator.combine_comparison {op : BinaryOperator} (h : op.isComparison = true) (a b : Expression) :
    (Operator.binary op).combine a b = some (.condition (a.compare op b)) := by
  simp [combine, h]

theorem Operator.combine_arithmetic {op : BinaryOperator} (h : op.isArithmetic = true) (a b : Expression) :
    (Operator.binary op).combine a b = some (a.operate op b) := by
  have hc : op.isComparison = false := by
    cases op <;> first | rfl | cases h
  simp [combine, hc]

namespace Reading

theorem reduce_cons {level : Nat} {waiting : Waiting} {a e x : Expression} {op : Operator}
    (h : level ≤ op.precedence) (hx : op.combine a e = some x) :
    reduce level ((a, op) :: waiting) e = reduce level waiting x := by
  rw [reduce, if_pos h, hx, Option.bind_some]

theorem reduce_of_lt {level : Nat} {waiting : Waiting} (h : ∀ w ∈ waiting, w.2.precedence < level)
    (e : Expression) : reduce level waiting e = some (waiting, e) := by
  cases waiting with
  | nil => rfl
  | cons w waiting => rw [reduce, if_neg (Nat.not_le.mpr (h w List.mem_cons_self))]

namespace Reader

variable {waiting : Waiting} {e : Expression} {outer : List (Waiting × Bool)}

/-- Words are kept until together they are an operator. -/
theorem run_words {op : Operator} {ws rest : List String} (hne : rest ≠ [])
    (hop : operatorOf? (ws ++ rest) = some op)
    (hnone : ∀ i < rest.length, 0 < i → operatorOf? (ws ++ rest.take i) = none) :
    Reader.run ⟨.holding waiting e ws, outer⟩ (rest.map .word) =
      (Phase.behind op waiting e).map (⟨·, outer⟩) := by
  induction rest generalizing ws with
  | nil => exact absurd rfl hne
  | cons w rest ih =>
    rw [List.map_cons, run_cons]
    cases rest with
    | nil =>
      simp only [step, word, hop]
      cases Phase.behind op waiting e <;> rfl
    | cons v rest =>
      have hw : operatorOf? (ws ++ [w]) = none := hnone 1 (by simp) Nat.one_pos
      simp only [step, word, hw, Option.bind_some]
      refine ih (List.cons_ne_nil _ _) (by simpa using hop) fun i hi hpos => ?_
      have h := hnone (i + 1) (Nat.succ_lt_succ hi) i.succ_pos
      rwa [List.take_succ_cons, List.append_cons] at h

/-- An operator behind an operand. -/
theorem run_operator {op : Operator} (h : op ∈ Operator.readable) :
    Reader.run ⟨.holding waiting e [], outer⟩ (op.words.map .word) =
      (Phase.behind op waiting e).map (⟨·, outer⟩) := by
  obtain ⟨hop, hnone⟩ := Operator.operatorOf?_words op h
  refine run_words ?_ hop hnone
  intro hw
  have hnone : operatorOf? [] = none := by decide +kernel
  rw [hw, hnone] at hop
  cases hop

end Reader

/-- Wherever an operand is awaited, the lexemes are read as this one. -/
def Operand (ls : List Lexeme) (e : Expression) : Prop :=
  ∀ waiting outer, Reader.run ⟨.awaiting waiting, outer⟩ ls = some ⟨.holding waiting e [], outer⟩

/-- At the beginning of a parenthesis the lexemes are read as the expression. -/
def Group (ls : List Lexeme) (e : Expression) : Prop :=
  ∀ outer, ∃ waiting x, Reader.run ⟨.awaiting [], outer⟩ ls = some ⟨.holding waiting x [], outer⟩ ∧
    reduce 0 waiting x = some ([], e)

/-- Behind operators that bind less tightly than comparisons, the lexemes are read as the expression,
which may still have to come together. -/
def Member (ls : List Lexeme) (e : Expression) : Prop :=
  ∀ waiting outer, (∀ w ∈ waiting, w.2.precedence < 4) → ∃ more x,
    Reader.run ⟨.awaiting waiting, outer⟩ ls = some ⟨.holding (more ++ waiting) x [], outer⟩ ∧
      ∀ level ≤ 4, reduce level (more ++ waiting) x = reduce level waiting e

namespace Operand

variable {ls ms : List Lexeme} {a b : Expression}

theorem member (h : Operand ls a) : Member ls a :=
  fun waiting outer _ => ⟨[], a, h waiting outer, fun _ _ => rfl⟩

/-- A comparison without parentheses. -/
theorem comparison (ha : Operand ls a) (hb : Operand ms b) {op : BinaryOperator}
    (hop : Operator.binary op ∈ Operator.readable) (hc : op.isComparison = true) :
    Member (ls ++ (Operator.binary op).words.map .word ++ ms) (.condition (a.compare op b)) := by
  intro waiting outer hw
  have hp := Operator.precedence_of_isComparison hc
  refine ⟨[(a, .binary op)], b, ?_, fun level hl => ?_⟩
  · rw [Reader.run_append, Reader.run_append, ha, Option.bind_some, Reader.run_operator hop, Phase.behind, hp,
      reduce_of_lt hw]
    exact hb _ _
  · exact reduce_cons (hp ▸ hl) (Operator.combine_comparison hc a b)

/-- A test without parentheses. -/
theorem test (ha : Operand ls a) {op : UnaryOperator} (hop : Operator.unary op ∈ Operator.readable)
    (h : op.placement = .after) :
    Member (ls ++ (Operator.unary op).words.map .word) (.condition (.test a op h)) := by
  intro waiting outer hw
  have hp : (Operator.unary op).precedence = 4 := by
    cases op with
    | not => cases h
    | isNull | isNotNull => rfl
  refine ⟨[], .condition (.test a op h), ?_, fun _ _ => rfl⟩
  rw [Reader.run_append, ha, Option.bind_some, Reader.run_operator hop, Phase.behind, hp, reduce_of_lt hw,
    Option.bind_some]
  simp only [h, dif_pos]
  rfl

end Operand

theorem Member.group {ls : List Lexeme} {e : Expression} (h : Member ls e) : Group ls e := by
  intro outer
  obtain ⟨more, x, hrun, hreduce⟩ := h [] outer nofun
  rw [List.append_nil] at hrun hreduce
  exact ⟨more, x, hrun, hreduce 0 (Nat.zero_le 4)⟩

namespace Group

variable {ls : List Lexeme} {e : Expression}

theorem enclosed (h : Group ls e) : Operand (.opening :: ls ++ [.closing]) e := by
  intro waiting outer
  obtain ⟨inside, x, hrun, hreduce⟩ := h ((waiting, false) :: outer)
  rw [Reader.run_append, Reader.run_cons, Reader.step, Reader.opening, Option.bind_some, hrun, Option.bind_some,
    Reader.run_cons, Reader.step, Reader.closing, hreduce]
  rfl

/-- A parenthesis behind the word NOT. -/
theorem negated {c : Condition} (h : Group ls (.condition c)) :
    Operand ([.word "NOT", .opening] ++ ls ++ [.closing]) (.condition (.not c)) := by
  intro waiting outer
  obtain ⟨inside, x, hrun, hreduce⟩ := h ((waiting, true) :: outer)
  have hword : operandOf? "NOT" = some (.variable ⟨"NOT", by decide +kernel⟩) := operandOf?_text ⟨"NOT", _⟩
  have hnot : Reader.run ⟨.awaiting waiting, outer⟩ [.word "NOT", .opening] =
      some ⟨.awaiting [], (waiting, true) :: outer⟩ := by
    simp [Reader.step, Reader.word, Reader.opening, hword]
  rw [Reader.run_append, Reader.run_append, hnot, Option.bind_some, hrun, Option.bind_some, Reader.run_cons,
    Reader.step, Reader.closing, hreduce]
  rfl

/-- A text that is read as a whole. -/
theorem read {t : String} {begins ends : Bool} (ht : Spells begins ends t ls) (h : Group ls e) :
    Reading.read t = some e := by
  obtain ⟨waiting, x, hrun, hreduce⟩ := h []
  rw [Reading.read, ht.lexemes, Option.bind_some, Reader.start, hrun, Option.bind_some, Reader.finish, hreduce]
  rfl

end Group

section Operations

/-- At the beginning of a parenthesis the lexemes are read as an operand, behind what waits. -/
def Leads (ls : List Lexeme) (waiting : Waiting) (e : Expression) : Prop :=
  ∀ outer, Reader.run ⟨.awaiting [], outer⟩ ls = some ⟨.holding waiting e [], outer⟩

theorem Operand.leads {ls : List Lexeme} {a : Expression} (h : Operand ls a) : Leads ls [] a :=
  fun outer => h [] outer

theorem Operand.leads_comparison {ls ms : List Lexeme} {a b : Expression} (ha : Operand ls a)
    (hb : Operand ms b) {op : BinaryOperator} (hop : Operator.binary op ∈ Operator.readable) :
    Leads (ls ++ (Operator.binary op).words.map .word ++ ms) [(a, .binary op)] b := by
  intro outer
  rw [Reader.run_append, Reader.run_append, ha, Option.bind_some, Reader.run_operator hop, Phase.behind]
  exact hb _ _

namespace Leads

variable {ls ms ns : List Lexeme} {waiting : Waiting} {a b c v : Expression} {op : BinaryOperator}

/-- Arithmetic takes the operand in front of it away from a comparison that waits. -/
theorem run_arithmetic (ha : Leads ls waiting a) (hw : ∀ w ∈ waiting, w.2.precedence = 4)
    (hop : Operator.binary op ∈ Operator.readable) (harith : op.isArithmetic = true) (hb : Operand ms b)
    (outer : List (Waiting × Bool)) :
    Reader.run ⟨.awaiting [], outer⟩ (ls ++ (Operator.binary op).words.map .word ++ ms) =
      some ⟨.holding ((a, .binary op) :: waiting) b [], outer⟩ := by
  have hlt : ∀ w ∈ waiting, w.2.precedence < (Operator.binary op).precedence := fun w hmem => by
    rw [hw w hmem]
    exact Operator.precedence_of_isArithmetic harith
  rw [Reader.run_append, Reader.run_append, ha, Option.bind_some, Reader.run_operator hop, Phase.behind,
    reduce_of_lt hlt]
  exact hb _ _

theorem arithmetic (ha : Leads ls waiting a) (hw : ∀ w ∈ waiting, w.2.precedence = 4)
    (hop : Operator.binary op ∈ Operator.readable) (harith : op.isArithmetic = true) (hb : Operand ms b)
    (hv : reduce 0 waiting (a.operate op b) = some ([], v)) :
    Group (ls ++ (Operator.binary op).words.map .word ++ ms) v := by
  intro outer
  refine ⟨_, b, ha.run_arithmetic hw hop harith hb outer, ?_⟩
  rw [reduce_cons (Nat.zero_le _) (Operator.combine_arithmetic harith a b), hv]

/-- A comparison behind arithmetic gives its left operand to it. -/
theorem comparison (ha : Leads ls waiting a) (hw : ∀ w ∈ waiting, w.2.precedence = 4)
    (hop : Operator.binary op ∈ Operator.readable) (harith : op.isArithmetic = true) (hb : Operand ms b)
    {o : BinaryOperator} (ho : Operator.binary o ∈ Operator.readable) (hcomp : o.isComparison = true)
    (hc : Operand ns c) (hv : reduce 4 waiting (a.operate op b) = some ([], v)) :
    Group (ls ++ (Operator.binary op).words.map .word ++ (ms ++ (Operator.binary o).words.map .word ++ ns))
      (.condition (v.compare o c)) := by
  intro outer
  refine ⟨[(v, .binary o)], c, ?_, reduce_cons (Nat.zero_le _) (Operator.combine_comparison hcomp v c)⟩
  have hlevel : 4 ≤ (Operator.binary op).precedence := Nat.le_of_lt (Operator.precedence_of_isArithmetic harith)
  rw [← List.append_assoc, ← List.append_assoc, Reader.run_append, Reader.run_append,
    ha.run_arithmetic hw hop harith hb, Option.bind_some, Reader.run_operator ho, Phase.behind,
    Operator.precedence_of_isComparison hcomp,
    reduce_cons hlevel (Operator.combine_arithmetic harith a b), hv]
  exact hc _ _

end Leads

end Operations

section Compounds

/-- A member of a compound that brings only itself into it. -/
def Joins (op : LogicalOperator) (ls : List Lexeme) (c : Condition) : Prop :=
  Member ls (.condition c) ∧ c.membersFor op = [c]

variable {op : LogicalOperator} {lss : List (List Lexeme)} {cs : List Condition}

theorem mem_readable_logical (op : LogicalOperator) : Operator.logical op ∈ Operator.readable := by
  cases op <;> decide

/-- Further members join the condition in front of them. -/
theorem run_members (h : List.Forall₂ (Joins op) lss cs) (hne : lss ≠ []) (a : Condition)
    (outer : List (Waiting × Bool)) :
    ∃ waiting x, Reader.run ⟨.awaiting [(.condition a, .logical op)], outer⟩
        (((Operator.logical op).words.map .word).intercalate lss) = some ⟨.holding waiting x [], outer⟩ ∧
      reduce 0 waiting x = some ([], .condition (.compound op (a.membersFor op ++ cs))) := by
  -- The condition in front takes in one member after the other.
  induction h generalizing a with
  | nil => exact absurd rfl hne
  | @cons ls c lss cs hc hcs ih =>
    obtain ⟨hmember, hflat⟩ := hc
    have hlow : ∀ w ∈ [(Expression.condition a, Operator.logical op)], w.2.precedence < 4 :=
      List.forall_mem_singleton.mpr (Operator.precedence_logical op)
    obtain ⟨more, x, hrun, hreduce⟩ := hmember _ outer hlow
    have hcompose : ∀ level ≤ (Operator.logical op).precedence,
        reduce level (more ++ [(.condition a, .logical op)]) x = some ([], .condition (a.compose op c)) :=
      fun level hl => (hreduce level (Nat.le_trans hl (Nat.le_of_lt (Operator.precedence_logical op)))).trans
        (reduce_cons hl rfl)
    cases hcs with
    | nil =>
      rw [List.intercalate_singleton]
      refine ⟨_, x, hrun, (hcompose 0 (Nat.zero_le _)).trans ?_⟩
      rw [Condition.compose, hflat]
    | cons hd hds =>
      obtain ⟨waiting, y, hrest, hvalue⟩ := ih (List.cons_ne_nil _ _) (a.compose op c)
      refine ⟨waiting, y, ?_, ?_⟩
      · rw [List.intercalate_cons_cons, Reader.run_append, Reader.run_append, hrun, Option.bind_some,
          Reader.run_operator (mem_readable_logical op), Phase.behind, hcompose _ (Nat.le_refl _)]
        exact hrest
      · rw [hvalue, Condition.membersFor_compose, hflat, List.append_assoc]
        rfl

/-- Members between two parentheses make a compound. -/
theorem group_compound {ls : List Lexeme} {c : Condition} (hc : Joins op ls c)
    (h : List.Forall₂ (Joins op) lss cs) (hne : lss ≠ []) :
    Group (((Operator.logical op).words.map .word).intercalate (ls :: lss))
      (.condition (.compound op (c :: cs))) := by
  intro outer
  obtain ⟨hmember, hflat⟩ := hc
  obtain ⟨more, x, hrun, hreduce⟩ := hmember [] outer nofun
  obtain ⟨waiting, y, hrest, hvalue⟩ := run_members h hne c outer
  rw [hflat] at hvalue
  refine ⟨waiting, y, ?_, hvalue⟩
  obtain ⟨ms, lss, rfl⟩ := List.exists_cons_of_ne_nil hne
  rw [List.append_nil] at hrun hreduce
  rw [List.intercalate_cons_cons, Reader.run_append, Reader.run_append, hrun, Option.bind_some,
    Reader.run_operator (mem_readable_logical op), Phase.behind,
    hreduce _ (Nat.le_of_lt (Operator.precedence_logical op))]
  exact hrest

end Compounds

end Reading
end GraphQuery
