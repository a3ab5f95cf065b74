import GraphQuery.Condition
import GraphQuery.Expression.Checked
import GraphQuery.Proofs.Reading.Lexemes

/-! A reader of written expressions. It goes through the lexemes once. An operand waits with the
operator behind it until an operator comes that does not bind more tightly, so of operators that bind
equally the left one comes first. A parenthesis puts aside what waits outside of it. -/
namespace GraphQuery

namespace Operator

/-- The words of the symbol. -/
def words : Operator → List String
  | .binary .startsWith => ["STARTS", "WITH"]
  | .binary .endsWith => ["ENDS", "WITH"]
  | .unary .isNull => ["IS", "NULL"]
  | .unary .isNotNull => ["IS", "NOT", "NULL"]
  | op => [op.symbol]

/-- The operators that stand between two operands or behind one, each known by its symbol. Strings are
joined by the symbol of the addition, which is read as the addition. -/
def readable : List Operator :=
  [.binary .addition, .binary .subtraction, .binary .multiplication, .binary .division, .binary .modulo,
    .binary .exponent, .binary .equality, .binary .inequality, .binary .lessThan, .binary .lessThanOrEqual,
    .binary .greaterThan, .binary .greaterThanOrEqual, .binary .matching, .binary .startsWith,
    .binary .endsWith, .binary .contains, .binary .within, .unary .isNull, .unary .isNotNull, .logical .and,
    .logical .or, .logical .xor]

/-- An operator between two operands. -/
def combine (op : Operator) (a b : Expression) : Option Expression :=
  match op with
  | .binary op => some (if op.isComparison then .condition (a.compare op b) else a.operate op b)
  | .logical op =>
    match a, b with
    | .condition c, .condition d => some (.condition (c.compose op d))
    | _, _ => none
  | .unary _ => none

end Operator

namespace Reading

/-- Operands with the operators behind them, the last one first. -/
abbrev Waiting := List (Expression × Operator)

/-- Combine what waits, as far as its operators bind at least as tightly as the level. -/
def reduce (level : Nat) : Waiting → Expression → Option (Waiting × Expression)
  | [], e => some ([], e)
  | (a, op) :: waiting, e =>
    if level ≤ op.precedence then (op.combine a e).bind (reduce level waiting)
    else some ((a, op) :: waiting, e)

def naturalOf? (cs : List Char) : Option Nat :=
  if cs ≠ [] ∧ cs.all Char.isDigit then some (Nat.ofDigitChars 10 cs 0) else none

def integerOf? (w : String) : Option Int :=
  match w.toList with
  | '-' :: cs => (naturalOf? cs).map fun n => -Int.ofNat n
  | cs => (naturalOf? cs).map Int.ofNat

/-- A word in the place of an operand. -/
def operandOf? (w : String) : Option Expression :=
  match Identifier.ofString? w with
  | some n => some (.variable n)
  | none => (integerOf? w).map fun i => .literal (.integer (Int64.ofInt i))

def operatorOf? (ws : List String) : Option Operator := Operator.readable.find? fun op => op.words == ws

/-- An operand is awaited, or one is held with the words that are read behind it. -/
inductive Phase where
  | awaiting (waiting : Waiting)
  | holding (waiting : Waiting) (operand : Expression) (words : List String)

/-- What waits outside of each open parenthesis, and whether the parenthesis is negated. -/
structure Reader where
  phase : Phase
  outer : List (Waiting × Bool)

/-- An operator behind an operand. -/
def Phase.behind (op : Operator) (waiting : Waiting) (e : Expression) : Option Phase :=
  (reduce op.precedence waiting e).bind fun r =>
    match op with
    | .unary op => if h : op.placement = .after then some (.holding r.1 (.condition (.test r.2 op h)) []) else none
    | op => some (.awaiting ((r.2, op) :: r.1))

/-- A label behind a name or behind other labels. -/
def labelled (l : Label) : Expression → Option Expression
  | .variable n => some (.condition (.hasLabels n [l]))
  | .condition (.hasLabels n ls) => some (.condition (.hasLabels n (ls ++ [l])))
  | _ => none

/-- What a parenthesis holds, negated or not. -/
def enclosed : Bool → Expression → Option Expression
  | false, e => some e
  | true, .condition c => some (.condition (.not c))
  | true, _ => none

namespace Reader

def start : Reader := ⟨.awaiting [], []⟩

def word (w : String) : Reader → Option Reader
  | ⟨.awaiting waiting, outer⟩ => (operandOf? w).map fun e => ⟨.holding waiting e [], outer⟩
  | ⟨.holding waiting e ws, outer⟩ =>
    match operatorOf? (ws ++ [w]) with
    | some op => (Phase.behind op waiting e).map (⟨·, outer⟩)
    | none => some ⟨.holding waiting e (ws ++ [w]), outer⟩

def string (s : String) : Reader → Option Reader
  | ⟨.awaiting waiting, outer⟩ => some ⟨.holding waiting (.literal (.string s)) [], outer⟩
  | _ => none

def name (s : String) : Reader → Option Reader
  | ⟨.holding waiting e [], outer⟩ =>
    if h : s = "" then none else (labelled ⟨s, h⟩ e).map fun e => ⟨.holding waiting e [], outer⟩
  | _ => none

/-- A parenthesis stands in the place of an operand, and behind the word NOT in any case. -/
def opening : Reader → Option Reader
  | ⟨.awaiting waiting, outer⟩ => some ⟨.awaiting [], (waiting, false) :: outer⟩
  | ⟨.holding waiting (.variable n) [], outer⟩ =>
    if n.text = "NOT" then some ⟨.awaiting [], (waiting, true) :: outer⟩ else none
  | _ => none

def closing : Reader → Option Reader
  | ⟨.holding waiting e [], (before, negated) :: outer⟩ =>
    (reduce 0 waiting e).bind fun r => (enclosed negated r.2).map fun e => ⟨.holding before e [], outer⟩
  | _ => none

def step (r : Reader) : Lexeme → Option Reader
  | .word w => r.word w
  | .string s => r.string s
  | .name s => r.name s
  | .opening => r.opening
  | .closing => r.closing

def run (r : Reader) (ls : List Lexeme) : Option Reader := ls.foldlM step r

/-- The expression, if the text ends here. -/
def finish : Reader → Option Expression
  | ⟨.holding waiting e [], []⟩ => (reduce 0 waiting e).map Prod.snd
  | _ => none

@[simp] theorem run_nil (r : Reader) : r.run [] = some r := rfl

@[simp] theorem run_cons (r : Reader) (l : Lexeme) (ls : List Lexeme) :
    r.run (l :: ls) = (r.step l).bind fun s => s.run ls := rfl

theorem run_append (r : Reader) (ls ms : List Lexeme) :
    r.run (ls ++ ms) = (r.run ls).bind fun s => s.run ms := List.foldlM_append

end Reader

/-- The expression that a text is read as. -/
def read (t : String) : Option Expression :=
  (lexemes t).bind fun ls => (Reader.start.run ls).bind Reader.finish

end Reading

namespace Operator

theorem intercalate_words (op : Operator) : " ".intercalate op.words = op.symbol := by
  cases op with
  | binary op => cases op <;> rfl
  | unary op => cases op <;> rfl
  | logical op => cases op <;> rfl

theorem isWord_of_readable : ∀ op ∈ readable, ∀ w ∈ op.words, Reading.IsWord w := by decide

/-- No operator is known by the first words of another one. -/
theorem operatorOf?_words : ∀ op ∈ readable, Reading.operatorOf? op.words = some op ∧
    ∀ i < op.words.length, 0 < i → Reading.operatorOf? (op.words.take i) = none := by decide +kernel

end Operator

namespace Reading

theorem operandOf?_text (n : Identifier) : operandOf? n.text = some (.variable n) := by
  rw [operandOf?, Identifier.ofString?_text]

theorem naturalOf?_toDigits (n : Nat) : naturalOf? (Nat.toDigits 10 n) = some n := by
  have hdigits : (Nat.toDigits 10 n).all Char.isDigit = true :=
    List.all_eq_true.mpr fun c hc => Nat.isDigit_of_mem_toDigits (by decide) (by decide) hc
  rw [naturalOf?, if_pos ⟨Nat.toDigits_ne_nil, hdigits⟩, Nat.ofDigitChars_ten_toDigits]

theorem integerOf?_toString (i : Int) : integerOf? (toString i) = some i := by
  rw [Int.toString_eq_repr, Int.repr_eq_if]
  by_cases h : 0 ≤ i
  · rw [if_pos h, integerOf?, Nat.toList_repr]
    split
    · next cs hcs =>
      have hminus : '-'.isDigit = true :=
        Nat.isDigit_of_mem_toDigits (b := 10) (by decide) (by decide) (hcs ▸ List.mem_cons_self)
      exact absurd hminus (by decide)
    · rw [naturalOf?_toDigits, Option.map_some, Int.ofNat_eq_natCast, Int.toNat_of_nonneg h]
  · have hlist : ("-" ++ (-i).toNat.repr).toList = '-' :: Nat.toDigits 10 (-i).toNat := by
      rw [String.toList_append, Nat.toList_repr]
      rfl
    rw [if_neg h, integerOf?, hlist]
    simp only [naturalOf?_toDigits, Option.map_some, Int.ofNat_eq_natCast]
    rw [Int.toNat_of_nonneg (by omega), Int.neg_neg]

theorem isNameStart_of_isNumeral {c : Char} (h : Text.isNumeral c = true) : Text.isNameStart c = false := by
  have hmem : c.toNat ∈ [45, 46, 48, 49, 50, 51, 52, 53, 54, 55, 56, 57] := by
    simp only [Text.isNumeral, Bool.or_eq_true, beq_iff_eq] at h
    obtain (h | rfl) | rfl := h
    · have hdigit : 48 ≤ c.toNat ∧ c.toNat ≤ 57 := Char.isDigit_iff_toNat.mp h
      simp only [List.mem_cons, List.not_mem_nil, or_false]
      omega
    · decide
    · decide
  have hall : ∀ n ∈ [45, 46, 48, 49, 50, 51, 52, 53, 54, 55, 56, 57],
      Text.isNameStart (Char.ofNat n) = false := by decide +kernel
  have hc := hall _ hmem
  rwa [Char.ofNat_toNat] at hc

/-- A number is no identifier. -/
theorem operandOf?_toString (i : Int64) :
    operandOf? (toString i.toInt) = some (.literal (.integer i)) := by
  have hnone : Identifier.ofString? (toString i.toInt) = none := by
    refine dif_neg fun hid => ?_
    obtain ⟨c, cs, hcs⟩ := List.exists_cons_of_ne_nil fun hn =>
      (isWord_toString i.toInt).1 (String.toList_eq_nil_iff.mp hn)
    have hstart : Text.isNameStart c = false :=
      isNameStart_of_isNumeral (Text.isNumeral_of_mem_toString_int (hcs ▸ List.mem_cons_self))
    rw [Text.isIdentifier, hcs] at hid
    simp [hstart] at hid
  rw [operandOf?, hnone, integerOf?_toString]
  exact congrArg some (congrArg (fun j => Expression.literal (.integer j)) (Int64.ofInt_toInt i))

example : (read "a = (b + c)").any (Expression.same (.condition (.comparison
    (.variable ⟨"a", by decide +kernel⟩) .equality
    (.operation (.binary (.variable ⟨"b", by decide +kernel⟩) .addition
      (.variable ⟨"c", by decide +kernel⟩)))))) := by decide +kernel

end Reading
end GraphQuery
