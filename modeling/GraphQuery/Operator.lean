/-! Operators: their symbols, how tightly they bind and where they stand. -/
namespace GraphQuery

/-- Where an operator stands. An assignment is written like an operator between two operands,
and label operators are not written at all, since the labels bring their own colons. -/
inductive Placement where
  | between
  | before
  | after
  | assignment
  | attached
  deriving DecidableEq, Repr

inductive BinaryOperator where
  | addition
  | subtraction
  | multiplication
  | division
  | modulo
  | exponent
  | concat
  | equality
  | inequality
  | lessThan
  | lessThanOrEqual
  | greaterThan
  | greaterThanOrEqual
  | matching
  | startsWith
  | endsWith
  | contains
  | within
  | assign
  | addLabels
  | removeLabels
  deriving DecidableEq, Repr

namespace BinaryOperator

/-- The operators whose result is a truth value. -/
def isComparison : BinaryOperator → Bool
  | equality | inequality | lessThan | lessThanOrEqual | greaterThan | greaterThanOrEqual
  | matching | startsWith | endsWith | contains | within => true
  | _ => false

/-- The operators on numbers and strings. -/
def isArithmetic : BinaryOperator → Bool
  | addition | subtraction | multiplication | division | modulo | exponent | concat => true
  | _ => false

def symbol : BinaryOperator → String
  | addition => "+"
  | subtraction => "-"
  | multiplication => "*"
  | division => "/"
  | modulo => "%"
  | exponent => "^"
  | concat => "+"
  | equality => "="
  | inequality => "<>"
  | lessThan => "<"
  | lessThanOrEqual => "<="
  | greaterThan => ">"
  | greaterThanOrEqual => ">="
  | matching => "=~"
  | startsWith => "STARTS WITH"
  | endsWith => "ENDS WITH"
  | contains => "CONTAINS"
  | within => "IN"
  | assign => "="
  | addLabels | removeLabels => ""

/-- A larger number binds more tightly. -/
def precedence : BinaryOperator → Nat
  | addLabels | removeLabels => 10
  | exponent => 8
  | multiplication | division | modulo => 7
  | addition | subtraction | concat => 6
  | assign => 1
  | _ => 4

def placement : BinaryOperator → Placement
  | assign => .assignment
  | addLabels | removeLabels => .attached
  | _ => .between

theorem precedence_of_isComparison {op : BinaryOperator} (h : op.isComparison = true) :
    op.precedence = 4 := by
  cases op <;> simp_all [isComparison, precedence]

end BinaryOperator

inductive UnaryOperator where
  | not
  | isNull
  | isNotNull
  deriving DecidableEq, Repr

namespace UnaryOperator

def symbol : UnaryOperator → String
  | not => "NOT"
  | isNull => "IS NULL"
  | isNotNull => "IS NOT NULL"

def precedence : UnaryOperator → Nat
  | not => 5
  | isNull | isNotNull => 4

def placement : UnaryOperator → Placement
  | not => .before
  | isNull | isNotNull => .after

end UnaryOperator

inductive LogicalOperator where
  | and
  | or
  | xor
  deriving DecidableEq, Repr

namespace LogicalOperator

def symbol : LogicalOperator → String
  | and => "AND"
  | or => "OR"
  | xor => "XOR"

def precedence : LogicalOperator → Nat
  | and => 3
  | or | xor => 2

end LogicalOperator

/-- Any operator. -/
inductive Operator where
  | binary (op : BinaryOperator)
  | unary (op : UnaryOperator)
  | logical (op : LogicalOperator)
  deriving DecidableEq, Repr

namespace Operator

def symbol : Operator → String
  | binary op => op.symbol
  | unary op => op.symbol
  | logical op => op.symbol

def precedence : Operator → Nat
  | binary op => op.precedence
  | unary op => op.precedence
  | logical op => op.precedence

def placement : Operator → Placement
  | binary op => op.placement
  | unary op => op.placement
  | logical _ => .between

/-- The operator with the blanks of its placement. -/
def text (op : Operator) : String :=
  match op.placement with
  | .attached => ""
  | .before => op.symbol ++ " "
  | .after => " " ++ op.symbol
  | .between | .assignment => " " ++ op.symbol ++ " "

end Operator

/-- The operators that a comparison may hold. -/
inductive Comparator where
  | binary (op : BinaryOperator)
  | unary (op : UnaryOperator)
  deriving DecidableEq, Repr

namespace Comparator

def toOperator : Comparator → Operator
  | binary op => .binary op
  | unary op => .unary op

def symbol (c : Comparator) : String := c.toOperator.symbol

def precedence (c : Comparator) : Nat := c.toOperator.precedence

def placement (c : Comparator) : Placement := c.toOperator.placement

end Comparator

example : (Operator.unary .isNotNull).text = " IS NOT NULL" := rfl
example : (Operator.logical .and).precedence < (Operator.binary .equality).precedence := by decide
example : (Operator.binary .equality).precedence < (Operator.unary .not).precedence := by decide

end GraphQuery
