import GraphQuery.Operator

/-! The names of the operators, as opposed to their symbols. No two operators of one kind share a
name, and every name leads back to its operator. -/
namespace GraphQuery

namespace BinaryOperator

def all : List BinaryOperator :=
  [addition, subtraction, multiplication, division, modulo, exponent, concat, equality, inequality,
   lessThan, lessThanOrEqual, greaterThan, greaterThanOrEqual, matching, startsWith, endsWith,
   contains, within, assign, addLabels, removeLabels]

def name : BinaryOperator → String
  | addition => "Addition"
  | subtraction => "Subtraction"
  | multiplication => "Multiplication"
  | division => "Division"
  | modulo => "Modulo"
  | exponent => "Exponent"
  | concat => "Concat"
  | equality => "Equality"
  | inequality => "Inequality"
  | lessThan => "LessThan"
  | lessThanOrEqual => "LessThanOrEqualTo"
  | greaterThan => "GreaterThan"
  | greaterThanOrEqual => "GreaterThanOrEqualTo"
  | matching => "Matches"
  | startsWith => "StartsWith"
  | endsWith => "EndsWith"
  | contains => "Contains"
  | within => "In"
  | assign => "Set"
  | addLabels => "SetLabel"
  | removeLabels => "RemoveLabel"

def ofName? (s : String) : Option BinaryOperator := all.find? fun op => op.name == s

@[simp] theorem ofName?_name (op : BinaryOperator) : ofName? op.name = some op := by
  cases op <;> decide

end BinaryOperator

namespace UnaryOperator

def all : List UnaryOperator := [not, isNull, isNotNull]

def name : UnaryOperator → String
  | not => "Not"
  | isNull => "IsNull"
  | isNotNull => "IsNotNull"

def ofName? (s : String) : Option UnaryOperator := all.find? fun op => op.name == s

@[simp] theorem ofName?_name (op : UnaryOperator) : ofName? op.name = some op := by
  cases op <;> decide

end UnaryOperator

namespace LogicalOperator

def all : List LogicalOperator := [and, or, xor]

def name : LogicalOperator → String
  | and => "And"
  | or => "Or"
  | xor => "Xor"

def ofName? (s : String) : Option LogicalOperator := all.find? fun op => op.name == s

@[simp] theorem ofName?_name (op : LogicalOperator) : ofName? op.name = some op := by
  cases op <;> decide

end LogicalOperator

end GraphQuery
