import GraphQuery.Literal
import GraphQuery.Operator
import GraphQuery.Parameter

/-! The syntax of values: expressions, conditions, operations, maps and nodes. A node can stand
in an expression and its properties are expressions, so these types are defined together. -/
namespace GraphQuery

/-- The label of a node. -/
structure Label where
  text : String
  nonempty : text ≠ ""
  deriving DecidableEq

/-- What an operation does to the labels of a node. -/
inductive LabelChange where
  | add
  | remove
  deriving DecidableEq, Repr

def LabelChange.operator : LabelChange → BinaryOperator
  | .add => .addLabels
  | .remove => .removeLabels

mutual

inductive Expression where
  | literal (value : Literal)
  | variable (name : Identifier)
  | parameter (parameter : Parameter)
  | property (subject : Expression) (key : String)
  | function (name : String) (arguments : List Expression)
  | operation (operation : Operation)
  | condition (condition : Condition)
  | aliased (expression : Expression) (name : Identifier)
  | map (map : MapExpression)
  | list (elements : List Expression)
  | node (node : Node)
  | asterisk

/-- Operations that are not truth values: arithmetic, assignments and changes of labels. -/
inductive Operation where
  | binary (left : Expression) (op : BinaryOperator) (right : Expression)
  | labels (target : Identifier) (change : LabelChange) (labels : List Label)

/-- An operator between two operands makes a comparison, and one behind its only operand a test. -/
inductive Condition where
  | comparison (left : Expression) (op : BinaryOperator) (right : Expression)
  | test (operand : Expression) (op : UnaryOperator) (after : op.placement = .after)
  | compound (op : LogicalOperator) (members : List Condition)
  | not (condition : Condition)
  | hasLabels (name : Identifier) (labels : List Label)

structure MapEntry where
  key : String
  value : Expression

structure MapExpression where
  entries : List MapEntry

structure Node where
  name : Option Identifier
  labels : List Label
  properties : Option MapExpression

end

namespace Operation

def operator : Operation → BinaryOperator
  | .binary _ op _ => op
  | .labels _ change _ => change.operator

end Operation

mutual

/-- Equality of expressions, in which the float zeros are equal. -/
def Expression.same : Expression → Expression → Bool
  | .literal a, .literal b => a.same b
  | .variable a, .variable b => a == b
  | .parameter a, .parameter b => a.same b
  | .property a k, .property b l => a.same b && k == l
  | .function f as, .function g bs => f == g && sameExpressions as bs
  | .operation a, .operation b => a.same b
  | .condition a, .condition b => a.same b
  | .aliased a n, .aliased b m => a.same b && n == m
  | .map a, .map b => a.same b
  | .list as, .list bs => sameExpressions as bs
  | .node a, .node b => a.same b
  | .asterisk, .asterisk => true
  | _, _ => false
termination_by structural x => x

def Operation.same : Operation → Operation → Bool
  | .binary a o b, .binary c p d => a.same c && o == p && b.same d
  | .labels n c ls, .labels m d ms => n == m && c == d && ls == ms
  | _, _ => false
termination_by structural x => x

def Condition.same : Condition → Condition → Bool
  | .comparison a o b, .comparison c p d => a.same c && o == p && b.same d
  | .test a o _, .test b p _ => a.same b && o == p
  | .compound o as, .compound p bs => o == p && sameConditions as bs
  | .not a, .not b => a.same b
  | .hasLabels n ls, .hasLabels m ms => n == m && ls == ms
  | _, _ => false
termination_by structural x => x

def MapEntry.same : MapEntry → MapEntry → Bool
  | ⟨k, a⟩, ⟨l, b⟩ => k == l && a.same b
termination_by structural x => x

def MapExpression.same : MapExpression → MapExpression → Bool
  | ⟨as⟩, ⟨bs⟩ => sameEntries as bs
termination_by structural x => x

def Node.same : Node → Node → Bool
  | ⟨n, ls, as⟩, ⟨m, ms, bs⟩ => n == m && ls == ms && sameProperties as bs
termination_by structural x => x

def sameExpressions : List Expression → List Expression → Bool
  | [], [] => true
  | a :: as, b :: bs => a.same b && sameExpressions as bs
  | _, _ => false
termination_by structural x => x

def sameConditions : List Condition → List Condition → Bool
  | [], [] => true
  | a :: as, b :: bs => a.same b && sameConditions as bs
  | _, _ => false
termination_by structural x => x

def sameEntries : List MapEntry → List MapEntry → Bool
  | [], [] => true
  | a :: as, b :: bs => a.same b && sameEntries as bs
  | _, _ => false
termination_by structural x => x

def sameProperties : Option MapExpression → Option MapExpression → Bool
  | none, none => true
  | some a, some b => a.same b
  | _, _ => false
termination_by structural x => x

end


example : (Expression.list [.literal .null, .asterisk]).same (.list [.literal .null, .asterisk]) := by decide
example : ¬ (Expression.asterisk).same (.list []) := by decide

end GraphQuery
