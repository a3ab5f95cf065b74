import GraphQuery.Expression

/-! Conditions: checked comparisons, label tests and the logical connectives. A chain of one
connective is kept flat. -/
namespace GraphQuery

namespace Label

def ofString (s : String) : Except ArgumentError Label :=
  if h : s = "" then .error .labelEmpty else .ok ⟨s, h⟩

/-- At least one label, and none of them empty. -/
def ofStrings (labels : List String) : Except ArgumentError (List Label) :=
  if labels.isEmpty then .error .labelsMissing else labels.mapM ofString

end Label

namespace Condition

/-- A comparison whose operands suit its operator: two around an operator that stands between
them, one before an operator that stands behind it. -/
def create (left : Option Expression) (op : Option Comparator) (right : Option Expression) :
    Except ArgumentError Condition :=
  match left, op with
  | none, _ => .error .leftOperandMissing
  | some _, none => .error .operatorMissing
  | some l, some (.binary op) =>
    if op.placement = .between then
      match right with
      | some r => .ok (.comparison l op r)
      | none => .error .rightOperandMissing
    else .error (.operatorNotComparing op.symbol)
  | some l, some (.unary op) =>
    if after : op.placement = .after then
      match right with
      | some _ => .error (.rightOperandRefused op.symbol)
      | none => .ok (.test l op after)
    else .error (.operatorNotComparing op.symbol)

/-- The members that a condition brings into a compound of the operator. -/
def membersFor (op : LogicalOperator) : Condition → List Condition
  | .compound o members => if o = op then members else [.compound o members]
  | c => [c]

def compose (op : LogicalOperator) (a b : Condition) : Condition :=
  .compound op (a.membersFor op ++ b.membersFor op)

def and (a b : Condition) : Condition := compose .and a b

def or (a b : Condition) : Condition := compose .or a b

def xor (a b : Condition) : Condition := compose .xor a b

/-- The condition that a name has all the labels. -/
def withLabels (name : Identifier) (labels : List String) : Except ArgumentError Condition :=
  (Label.ofStrings labels).map (.hasLabels name)

@[simp] theorem membersFor_compose (op : LogicalOperator) (a b : Condition) :
    (compose op a b).membersFor op = a.membersFor op ++ b.membersFor op := by
  simp [compose, membersFor]

theorem compose_assoc (op : LogicalOperator) (a b c : Condition) :
    compose op (compose op a b) c = compose op a (compose op b c) := by
  simp only [compose, membersFor, if_true, List.append_assoc]

end Condition

namespace Expression

def compare (a : Expression) (op : BinaryOperator) (b : Expression) : Condition :=
  .comparison a op b

def isNull (a : Expression) : Condition := .test a .isNull rfl

def isNotNull (a : Expression) : Condition := .test a .isNotNull rfl

def isTrue (a : Expression) : Condition := a.compare .equality (.literal (.boolean true))

def isFalse (a : Expression) : Condition := a.compare .equality (.literal (.boolean false))

/-- The size is zero. -/
def isEmpty (a : Expression) : Condition :=
  (function "size" [a]).compare .equality (.literal (.integer 0))

end Expression
end GraphQuery
