import GraphQuery.Expression

/-! Variables, properties and aliases, each with its check, and the assignment. -/
namespace GraphQuery

namespace Expression

def ofName (name : String) : Except ArgumentError Expression :=
  (Identifier.symbolic name).map .variable

/-- A named node is referred to by its name; any other stands for itself. -/
def ofNode (n : Node) : Expression :=
  match n.name with
  | some name => .variable name
  | none => .node n

def lookup (subject : Expression) (key : String) : Except ArgumentError Expression :=
  if key = "" then .error .propertyNameMissing else .ok (.property subject key)

/-- The expression without its alias. -/
def bare : Expression → Expression
  | .aliased e _ => e
  | e => e

/-- Give an alias, in exchange for an alias that the expression has. -/
def as (e : Expression) (name : String) : Except ArgumentError Expression :=
  if name = "" then .error .aliasMissing
  else (Identifier.symbolic name).map (.aliased e.bare)

def operate (a : Expression) (op : BinaryOperator) (b : Expression) : Expression :=
  .operation (.binary a op b)

end Expression

/-- The assignment of a value to a target. -/
def Operation.assign (target value : Expression) : Operation := .binary target .assign value

end GraphQuery
