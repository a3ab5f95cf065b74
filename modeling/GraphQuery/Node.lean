import GraphQuery.Condition
import GraphQuery.Expression.Checked
import GraphQuery.Expression.Map

/-! Nodes: how they are made, and what can be said about a node that has a name. -/
namespace GraphQuery

namespace Node

def any : Node := ⟨none, [], none⟩

def create (primary : String) (additional : List String) : Except ArgumentError Node :=
  if h : primary = "" then .error .primaryLabelMissing
  else (additional.mapM Label.ofString).map fun labels => ⟨none, ⟨primary, h⟩ :: labels, none⟩

def named (n : Node) (name : String) : Except ArgumentError Node :=
  (Identifier.symbolic name).map fun name => { n with name := some name }

def withProperties (n : Node) (map : MapExpression) : Node := { n with properties := some map }

/-- Properties from alternating keys and values; an empty list takes the properties away. -/
def setProperties (n : Node) (arguments : List MapArgument) : Except ArgumentError Node :=
  (MapExpression.properties arguments).map fun map => { n with properties := map }

def requiredName (n : Node) : Except ArgumentError Identifier :=
  match n.name with
  | some name => .ok name
  | none => .error .nodeUnnamed

def property (n : Node) (key : String) : Except ArgumentError Expression := do
  Expression.lookup (.variable (← n.requiredName)) key

def hasLabels (n : Node) (labels : List String) : Except ArgumentError Condition := do
  Condition.withLabels (← n.requiredName) labels

def changeLabels (n : Node) (change : LabelChange) (labels : List String) :
    Except ArgumentError Operation := do
  let target ← n.requiredName
  return .labels target change (← Label.ofStrings labels)

example : ((create "Person" ["Actor"]).toOption.map fun n => n.labels.map Label.text) =
    some ["Person", "Actor"] := by decide
example : (any.property "").toOption.isNone := by decide

end Node
end GraphQuery
