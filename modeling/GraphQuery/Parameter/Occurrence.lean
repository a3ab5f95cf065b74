import GraphQuery.Statement

/-! The parameters that occur in a statement, from left to right and as often as they occur. A
node between two relationships of a chain belongs to both of them. -/
namespace GraphQuery

mutual

def Expression.parameters : Expression → List Parameter
  | .literal _ => []
  | .variable _ => []
  | .parameter p => [p]
  | .property e _ => e.parameters
  | .function _ es => parametersOfAll es
  | .operation o => o.parameters
  | .condition c => c.parameters
  | .aliased e _ => e.parameters
  | .map m => m.parameters
  | .list es => parametersOfAll es
  | .node n => n.parameters
  | .asterisk => []
termination_by structural x => x

def Operation.parameters : Operation → List Parameter
  | .binary a _ b => a.parameters ++ b.parameters
  | .labels .. => []
termination_by structural x => x

def Condition.parameters : Condition → List Parameter
  | .comparison a _ b => a.parameters ++ b.parameters
  | .test a .. => a.parameters
  | .compound _ cs => parametersOfMembers cs
  | .not c => c.parameters
  | .hasLabels .. => []
termination_by structural x => x

def MapEntry.parameters : MapEntry → List Parameter
  | ⟨_, e⟩ => e.parameters
termination_by structural x => x

def MapExpression.parameters : MapExpression → List Parameter
  | ⟨entries⟩ => parametersOfEntries entries
termination_by structural x => x

def Node.parameters : Node → List Parameter
  | ⟨_, _, m⟩ => parametersOfProperties m
termination_by structural x => x

def parametersOfAll : List Expression → List Parameter
  | [] => []
  | e :: rest => e.parameters ++ parametersOfAll rest
termination_by structural x => x

def parametersOfMembers : List Condition → List Parameter
  | [] => []
  | c :: rest => c.parameters ++ parametersOfMembers rest
termination_by structural x => x

def parametersOfEntries : List MapEntry → List Parameter
  | [] => []
  | e :: rest => e.parameters ++ parametersOfEntries rest
termination_by structural x => x

def parametersOfProperties : Option MapExpression → List Parameter
  | none => []
  | some m => m.parameters
termination_by structural x => x

end

@[simp] theorem parametersOfAll_eq_flatMap (es : List Expression) :
    parametersOfAll es = es.flatMap Expression.parameters := by
  induction es with
  | nil => rfl
  | cons e es ih => simp [parametersOfAll, ih]

def Relationship.parameters (r : Relationship) : List Parameter :=
  r.left.parameters ++ parametersOfProperties r.detail.properties ++ r.right.parameters

def PatternElement.parameters : PatternElement → List Parameter
  | .node n => n.parameters
  | .relationship r => r.parameters
  | .chain c => c.relationships.flatMap Relationship.parameters

def Pattern.parameters (p : Pattern) : List Parameter := p.elements.flatMap PatternElement.parameters

namespace Clause

def parametersOfFilter (filter : Option Condition) : List Parameter :=
  filter.toList.flatMap Condition.parameters

def parametersOfBody (b : Projection) : List Parameter :=
  b.items.flatMap Expression.parameters ++
    (b.order.getD []).flatMap fun item => item.expression.parameters

def parameters : Clause → List Parameter
  | .matching m => m.pattern.parameters ++ parametersOfFilter m.filter
  | .creating p => p.parameters
  | .merging p => p.parameters
  | .deleting _ items => items.flatMap Expression.parameters
  | .setting items => items.flatMap Expression.parameters
  | .removing items => items.flatMap Expression.parameters
  | .unwinding e _ => e.parameters
  | .passing w => parametersOfBody w.body ++ parametersOfFilter w.filter
  | .returning b => parametersOfBody b

end Clause

def Query.parameters (q : Query) : List Parameter := q.clauses.flatMap Clause.parameters

namespace Statement

def parameters : Statement → List Parameter
  | .single q => q.parameters
  | .union _ parts => parts.flatMap Query.parameters

/-- The names of the named parameters, each once, in the order of first occurrence. -/
def parameterNames (s : Statement) : List String :=
  (s.parameters.filterMap fun p => p.name?.map Identifier.text).eraseDups

end Statement
end GraphQuery
