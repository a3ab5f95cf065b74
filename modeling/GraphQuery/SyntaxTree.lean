import GraphQuery.Statement

/-! Statements as trees. Every node of the tree is a construct of the query language with the
text and the flags of its own; the parts that have constructs of their own are its children, in
the order in which they are written. -/
namespace GraphQuery

inductive Construct where
  | statement
  | singleQuery
  | unionPart (all : Bool)
  | matching (optional : Bool)
  | filter
  | creating
  | merging
  | deleting (detach : Bool)
  | setting
  | removing
  | unwinding (name : Identifier)
  | passing (distinct : Bool)
  | returning (distinct : Bool)
  | order
  | sortItem
  | sortDirection (direction : SortDirection)
  | skip (count : UInt64)
  | limit (count : UInt64)
  | pattern
  | expressionList
  | node (name : Option Identifier)
  | nodeLabel (label : Label)
  | properties
  | relationship
  | relationshipChain
  | relationshipDetail (direction : Direction)
  | relationshipTypes (types : List String)
  | relationshipLength (range : LengthRange)
  | literal (value : Literal)
  | symbolicName (name : Identifier)
  | parameter (parameter : Parameter)
  | propertyLookup (key : String)
  | function (name : String)
  | operation (op : BinaryOperator)
  | operator (op : Operator)
  | aliased (expression : Expression) (name : Identifier)
  | map
  | mapEntry (key : String)
  | list
  | asterisk
  | comparison (op : Comparator)
  | compound (op : LogicalOperator)
  | not
  | hasLabels

namespace Construct

/-- The name of the kind of construct. -/
def kind : Construct → String
  | statement => "Statement"
  | singleQuery => "SingleQuery"
  | unionPart _ => "UnionPart"
  | matching _ => "Match"
  | filter => "Where"
  | creating => "Create"
  | merging => "Merge"
  | deleting _ => "Delete"
  | setting => "Set"
  | removing => "Remove"
  | unwinding _ => "Unwind"
  | passing _ => "With"
  | returning _ => "Return"
  | order => "Order"
  | sortItem => "SortItem"
  | sortDirection _ => "SortDirection"
  | skip _ => "Skip"
  | limit _ => "Limit"
  | pattern => "Pattern"
  | expressionList => "ExpressionList"
  | node _ => "Node"
  | nodeLabel _ => "NodeLabel"
  | properties => "Properties"
  | relationship => "Relationship"
  | relationshipChain => "RelationshipChain"
  | relationshipDetail _ => "RelationshipDetail"
  | relationshipTypes _ => "RelationshipTypes"
  | relationshipLength _ => "RelationshipLength"
  | literal _ => "Literal"
  | symbolicName _ => "SymbolicName"
  | parameter _ => "Parameter"
  | propertyLookup _ => "PropertyLookup"
  | function _ => "FunctionInvocation"
  | operation _ => "Operation"
  | operator _ => "Operator"
  | aliased .. => "Aliased"
  | map => "Map"
  | mapEntry _ => "MapEntry"
  | list => "List"
  | asterisk => "Asterisk"
  | comparison _ => "Comparison"
  | compound _ => "CompoundCondition"
  | not => "Not"
  | hasLabels => "HasLabels"

/-- The constructs whose children are separated by commas. -/
def isSeparated : Construct → Bool
  | pattern | expressionList | order | map | list | function _ => true
  | _ => false

end Construct

inductive SyntaxTree where
  | branch (construct : Construct) (children : List SyntaxTree)

namespace SyntaxTree

def construct : SyntaxTree → Construct
  | branch c _ => c

def children : SyntaxTree → List SyntaxTree
  | branch _ ts => ts

def leaf (c : Construct) : SyntaxTree := branch c []

def ofName (n : Identifier) : SyntaxTree := leaf (.symbolicName n)

def ofOperator (op : Operator) : SyntaxTree := leaf (.operator op)

def ofLabels (ls : List Label) : List SyntaxTree := ls.map fun l => leaf (.nodeLabel l)

/-- An operator between every two neighbours. -/
def joined (op : Operator) : List SyntaxTree → List SyntaxTree
  | [] => []
  | [t] => [t]
  | t :: rest => t :: ofOperator op :: joined op rest

end SyntaxTree

open SyntaxTree in
mutual

def Expression.tree : Expression → SyntaxTree
  | .literal l => leaf (.literal l)
  | .variable n => ofName n
  | .parameter p => leaf (.parameter p)
  | .property e key => branch (.propertyLookup key) [e.tree]
  | .function f es => branch (.function f) (expressionTrees es)
  | .operation o => o.tree
  | .condition c => c.tree
  | .aliased e name => branch (.aliased e name) [e.tree]
  | .map m => m.tree
  | .list es => branch .list (expressionTrees es)
  | .node n => n.tree
  | .asterisk => leaf .asterisk
termination_by structural x => x

def Operation.tree : Operation → SyntaxTree
  | .binary a op b => branch (.operation op) [a.tree, ofOperator (.binary op), b.tree]
  | .labels n change ls =>
    branch (.operation change.operator) (ofName n :: ofOperator (.binary change.operator) :: ofLabels ls)
termination_by structural x => x

def Condition.tree : Condition → SyntaxTree
  | .comparison a op b => branch (.comparison (.binary op)) [a.tree, ofOperator (.binary op), b.tree]
  | .test a op _ => branch (.comparison (.unary op)) [a.tree, ofOperator (.unary op)]
  | .compound op cs => branch (.compound op) (joined (.logical op) (conditionTrees cs))
  | .not c => branch .not [c.tree]
  | .hasLabels n ls => branch .hasLabels (ofName n :: ofLabels ls)
termination_by structural x => x

def MapEntry.tree : MapEntry → SyntaxTree
  | ⟨key, e⟩ => branch (.mapEntry key) [e.tree]
termination_by structural x => x

def MapExpression.tree : MapExpression → SyntaxTree
  | ⟨entries⟩ => branch .map (entryTrees entries)
termination_by structural x => x

def Node.tree : Node → SyntaxTree
  | ⟨n, ls, m⟩ => branch (.node n) (n.toList.map ofName ++ ofLabels ls ++ propertyTrees m)
termination_by structural x => x

def expressionTrees : List Expression → List SyntaxTree
  | [] => []
  | e :: rest => e.tree :: expressionTrees rest
termination_by structural x => x

def conditionTrees : List Condition → List SyntaxTree
  | [] => []
  | c :: rest => c.tree :: conditionTrees rest
termination_by structural x => x

def entryTrees : List MapEntry → List SyntaxTree
  | [] => []
  | e :: rest => e.tree :: entryTrees rest
termination_by structural x => x

def propertyTrees : Option MapExpression → List SyntaxTree
  | none => []
  | some m => [branch .properties [m.tree]]
termination_by structural x => x

end

@[simp] theorem expressionTrees_eq_map (es : List Expression) :
    expressionTrees es = es.map Expression.tree := by
  induction es with
  | nil => rfl
  | cons e es ih => simp [expressionTrees, ih]

open SyntaxTree

namespace RelationshipDetail

def tree (d : RelationshipDetail) : SyntaxTree :=
  branch (.relationshipDetail d.direction) <|
    d.name.toList.map ofName
      ++ (if d.types.isEmpty then [] else [leaf (.relationshipTypes d.types)])
      ++ d.length.toList.map (fun r => leaf (.relationshipLength r))
      ++ propertyTrees d.properties

end RelationshipDetail

/-- The part of a relationship that follows its left node. -/
def Relationship.hop (r : Relationship) : List SyntaxTree := [r.detail.tree, r.right.tree]

def Relationship.tree (r : Relationship) : SyntaxTree := branch .relationship (r.left.tree :: r.hop)

/-- The left node of the first relationship, and then hop after hop. -/
def Chain.tree (c : Chain) : SyntaxTree :=
  branch .relationshipChain <|
    ((c.relationships.head?.map fun r => r.left.tree).toList) ++ c.relationships.flatMap Relationship.hop

def PatternElement.tree : PatternElement → SyntaxTree
  | .node n => n.tree
  | .relationship r => r.tree
  | .chain c => c.tree

def Pattern.tree (p : Pattern) : SyntaxTree := branch .pattern (p.elements.map PatternElement.tree)

def SortItem.tree (i : SortItem) : SyntaxTree :=
  branch .sortItem (i.expression.tree :: i.direction.toList.map fun d => leaf (.sortDirection d))

namespace Clause

def itemsTree (items : List Expression) : SyntaxTree := branch .expressionList (expressionTrees items)

def filterTrees (filter : Option Condition) : List SyntaxTree :=
  filter.toList.map fun c => branch .filter [c.tree]

def bodyTrees (b : Projection) : List SyntaxTree :=
  itemsTree b.items
    :: (b.order.toList.map (fun items => branch .order (items.map SortItem.tree))
      ++ b.skip.toList.map (fun n => leaf (.skip n))
      ++ b.limit.toList.map (fun n => leaf (.limit n)))

def tree : Clause → SyntaxTree
  | .matching m => branch (.matching m.optional) (m.pattern.tree :: filterTrees m.filter)
  | .creating p => branch .creating [p.tree]
  | .merging p => branch .merging [p.tree]
  | .deleting detach items => branch (.deleting detach) [itemsTree items]
  | .setting items => branch .setting [itemsTree items]
  | .removing items => branch .removing [itemsTree items]
  | .unwinding e name => branch (.unwinding name) [e.tree]
  | .passing w => branch (.passing w.body.distinct) (bodyTrees w.body ++ filterTrees w.filter)
  | .returning b => branch (.returning b.distinct) (bodyTrees b)

end Clause

def Query.tree (q : Query) : SyntaxTree := branch .singleQuery (q.clauses.map Clause.tree)

/-- Every part of a union after the first stands behind its own union keyword. -/
def Statement.tree : Statement → SyntaxTree
  | .single q => branch .statement [q.tree]
  | .union _ [] => branch .statement []
  | .union all (q :: rest) =>
    branch .statement (q.tree :: rest.map fun part => branch (.unionPart all) [part.tree])

end GraphQuery
