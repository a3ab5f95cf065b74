import GraphQuery.Operator.Names
import GraphQuery.Statement

/-! Outlines: the structure of values and statements as JSON. Every part becomes an object that
names its kind and holds the outlines of its own parts. -/
namespace GraphQuery
namespace Outline

def part (kind : String) (fields : List (String × Json)) : Json :=
  Json.ofEntries (("k", .string kind) :: fields)

/-- Nothing is `null`. -/
def optional {α : Type} (f : α → Json) : Option α → Json
  | none => .null
  | some a => f a

def name (n : Identifier) : Json := .string n.text

def labels (ls : List Label) : Json := .array (ls.map fun l => .string l.text)

def whole (n : Nat) : Json := (optional Json.integer) (WideInt.ofInt? n)

def comparator : Comparator → Json
  | .binary op => Json.ofEntries [("Binary", .string op.name)]
  | .unary op => Json.ofEntries [("Unary", .string op.name)]

def kindOf : Literal → String
  | .null => "Null"
  | .boolean _ => "Boolean"
  | .integer _ => "Integer"
  | .float _ => "Float"
  | .string _ => "String"
  | .list _ => "List"

def literal (l : Literal) : Json :=
  part "Literal" [("kind", .string (kindOf l)), ("text", .string l.text)]

/-- A value stands in a list of its own, so that a `null` value is told from no value. -/
def parameter (p : Parameter) : Json :=
  part "Parameter" [("name", optional name p.name?), ("value", optional (fun v => .array [v]) p.value),
    ("anonymous", .bool p.isAnonymous)]

mutual

def expression : Expression → Json
  | .literal l => literal l
  | .variable n => part "Variable" [("name", name n)]
  | .parameter p => parameter p
  | .property e key => part "Property" [("subject", expression e), ("key", .string key)]
  | .function f es => part "Function" [("name", .string f), ("arguments", .array (expressions es))]
  | .operation o => operation o
  | .condition c => condition c
  | .aliased e n => part "Aliased" [("expression", expression e), ("alias", name n)]
  | .map m => part "Map" [("entries", map m)]
  | .list es => part "List" [("elements", .array (expressions es))]
  | .node n => node n
  | .asterisk => part "Asterisk" []
termination_by structural x => x

def operation : Operation → Json
  | .binary a op b =>
    part "Operation" [("operator", .string op.name), ("grouping", .bool op.isArithmetic),
      ("left", expression a), ("right", expression b)]
  | .labels n change ls =>
    part "Operation" [("operator", .string change.operator.name), ("grouping", .bool false),
      ("target", name n), ("labels", labels ls)]
termination_by structural x => x

def condition : Condition → Json
  | .comparison a op b =>
    part "Comparison" [("left", expression a), ("operator", comparator (.binary op)), ("right", expression b)]
  | .test a op _ =>
    part "Comparison" [("left", expression a), ("operator", comparator (.unary op)), ("right", .null)]
  | .compound op cs =>
    part "Compound" [("operator", .string op.name), ("conditions", .array (conditions cs))]
  | .not c => part "Not" [("condition", condition c)]
  | .hasLabels n ls => part "HasLabels" [("name", name n), ("labels", labels ls)]
termination_by structural x => x

def entry : MapEntry → Json
  | ⟨key, e⟩ => .array [.string key, expression e]
termination_by structural x => x

def map : MapExpression → Json
  | ⟨es⟩ => .array (entries es)
termination_by structural x => x

def node : Node → Json
  | ⟨n, ls, m⟩ =>
    part "Node" [("name", optional name n), ("labels", labels ls), ("properties", properties m)]
termination_by structural x => x

def expressions : List Expression → List Json
  | [] => []
  | e :: rest => expression e :: expressions rest
termination_by structural x => x

def conditions : List Condition → List Json
  | [] => []
  | c :: rest => condition c :: conditions rest
termination_by structural x => x

def entries : List MapEntry → List Json
  | [] => []
  | e :: rest => entry e :: entries rest
termination_by structural x => x

def properties : Option MapExpression → Json
  | none => .null
  | some m => map m
termination_by structural x => x

end

def direction : Direction → String
  | .leftToRight => "LeftToRight"
  | .rightToLeft => "RightToLeft"
  | .undirected => "Undirected"

def lengthRange (r : LengthRange) : Json :=
  let bound := optional fun n : UInt32 => whole n.toNat
  .array [bound r.minimum, bound r.maximum, .bool r.isUnbounded]

def detail (d : RelationshipDetail) : Json :=
  Json.ofEntries [("direction", .string (direction d.direction)), ("name", optional name d.name),
    ("types", .array (d.types.map .string)), ("length", optional lengthRange d.length),
    ("properties", properties d.properties)]

def relationship (r : Relationship) : Json :=
  part "Relationship" [("left", node r.left), ("detail", detail r.detail), ("right", node r.right)]

def chain (c : Chain) : Json :=
  part "RelationshipChain" [("relationships", .array (c.relationships.map relationship))]

def element : PatternElement → Json
  | .node n => node n
  | .relationship r => relationship r
  | .chain c => chain c

def sortItem (i : SortItem) : Json :=
  part "SortItem" [("expression", expression i.expression),
    ("direction", optional (fun d : SortDirection => .string d.symbol) i.direction)]

def pattern (p : Pattern) : String × Json := ("pattern", .array (p.elements.map element))

def items (es : List Expression) : String × Json := ("items", .array (expressions es))

def filter (c : Option Condition) : String × Json := ("where", optional condition c)

def projection (b : Projection) : List (String × Json) :=
  [("distinct", .bool b.distinct), items b.items,
    ("order", optional (fun is : List SortItem => .array (is.map sortItem)) b.order),
    ("skip", optional (fun n : UInt64 => whole n.toNat) b.skip),
    ("limit", optional (fun n : UInt64 => whole n.toNat) b.limit)]

def clauseFields : Clause → List (String × Json)
  | .matching m => [("optional", .bool m.optional), pattern m.pattern, filter m.filter]
  | .creating p => [pattern p]
  | .merging p => [pattern p]
  | .deleting detach es => [("detach", .bool detach), items es]
  | .setting es => [items es]
  | .removing es => [items es]
  | .unwinding e n => [("expression", expression e), ("variable", name n)]
  | .passing w => filter w.filter :: projection w.body
  | .returning b => projection b

def clause (c : Clause) : Json :=
  Json.ofEntries (("keyword", .string c.keyword) :: ("updating", .bool c.isUpdating) :: clauseFields c)

def query (q : Query) : Json := .array (q.clauses.map clause)

def statement : Statement → Json
  | .single q => part "Single" [("clauses", query q)]
  | .union all parts => part "Union" [("all", .bool all), ("parts", .array (parts.map query))]

end Outline
end GraphQuery
