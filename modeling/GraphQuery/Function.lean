import GraphQuery.Pattern

/-! The built-in functions. -/
namespace GraphQuery.Function

def id (n : Node) : Except ArgumentError Expression :=
  n.requiredName.map fun name => .function "id" [.variable name]

def relationshipId (r : Relationship) : Except ArgumentError Expression :=
  r.toExpression.map fun e => .function "id" [e]

def type (r : Relationship) : Except ArgumentError Expression :=
  r.toExpression.map fun e => .function "type" [e]

def count (e : Expression) : Expression := .function "count" [e]

def countAll : Expression := count .asterisk

/-- The first argument that is not null; there must be an argument. -/
def coalesce (es : List Expression) : Except ArgumentError Expression :=
  if es.isEmpty then .error .expressionsMissing else .ok (.function "coalesce" es)

def toLower (e : Expression) : Expression := .function "toLower" [e]

def size (e : Expression) : Expression := .function "size" [e]

def exists_ (e : Expression) : Expression := .function "exists" [e]

def distance (a b : Expression) : Expression := .function "distance" [a, b]

def point (e : Expression) : Expression := .function "point" [e]

def collect (e : Expression) : Expression := .function "collect" [e]

end GraphQuery.Function
