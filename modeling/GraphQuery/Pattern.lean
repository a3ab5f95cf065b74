import GraphQuery.Node

/-! Patterns: nodes, relationships between two nodes, and chains of relationships in which each
begins where the one before it ends. -/
namespace GraphQuery

inductive Direction where
  | leftToRight
  | rightToLeft
  | undirected
  deriving DecidableEq, Repr

namespace Direction

def left : Direction → String
  | rightToLeft => "<-"
  | leftToRight | undirected => "-"

def right : Direction → String
  | leftToRight => "->"
  | rightToLeft | undirected => "-"

end Direction

/-- How many relationships in a row a pattern stands for. -/
structure LengthRange where
  minimum : Option UInt32
  maximum : Option UInt32
  deriving DecidableEq, Repr

namespace LengthRange

def unbounded : LengthRange := ⟨none, none⟩

def isUnbounded (r : LengthRange) : Bool := r.minimum.isNone && r.maximum.isNone

/-- Set the bounds that are given and keep the others. -/
def update (r : LengthRange) (minimum maximum : Option UInt32) : LengthRange :=
  ⟨minimum.or r.minimum, maximum.or r.maximum⟩

/-- The two bounds, if the minimum lies above the maximum. -/
def inverted? (r : LengthRange) : Option (UInt32 × UInt32) :=
  match r.minimum, r.maximum with
  | some a, some b => if b < a then some (a, b) else none
  | _, _ => none

end LengthRange

/-- What a pattern says about a relationship itself. -/
structure RelationshipDetail where
  direction : Direction
  name : Option Identifier
  types : List String
  length : Option LengthRange
  properties : Option MapExpression

namespace RelationshipDetail

def new (direction : Direction) (types : List String) : RelationshipDetail :=
  ⟨direction, none, types, none, none⟩

def same (a b : RelationshipDetail) : Bool :=
  a.direction == b.direction && a.name == b.name && a.types == b.types && a.length == b.length &&
    sameProperties a.properties b.properties

def named (d : RelationshipDetail) (name : String) : Except ArgumentError RelationshipDetail :=
  (Identifier.symbolic name).map fun name => { d with name := some name }

def setLength (d : RelationshipDetail) (minimum maximum : Option UInt32) : RelationshipDetail :=
  { d with length := some ((d.length.getD .unbounded).update minimum maximum) }

/-- Any length, whatever bounds were set before. -/
def unbounded (d : RelationshipDetail) : RelationshipDetail := { d with length := some .unbounded }

/-- Properties from alternating keys and values; an empty list takes the properties away. -/
def setProperties (d : RelationshipDetail) (arguments : List MapArgument) :
    Except ArgumentError RelationshipDetail :=
  (MapExpression.properties arguments).map fun map => { d with properties := map }

/-- No type is empty, and the minimum length does not exceed the maximum. -/
def validate (d : RelationshipDetail) : Except ArgumentError Unit :=
  if "" ∈ d.types then .error .relationshipTypeEmpty
  else
    match d.length.bind LengthRange.inverted? with
    | some (a, b) => .error (.lengthInverted a.toNat b.toNat)
    | none => .ok ()

end RelationshipDetail

structure Relationship where
  left : Node
  detail : RelationshipDetail
  right : Node

namespace Relationship

def new (left : Node) (direction : Direction) (right : Node) (types : List String) : Relationship :=
  ⟨left, .new direction types, right⟩

def same (a b : Relationship) : Bool :=
  a.left.same b.left && a.detail.same b.detail && a.right.same b.right

def withDetail (r : Relationship) (d : RelationshipDetail) : Relationship := { r with detail := d }

def named (r : Relationship) (name : String) : Except ArgumentError Relationship :=
  (r.detail.named name).map r.withDetail

def setLength (r : Relationship) (minimum maximum : Option UInt32) : Relationship :=
  r.withDetail (r.detail.setLength minimum maximum)

def unbounded (r : Relationship) : Relationship := r.withDetail r.detail.unbounded

def withProperties (r : Relationship) (map : MapExpression) : Relationship :=
  r.withDetail { r.detail with properties := some map }

def setProperties (r : Relationship) (arguments : List MapArgument) : Except ArgumentError Relationship :=
  (r.detail.setProperties arguments).map r.withDetail

def requiredName (r : Relationship) : Except ArgumentError Identifier :=
  match r.detail.name with
  | some name => .ok name
  | none => .error .relationshipUnnamed

/-- The relationship as the variable of its name. -/
def toExpression (r : Relationship) : Except ArgumentError Expression :=
  r.requiredName.map .variable

def property (r : Relationship) (key : String) : Except ArgumentError Expression := do
  Expression.lookup (.variable (← r.requiredName)) key

end Relationship

/-- Each relationship begins where the one before it ends. -/
def Relationship.Linked : List Relationship → Prop
  | [] => True
  | r :: rest => (∀ s ∈ rest.head?, s.left = r.right) ∧ Linked rest

/-- The link to the last of some relationships concerns only its left node. -/
theorem Relationship.Linked.replaceLast {rs : List Relationship} {r s : Relationship}
    (h : Linked (rs ++ [r])) (hs : s.left = r.left) : Linked (rs ++ [s]) := by
  induction rs with
  | nil => simp [Linked]
  | cons t rs ih =>
    refine ⟨?_, ih h.2⟩
    cases rs with
    | nil => simpa [hs] using h.1
    | cons u rs => simpa using h.1

theorem Relationship.Linked.concat {rs : List Relationship} {r s : Relationship}
    (h : Linked (rs ++ [r])) (hs : s.left = r.right) : Linked ((rs ++ [r]) ++ [s]) := by
  induction rs with
  | nil => simp [Linked, hs]
  | cons t rs ih =>
    refine ⟨?_, ih h.2⟩
    cases rs with
    | nil => simpa using h.1
    | cons u rs => simpa using h.1

/-- One or more relationships in a row. The last one is kept apart, since names, lengths,
properties and further relationships all concern it. -/
structure Chain where
  earlier : List Relationship
  last : Relationship
  linked : Relationship.Linked (earlier ++ [last])

namespace Chain

def ofRelationship (r : Relationship) : Chain := ⟨[], r, by simp [Relationship.Linked]⟩

def relationships (c : Chain) : List Relationship := c.earlier ++ [c.last]

def same (a b : Chain) : Bool :=
  a.relationships.length == b.relationships.length &&
    (a.relationships.zip b.relationships).all fun p => p.1.same p.2

/-- Go on from the right node of the last relationship. -/
def append (c : Chain) (direction : Direction) (other : Node) (types : List String) : Chain :=
  ⟨c.relationships, .new c.last.right direction other types, c.linked.concat rfl⟩

def withDetail (c : Chain) (d : RelationshipDetail) : Chain :=
  ⟨c.earlier, c.last.withDetail d, c.linked.replaceLast rfl⟩

def named (c : Chain) (name : String) : Except ArgumentError Chain :=
  (c.last.detail.named name).map c.withDetail

def setLength (c : Chain) (minimum maximum : Option UInt32) : Chain :=
  c.withDetail (c.last.detail.setLength minimum maximum)

def unbounded (c : Chain) : Chain := c.withDetail c.last.detail.unbounded

def setProperties (c : Chain) (arguments : List MapArgument) : Except ArgumentError Chain :=
  (c.last.detail.setProperties arguments).map c.withDetail

theorem relationships_ne_nil (c : Chain) : c.relationships ≠ [] := by simp [relationships]

end Chain

/-- One element of a pattern. -/
inductive PatternElement where
  | node (node : Node)
  | relationship (relationship : Relationship)
  | chain (chain : Chain)

namespace PatternElement

def relationships : PatternElement → List Relationship
  | .node _ => []
  | .relationship r => [r]
  | .chain c => c.relationships

def same : PatternElement → PatternElement → Bool
  | .node a, .node b => a.same b
  | .relationship a, .relationship b => a.same b
  | .chain a, .chain b => a.same b
  | _, _ => false

/-- The first fault among the relationships, from left to right. -/
def validate (e : PatternElement) : Except ArgumentError Unit :=
  e.relationships.forM fun r => r.detail.validate

end PatternElement

/-- A list of elements that has been checked for use in a clause. -/
structure Pattern where
  elements : List PatternElement

namespace Pattern

/-- At least one element, and no fault in any of them. -/
def ofElements (elements : List PatternElement) : Except ArgumentError Pattern :=
  if elements.isEmpty then .error .patternsMissing
  else (elements.forM PatternElement.validate).map fun _ => ⟨elements⟩

end Pattern

example : (((RelationshipDetail.new .undirected []).setLength (some 2) none).setLength none (some 5)).length =
    some ⟨some 2, some 5⟩ := by decide
example : (Direction.rightToLeft.left, Direction.rightToLeft.right) = ("<-", "-") := rfl

end GraphQuery
