import GraphQuery.Pattern

/-! Clauses: the steps of a query. -/
namespace GraphQuery

inductive SortDirection where
  | ascending
  | descending
  deriving DecidableEq, Repr

def SortDirection.symbol : SortDirection → String
  | .ascending => "ASC"
  | .descending => "DESC"

structure SortItem where
  expression : Expression
  direction : Option SortDirection

def SortItem.same (a b : SortItem) : Bool :=
  a.expression.same b.expression && a.direction == b.direction

/-- Equality of two lists, element by element. -/
def sameLists {α : Type} (same : α → α → Bool) : List α → List α → Bool
  | [], [] => true
  | a :: as, b :: bs => same a b && sameLists same as bs
  | _, _ => false

def sameOptions {α : Type} (same : α → α → Bool) : Option α → Option α → Bool
  | none, none => true
  | some a, some b => same a b
  | _, _ => false

/-- What WITH and RETURN have in common. -/
structure Projection where
  distinct : Bool
  items : List Expression
  order : Option (List SortItem)
  skip : Option UInt64
  limit : Option UInt64

namespace Projection

def new (distinct : Bool) (items : List Expression) : Projection := ⟨distinct, items, none, none, none⟩

def same (a b : Projection) : Bool :=
  a.distinct == b.distinct && sameExpressions a.items b.items &&
    sameOptions (sameLists SortItem.same) a.order b.order && a.skip == b.skip && a.limit == b.limit

end Projection

structure MatchClause where
  optional : Bool
  pattern : Pattern
  filter : Option Condition

structure WithClause where
  body : Projection
  filter : Option Condition

/-- A further filter holds together with the one before it. -/
def WithClause.addFilter (w : WithClause) (c : Condition) : WithClause :=
  { w with filter := some (match w.filter with | some d => d.and c | none => c) }

inductive Clause where
  | matching (clause : MatchClause)
  | creating (pattern : Pattern)
  | merging (pattern : Pattern)
  | deleting (detach : Bool) (items : List Expression)
  | setting (items : List Expression)
  | removing (items : List Expression)
  | unwinding (expression : Expression) (name : Identifier)
  | passing (clause : WithClause)
  | returning (body : Projection)

namespace Clause

def keyword : Clause → String
  | .matching m => if m.optional then "OPTIONAL MATCH" else "MATCH"
  | .creating _ => "CREATE"
  | .merging _ => "MERGE"
  | .deleting .. => "DELETE"
  | .setting _ => "SET"
  | .removing _ => "REMOVE"
  | .unwinding .. => "UNWIND"
  | .passing _ => "WITH"
  | .returning _ => "RETURN"

/-- The clauses that change the graph. -/
def isUpdating : Clause → Bool
  | .creating _ | .merging _ | .deleting .. | .setting _ | .removing _ => true
  | _ => false

def samePatterns (a b : Pattern) : Bool := sameLists PatternElement.same a.elements b.elements

def same : Clause → Clause → Bool
  | .matching a, .matching b =>
    a.optional == b.optional && samePatterns a.pattern b.pattern &&
      sameOptions Condition.same a.filter b.filter
  | .creating a, .creating b => samePatterns a b
  | .merging a, .merging b => samePatterns a b
  | .deleting d as, .deleting e bs => d == e && sameExpressions as bs
  | .setting as, .setting bs => sameExpressions as bs
  | .removing as, .removing bs => sameExpressions as bs
  | .unwinding a n, .unwinding b m => a.same b && n == m
  | .passing a, .passing b => a.body.same b.body && sameOptions Condition.same a.filter b.filter
  | .returning a, .returning b => a.same b
  | _, _ => false

end Clause
end GraphQuery
