import GraphQuery.Clause

/-! Statements: single queries, and unions of at least two of them. -/
namespace GraphQuery

structure Query where
  clauses : List Clause

inductive Statement where
  | single (query : Query)
  | union (all : Bool) (parts : List Query)

namespace Statement

/-- The queries that a statement brings into a union. A union of the other kind brings none. -/
def partsFor (all : Bool) : Statement → Except ArgumentError (List Query)
  | .single q => .ok [q]
  | .union kind parts => if kind = all then .ok parts else .error .unionsMixed

def joinParts (all : Bool) : List Statement → Except ArgumentError (List Query)
  | [] => .ok []
  | s :: rest => do
    let parts ← s.partsFor all
    return parts ++ (← joinParts all rest)

/-- The union of statements; unions of its own kind among them are dissolved. -/
def unionOf (all : Bool) (statements : List Statement) : Except ArgumentError Statement :=
  if statements.length < 2 then .error .statementsMissing
  else (joinParts all statements).map (.union all)

def sameQueries (a b : Query) : Bool := sameLists Clause.same a.clauses b.clauses

def same : Statement → Statement → Bool
  | .single a, .single b => sameQueries a b
  | .union k as, .union l bs => k == l && sameLists sameQueries as bs
  | _, _ => false

end Statement
end GraphQuery
