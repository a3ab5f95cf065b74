import GraphQuery.ClauseList
import GraphQuery.Error
import GraphQuery.Statement

/-! Building a statement call by call. A stage holds the finished clauses and the clause that is
still open; which calls it offers depends on its kind. Some calls open a clause, others refine
the open one. -/
namespace GraphQuery

/-- Whether the open MATCH has a filter. -/
inductive Filtering where
  | matched
  | filtered
  deriving DecidableEq, Repr

/-- How far the open WITH or RETURN has come. -/
inductive Progress where
  | projected
  | ordered
  | skipped
  | limited
  deriving DecidableEq, Repr

namespace Progress

def allowsSkip : Progress → Bool
  | projected | ordered => true
  | _ => false

def allowsLimit : Progress → Bool
  | limited => false
  | _ => true

end Progress

inductive Stage where
  | reading (clauses : ClauseList)
  | matching (finished : ClauseList) (current : MatchClause) (filtering : Filtering)
  | updating (clauses : ClauseList)
  | unwinding (finished : ClauseList) (expression : Expression)
  | passing (finished : ClauseList) (current : WithClause) (progress : Progress)
  | returning (finished : ClauseList) (current : Projection) (progress : Progress)

/-- A call that opens a clause. -/
inductive Opening where
  | matching (optional : Bool) (elements : List PatternElement)
  | create (elements : List PatternElement)
  | merge (elements : List PatternElement)
  | delete (detach : Bool) (items : List Expression)
  | set (targetsAndValues : List Expression)
  | setOperations (operations : List Operation)
  | setLabels (node : Node) (labels : List String)
  | remove (items : List Expression)
  | removeLabels (node : Node) (labels : List String)
  | unwind (expression : Expression)
  | passing (distinct : Bool) (items : List Expression)
  | returning (distinct : Bool) (items : List Expression)

/-- A call that refines the open clause. -/
inductive Refinement where
  | filter (condition : Condition)
  | and (condition : Condition)
  | or (condition : Condition)
  | orderBy (items : List SortItem)
  | skip (count : UInt64)
  | limit (count : UInt64)
  | as (name : String)

inductive Call where
  | opening (call : Opening)
  | refinement (call : Refinement)

/-- A call that fails: the stage does not offer it, or an argument is refused. -/
inductive CallError where
  | notOffered
  | argument (cause : ArgumentError)
  deriving DecidableEq, Repr

inductive BuildError where
  | notOffered
  | statement (cause : StatementError)
  deriving DecidableEq, Repr

/-- The list if it has an element. -/
def nonemptyItems {α : Type} (items : List α) : Except ArgumentError (List α) :=
  if items.isEmpty then .error .expressionsMissing else .ok items

namespace Opening

/-- Targets and values in turn, as assignments. -/
def assignments : List Expression → List Operation
  | target :: value :: rest => .assign target value :: assignments rest
  | _ => []

def settingOf (operations : List Operation) : Except ArgumentError Clause :=
  (nonemptyItems (operations.map .operation)).map .setting

/-- Add an updating clause, which is complete at once. -/
def update (finished : ClauseList) (clause : Except ArgumentError Clause) : Except ArgumentError Stage :=
  clause.map fun c => .updating (finished.push c)

/-- The stage that a call leads to after the finished clauses. -/
def run (finished : ClauseList) : Opening → Except ArgumentError Stage
  | .matching optional es =>
    (Pattern.ofElements es).map fun p => .matching finished ⟨optional, p, none⟩ .matched
  | .create es => update finished ((Pattern.ofElements es).map .creating)
  | .merge es => update finished ((Pattern.ofElements es).map .merging)
  | .delete detach items => update finished ((nonemptyItems items).map (.deleting detach))
  | .set es =>
    if es.isEmpty then .error .expressionsMissing
    else if es.length % 2 = 1 then .error .assignmentsOdd
    else update finished (settingOf (assignments es))
  | .setOperations ops => update finished (settingOf ops)
  | .setLabels n labels =>
    update finished ((n.changeLabels .add labels).bind fun op => settingOf [op])
  | .remove items => update finished ((nonemptyItems items).map .removing)
  | .removeLabels n labels =>
    update finished ((n.changeLabels .remove labels).map fun op => .removing [.operation op])
  | .unwind e => .ok (.unwinding finished e)
  | .passing distinct items =>
    (nonemptyItems items).map fun items => .passing finished ⟨.new distinct items, none⟩ .projected
  | .returning distinct items =>
    (nonemptyItems items).map fun items => .returning finished (.new distinct items) .projected

end Opening

namespace Stage

def start : Stage := .reading .empty

/-- The clauses so far, the open one included. Nothing can follow an UNWIND without a variable
or a RETURN, so these stages do not give their clauses away. -/
def clauses? : Stage → Option ClauseList
  | .reading cs => some cs
  | .matching cs m _ => some (cs.push (.matching m))
  | .updating cs => some cs
  | .unwinding .. => none
  | .passing cs w _ => some (cs.push (.passing w))
  | .returning .. => none

/-- The result of a refinement, where the stage offers it. -/
def refine? : Stage → Refinement → Option (Except ArgumentError Stage)
  | .matching cs m .matched, .filter c => some (.ok (.matching cs { m with filter := some c } .filtered))
  | .matching cs m .filtered, .and c =>
    some (.ok (.matching cs { m with filter := some ((m.filter.map (·.and c)).getD c) } .filtered))
  | .matching cs m .filtered, .or c =>
    some (.ok (.matching cs { m with filter := some ((m.filter.map (·.or c)).getD c) } .filtered))
  | .passing cs w progress, .filter c => some (.ok (.passing cs (w.addFilter c) progress))
  | .passing cs w .projected, .orderBy items =>
    some ((nonemptyItems items).map fun items =>
      .passing cs { w with body := { w.body with order := some items } } .ordered)
  | .passing cs w progress, .skip n =>
    if progress.allowsSkip then
      some (.ok (.passing cs { w with body := { w.body with skip := some n } } .skipped))
    else none
  | .passing cs w progress, .limit n =>
    if progress.allowsLimit then
      some (.ok (.passing cs { w with body := { w.body with limit := some n } } .limited))
    else none
  | .returning cs b .projected, .orderBy items =>
    some ((nonemptyItems items).map fun items => .returning cs { b with order := some items } .ordered)
  | .returning cs b progress, .skip n =>
    if progress.allowsSkip then some (.ok (.returning cs { b with skip := some n } .skipped)) else none
  | .returning cs b progress, .limit n =>
    if progress.allowsLimit then some (.ok (.returning cs { b with limit := some n } .limited)) else none
  | .unwinding cs e, .as name =>
    some ((Identifier.symbolic name).map fun name => .reading (cs.push (.unwinding e name)))
  | _, _ => none

def call (s : Stage) : Call → Except CallError Stage
  | .opening o =>
    match s.clauses? with
    | some finished => (o.run finished).mapError .argument
    | none => .error .notOffered
  | .refinement r =>
    match s.refine? r with
    | some result => result.mapError .argument
    | none => .error .notOffered

/-- Make the calls one after the other; the first failure ends the run. -/
def run (s : Stage) : List Call → Except CallError Stage
  | [] => .ok s
  | c :: rest => (s.call c).bind fun s => run s rest

def buildRecord (clauses : List Clause) : Record :=
  ⟨.trace, "Build statement: " ++ " ".intercalate (clauses.map Clause.keyword)⟩

def finish (clauses : List Clause) : Logged Statement :=
  ⟨.single ⟨clauses⟩, [buildRecord clauses]⟩

/-- The statement of a stage. Only an update or a RETURN can end one. -/
def build : Stage → Except BuildError (Logged Statement)
  | .updating cs => .ok (finish cs.toList)
  | .returning cs b _ => .ok (finish (cs.toList ++ [.returning b]))
  | .unwinding .. => .error .notOffered
  | .reading _ | .matching .. | .passing .. => .error (.statement (.incomplete .returning))

end Stage
end GraphQuery
