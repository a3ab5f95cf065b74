import GraphQuery.Render.Writer
import GraphQuery.Text.Character

/-! Rendering: the text of a statement and the table of its parameters. The names of all named
parameters are collected first, so that no generated name meets one of them. -/
namespace GraphQuery

structure RenderSettings where
  stem : String
  logStatements : Bool
  deriving DecidableEq, Repr

namespace RenderSettings

def default : RenderSettings := ⟨NameSource.defaultStem, false⟩

end RenderSettings

/-- A text with the values of its parameters, in the order in which they first appear in it. -/
structure Rendered where
  text : String
  parameters : List (String × Json)

namespace Rendered

/-- The same text and the same value for every parameter, in whatever order. -/
def same (a b : Rendered) : Bool :=
  a.text == b.text && a.parameters.length == b.parameters.length &&
    a.parameters.all fun p => ((b.parameters.lookup p.1).map p.2.same).getD false

/-- What the log says about a rendered statement. -/
def record (r : Rendered) : Record :=
  ⟨.debug, "Rendered statement: " ++ r.text ++ " " ++
    Json.displayedMap (r.parameters.map fun p => (p.1, p.2.displayed))⟩

end Rendered

namespace Render

def addName (names : List String) (name : String) : List String :=
  if name ∈ names then names else names ++ [name]

/-- Notes the names of the parameters that are entered, each once, in the order of first occurrence. -/
def nameVisitor : Visitor (List String) :=
  { Visitor.idle (List String) with
    enter := fun p _ names =>
      match p.tree.construct with
      | .parameter q => (q.name?.map fun n => addName names n.text).getD names
      | _ => names }

def namesIn (tree : SyntaxTree) : Traversal (List String) := Traversal.ofTree nameVisitor tree []

/-- The records of a traversal that has gone wrong. -/
def failure (what : String) {σ : Type} (t : Traversal σ) : List Record :=
  t.errors.map Traversal.record ++ t.finishRecords ++
    match t.finish with
    | .ok () => []
    | .error e => [⟨.error, what ++ " failed: " ++ e.message⟩]

def ofTree (settings : RenderSettings) (tree : SyntaxTree) : Logged Rendered :=
  let names := namesIn tree
  let table := ParameterTable.new (.new settings.stem) names.state
  let written := Traversal.ofTree Writer.visitor tree (.new table)
  let rendered := ⟨Text.trimmed written.state.text, written.state.table.values⟩
  ⟨rendered,
    failure "Parameter collection" names ++ written.state.records ++ failure "Rendering" written ++
      if settings.logStatements then [rendered.record] else []⟩

end Render

namespace Statement

def render (s : Statement) (settings : RenderSettings) : Logged Rendered :=
  Render.ofTree settings s.tree

/-- The text of a statement under the default settings. -/
def text (s : Statement) : String := (s.render .default).value.text

end Statement
end GraphQuery
