import GraphQuery.Json.Printer
import GraphQuery.Parameter
import GraphQuery.Parameter.Names

/-! The parameter table of a statement: the names under which its parameters are written, and
the values of these names in the order of their first appearance. -/
namespace GraphQuery

structure ParameterTable where
  source : NameSource
  names : List (ParameterKey × String)
  values : List (String × Json)

namespace ParameterTable

/-- An empty table whose generated names keep clear of the reserved ones. -/
def new (source : NameSource) (reserved : List String) : ParameterTable :=
  ⟨source.reserveAll reserved, [], []⟩

/-- The name of a parameter. One that appears for the first time has its own name or takes the
next one from the source. -/
def nameOf (t : ParameterTable) (p : Parameter) : Logged (String × ParameterTable) :=
  match t.names.lookup p.key with
  | some name => ⟨(name, t), []⟩
  | none =>
    match p.key with
    | .named n => ⟨(n.text, { t with names := (p.key, n.text) :: t.names }), []⟩
    | .anonymous _ =>
      let (name, source) := t.source.next
      ⟨(name, { t with source := source, names := (p.key, name) :: t.names }),
        [NameSource.record name]⟩

def replace (name : String) (value : Json) : List (String × Json) → List (String × Json)
  | [] => []
  | (n, v) :: rest => if n = name then (n, value) :: rest else (n, v) :: replace name value rest

def conflict (name : String) (kept : Json) : Record :=
  ⟨.warn, "Parameter '" ++ name ++ "' bound to conflicting values, keeping " ++ kept.compact⟩

/-- Bind a value to a name. The first value other than `null` stays; a different one that comes
later is reported. -/
def bind (t : ParameterTable) (name : String) (value : Option Json) : Logged ParameterTable :=
  match t.values.lookup name, value with
  | none, value => ⟨{ t with values := t.values ++ [(name, value.getD .null)] }, []⟩
  | some _, none => ⟨t, []⟩
  | some old, some value =>
    if old.isNull then ⟨{ t with values := replace name value t.values }, []⟩
    else if old.same value then ⟨t, []⟩
    else ⟨t, [conflict name old]⟩

/-- Enter a parameter and give the name under which it is written. -/
def register (t : ParameterTable) (p : Parameter) : Logged (String × ParameterTable) :=
  let named := t.nameOf p
  let bound := named.value.2.bind named.value.1 p.value
  ⟨(named.value.1, bound.value), named.records ++ bound.records⟩

end ParameterTable
end GraphQuery
