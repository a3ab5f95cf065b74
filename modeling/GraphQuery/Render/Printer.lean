import GraphQuery.Parameter.Occurrence
import GraphQuery.Parameter.Table
import GraphQuery.Text.Quoted

/-! Printing by recursion on the syntax. Only three things pass from left to right: the names of
the nodes printed so far, the aliased expressions printed so far, and the table of the parameters.
Clauses are joined by one space, the parts of a union by the union keyword, and the members of a
list by a comma and a space. -/
namespace GraphQuery

/-- What has been printed so far. -/
structure Printed where
  nodes : List Identifier
  aliases : List (Expression × Identifier)
  table : ParameterTable

/-- A text that depends on what is printed before it. -/
abbrev Printing := StateM Printed String

namespace Printing

def parameter (p : Parameter) : Printing :=
  modifyGet fun s =>
    let r := s.table.register p
    ("$" ++ r.value.1, { s with table := r.value.2 })

def isAliasPrinted (s : Printed) (e : Expression) (name : Identifier) : Bool :=
  s.aliases.any fun a => a.1.same e && a.2 == name

/-- Print an aliased expression in full the first time, and after that only its alias. -/
def aliased (e : Expression) (name : Identifier) (body : Printing) : Printing := do
  if isAliasPrinted (← get) e name then return name.text
  else
    modify fun s => { s with aliases := s.aliases ++ [(e, name)] }
    return (← body) ++ " AS " ++ name.text

/-- Print a named node in full the first time, and after that only its name. -/
def node (name : Option Identifier) (body : Printing) : Printing := do
  match name with
  | none => return "(" ++ (← body) ++ ")"
  | some n =>
    if n ∈ (← get).nodes then return "(" ++ n.text ++ ")"
    else
      modify fun s => { s with nodes := n :: s.nodes }
      return "(" ++ n.text ++ (← body) ++ ")"

def labels (ls : List Label) : String :=
  String.join (ls.map fun l => ":" ++ Text.quotedName l.text)

def parenthesized (b : Bool) (s : String) : String := if b then "(" ++ s ++ ")" else s

/-- A comparison that stands as an operand of another one and does not bind more tightly. -/
def isLooseOperand (outer : Comparator) : Expression → Bool
  | .condition (.comparison _ op _) => op.precedence ≤ outer.precedence
  | .condition (.test _ op _) => op.precedence ≤ outer.precedence
  | _ => false

/-- The text of an operand of a comparison. -/
def operand (outer : Comparator) (e : Expression) (s : String) : String :=
  parenthesized (isLooseOperand outer e) s

end Printing

open Printing in
mutual

def Expression.print : Expression → Printing
  | .literal l => pure l.text
  | .variable n => pure n.text
  | .parameter p => Printing.parameter p
  | .property e key => return (← e.print) ++ "." ++ key
  | .function f es => return f ++ "(" ++ ", ".intercalate (← printAll es) ++ ")"
  | .operation o => o.print
  | .condition c => c.print
  | .aliased e name => Printing.aliased e name e.print
  | .map m => m.print
  | .list es => return "[" ++ ", ".intercalate (← printAll es) ++ "]"
  | .node n => n.print
  | .asterisk => pure "*"
termination_by structural x => x

def Operation.print : Operation → Printing
  | .binary a op b => do
    let left ← a.print
    let right ← b.print
    return parenthesized op.isArithmetic (left ++ (Operator.binary op).text ++ right)
  | .labels n _ ls => pure (n.text ++ Printing.labels ls)
termination_by structural x => x

def Condition.print : Condition → Printing
  | .comparison a op b => do
    let left ← a.print
    let right ← b.print
    return operand (.binary op) a left ++ (Operator.binary op).text ++ operand (.binary op) b right
  | .test a op _ => return operand (.unary op) a (← a.print) ++ (Operator.unary op).text
  | .compound op cs => do
    let members ← printMembers cs
    return "(" ++ (Operator.logical op).text.intercalate members ++ ")"
  | .not c => return "NOT (" ++ (← c.print) ++ ")"
  | .hasLabels n ls => pure (n.text ++ Printing.labels ls)
termination_by structural x => x

def MapEntry.print : MapEntry → Printing
  | ⟨key, e⟩ => return key ++ ": " ++ (← e.print)
termination_by structural x => x

def MapExpression.print : MapExpression → Printing
  | ⟨entries⟩ => return "\x7b" ++ ", ".intercalate (← printEntries entries) ++ "\x7d"
termination_by structural x => x

def Node.print : Node → Printing
  | ⟨name, ls, m⟩ => Printing.node name (return Printing.labels ls ++ (← printProperties m))
termination_by structural x => x

def printAll : List Expression → StateM Printed (List String)
  | [] => pure []
  | e :: rest => return (← e.print) :: (← printAll rest)
termination_by structural x => x

def printMembers : List Condition → StateM Printed (List String)
  | [] => pure []
  | c :: rest => return (← c.print) :: (← printMembers rest)
termination_by structural x => x

def printEntries : List MapEntry → StateM Printed (List String)
  | [] => pure []
  | e :: rest => return (← e.print) :: (← printEntries rest)
termination_by structural x => x

def printProperties : Option MapExpression → Printing
  | none => pure ""
  | some m => return " " ++ (← m.print)
termination_by structural x => x

end

namespace RelationshipDetail

def typesText (ts : List String) : String :=
  if ts.isEmpty then "" else ":" ++ "|".intercalate (ts.map Text.quotedName)

def boundText (bound : Option UInt32) : String :=
  match bound with
  | some n => toString n.toNat
  | none => ""

def lengthText : Option LengthRange → String
  | none => ""
  | some ⟨none, none⟩ => "*"
  | some ⟨a, b⟩ => "*" ++ boundText a ++ ".." ++ boundText b

def print (d : RelationshipDetail) : Printing := do
  let name := (d.name.map Identifier.text).getD ""
  let properties ← printProperties d.properties
  return d.direction.left ++ "[" ++ name ++ typesText d.types ++ lengthText d.length ++ properties ++ "]"
    ++ d.direction.right

end RelationshipDetail

/-- The part of a relationship that follows its left node. -/
def Relationship.printHop (r : Relationship) : Printing :=
  return (← r.detail.print) ++ (← r.right.print)

namespace PatternElement

/-- The left node of the first relationship, and then hop after hop. -/
def printRelationships (rs : List Relationship) : Printing := do
  match rs with
  | [] => return ""
  | r :: _ => return (← r.left.print) ++ String.join (← rs.mapM Relationship.printHop)

def print : PatternElement → Printing
  | .node n => n.print
  | .relationship r => printRelationships [r]
  | .chain c => printRelationships c.relationships

end PatternElement

def Pattern.print (p : Pattern) : Printing :=
  return ", ".intercalate (← p.elements.mapM PatternElement.print)

def SortItem.print (i : SortItem) : Printing :=
  return (← i.expression.print) ++ ((i.direction.map fun d => " " ++ d.symbol).getD "")

namespace Clause

def printItems (items : List Expression) : Printing :=
  return ", ".intercalate (← items.mapM Expression.print)

def printFilter : Option Condition → Printing
  | none => pure ""
  | some c => return " WHERE " ++ (← c.print)

def printOrder : Option (List SortItem) → Printing
  | none => pure ""
  | some items => return " ORDER BY " ++ ", ".intercalate (← items.mapM SortItem.print)

def countText (keyword : String) : Option UInt64 → String
  | none => ""
  | some n => keyword ++ toString n.toNat

def printBody (b : Projection) : Printing := do
  let items ← printItems b.items
  let order ← printOrder b.order
  return (if b.distinct then "DISTINCT " else "") ++ items ++ order ++ countText " SKIP " b.skip
    ++ countText " LIMIT " b.limit

def print : Clause → Printing
  | .matching m =>
    return (if m.optional then "OPTIONAL " else "") ++ "MATCH " ++ (← m.pattern.print) ++
      (← printFilter m.filter)
  | .creating p => return "CREATE " ++ (← p.print)
  | .merging p => return "MERGE " ++ (← p.print)
  | .deleting detach items =>
    return (if detach then "DETACH " else "") ++ "DELETE " ++ (← printItems items)
  | .setting items => return "SET " ++ (← printItems items)
  | .removing items => return "REMOVE " ++ (← printItems items)
  | .unwinding e name => return "UNWIND " ++ (← e.print) ++ " AS " ++ name.text
  | .passing w => return "WITH " ++ (← printBody w.body) ++ (← printFilter w.filter)
  | .returning b => return "RETURN " ++ (← printBody b)

end Clause

def Query.print (q : Query) : Printing := return " ".intercalate (← q.clauses.mapM Clause.print)

namespace Statement

def print : Statement → Printing
  | .single q => q.print
  | .union all parts =>
    return (if all then " UNION ALL " else " UNION ").intercalate (← parts.mapM Query.print)

/-- The text of a statement in which the names of parameters without name begin with a stem. -/
def printed (stem : String) (s : Statement) : String :=
  (s.print.run ⟨[], [], .new (.new stem) s.parameterNames⟩).1

end Statement
end GraphQuery
