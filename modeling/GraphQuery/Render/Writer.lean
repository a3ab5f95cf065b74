import GraphQuery.Parameter.Table
import GraphQuery.Text.Quoted
import GraphQuery.Traversal

/-! The visitor that writes a statement. It puts text in front of a node when it enters it and
behind it when it leaves it, and decides before it enters a node whether the node is written at
all. -/
namespace GraphQuery.Render

structure Writer where
  text : String
  table : ParameterTable
  /-- The names of the nodes written so far. -/
  nodes : List Identifier
  /-- The expressions written so far with their aliases. -/
  aliases : List (Expression × Identifier)
  /-- Whether the open node was written before, so that only its name is written. -/
  skipping : Bool
  /-- How many children of each open comma-separated construct have been reached. -/
  counters : List Nat
  records : List Record

namespace Writer

def new (table : ParameterTable) : Writer := ⟨"", table, [], [], false, [], []⟩

def write (w : Writer) (s : String) : Writer := { w with text := w.text ++ s }

def isSeparated (ancestors : List Place) : Bool :=
  match ancestors with
  | parent :: _ => parent.tree.construct.isSeparated
  | [] => false

/-- Count a child of a comma-separated construct, with a comma in front of all but the first. -/
def separate (w : Writer) (ancestors : List Place) : Writer :=
  if isSeparated ancestors then
    match w.counters with
    | [] => w
    | n :: rest => { w.write (if 0 < n then ", " else "") with counters := (n + 1) :: rest }
  else w

/-- A comparison inside another one needs parentheses unless it binds more tightly. -/
def needsParentheses (op : Comparator) (ancestors : List Place) : Bool :=
  match ancestors with
  | parent :: _ =>
    match parent.tree.construct with
    | .comparison outer => op.precedence ≤ outer.precedence
    | _ => false
  | [] => false

def isAliasWritten (w : Writer) (e : Expression) (name : Identifier) : Bool :=
  w.aliases.any fun a => a.1.same e && a.2 == name

/-- Below a node that was written before nothing is written, and an aliased expression that was
written before is written as its alias. -/
def accept (p : Place) (ancestors : List Place) (w : Writer) : Bool × Writer :=
  if w.skipping then (false, w)
  else
    let w := w.separate ancestors
    match p.tree.construct with
    | .aliased e name =>
      if w.isAliasWritten e name then (false, w.write name.text) else (true, w)
    | _ => (true, w)

def endsWithSpace (w : Writer) : Bool := w.text.toList.getLast? == some ' '

def typesText : List String → String
  | [] => ""
  | t :: rest => ":" ++ Text.quotedName t ++ String.join (rest.map fun t => "|" ++ Text.quotedName t)

def boundText (bound : Option UInt32) : String := (bound.map fun n => toString n.toNat).getD ""

def lengthText (r : LengthRange) : String :=
  if r.isUnbounded then "*" else "*" ++ boundText r.minimum ++ ".." ++ boundText r.maximum

/-- The text in front of the children of a construct. A node that was written before has its name
here, since its children are skipped. -/
def openingText (c : Construct) (ancestors : List Place) (w : Writer) : String :=
  match c with
  | .unionPart all =>
    (if w.endsWithSpace then "" else " ") ++ "UNION " ++ (if all then "ALL " else "")
  | .matching optional => (if optional then "OPTIONAL " else "") ++ "MATCH "
  | .filter => " WHERE "
  | .creating => "CREATE "
  | .merging => "MERGE "
  | .deleting detach => (if detach then "DETACH " else "") ++ "DELETE "
  | .setting => "SET "
  | .removing => "REMOVE "
  | .unwinding _ => "UNWIND "
  | .passing distinct => "WITH " ++ (if distinct then "DISTINCT " else "")
  | .returning distinct => "RETURN " ++ (if distinct then "DISTINCT " else "")
  | .order => " ORDER BY "
  | .sortDirection d => " " ++ d.symbol
  | .skip n => " SKIP " ++ toString n.toNat
  | .limit n => " LIMIT " ++ toString n.toNat
  | .node none => "("
  | .node (some n) => "(" ++ (if n ∈ w.nodes then n.text else "")
  | .nodeLabel l => ":" ++ Text.quotedName l.text
  | .properties => " "
  | .relationshipDetail d => d.left ++ "["
  | .relationshipTypes ts => typesText ts
  | .relationshipLength r => lengthText r
  | .literal l => l.text
  | .symbolicName n => n.text
  | .parameter p => "$" ++ (w.table.register p).value.1
  | .function f => f ++ "("
  | .operation op => if op.isArithmetic then "(" else ""
  | .operator op => op.text
  | .map => "\x7b"
  | .mapEntry key => key ++ ": "
  | .list => "["
  | .asterisk => "*"
  | .comparison op => if needsParentheses op ancestors then "(" else ""
  | .compound _ => "("
  | .not => "NOT ("
  | .statement | .singleQuery | .sortItem | .pattern | .expressionList | .relationship
  | .relationshipChain | .propertyLookup _ | .aliased .. | .hasLabels => ""

/-- The text behind the children of a construct. -/
def closingText (c : Construct) (ancestors : List Place) : String :=
  match c with
  | .matching _ | .creating | .merging | .deleting _ | .setting | .removing | .passing _ => " "
  | .unwinding name => " AS " ++ name.text ++ " "
  | .node _ => ")"
  | .relationshipDetail d => "]" ++ d.right
  | .propertyLookup key => "." ++ key
  | .function _ => ")"
  | .operation op => if op.isArithmetic then ")" else ""
  | .aliased _ name => " AS " ++ name.text
  | .map => "\x7d"
  | .list => "]"
  | .comparison op => if needsParentheses op ancestors then ")" else ""
  | .compound _ | .not => ")"
  | _ => ""

/-- What is kept of a construct that is entered: the name of a node, the name of a parameter, an
alias. Below a node that was written before everything is skipped, and a comma-separated construct
gets a counter of its own. -/
def note (c : Construct) (w : Writer) : Writer :=
  match c with
  | .node (some n) =>
    if n ∈ w.nodes then { w with skipping := true }
    else { w with skipping := false, nodes := n :: w.nodes }
  | .parameter p =>
    let r := w.table.register p
    { w with table := r.value.2, records := w.records ++ r.records }
  | .aliased e name => { w with aliases := w.aliases ++ [(e, name)] }
  | c => if c.isSeparated then { w with counters := 0 :: w.counters } else w

/-- What ends with a construct: that its parts are skipped, or its counter. -/
def settle (c : Construct) (w : Writer) : Writer :=
  match c with
  | .node _ => { w with skipping := false }
  | c => if c.isSeparated then { w with counters := w.counters.tail } else w

def enter (p : Place) (ancestors : List Place) (w : Writer) : Writer :=
  (w.write (openingText p.tree.construct ancestors w)).note p.tree.construct

def leave (p : Place) (ancestors : List Place) (w : Writer) : Writer :=
  (w.write (closingText p.tree.construct ancestors)).settle p.tree.construct

def visitor : Visitor Writer := ⟨accept, enter, leave, fun _ _ w => w⟩

end Writer
end GraphQuery.Render
