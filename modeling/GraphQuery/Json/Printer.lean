import GraphQuery.Decimal.Layout
import GraphQuery.Json
import GraphQuery.Text.Displayed

/-! Two texts of a JSON value: the compact one that other programs read, and the structural one
that a log shows. -/
namespace GraphQuery.Json

/-- Four hexadecimal digits. -/
def hexQuad (n : Nat) : List Char :=
  let ds := Nat.toDigits 16 n
  List.replicate (4 - ds.length) '0' ++ ds

/-- One character of a JSON string; only quotes, backslashes and controls need an escape. -/
def stringChar (c : Char) : List Char :=
  if c = '"' ∨ c = '\\' then ['\\', c]
  else if c = '\x08' then ['\\', 'b']
  else if c = '\x0C' then ['\\', 'f']
  else if c = '\n' then ['\\', 'n']
  else if c = '\r' then ['\\', 'r']
  else if c = '\t' then ['\\', 't']
  else if c.toNat < 0x20 then '\\' :: 'u' :: hexQuad c.toNat
  else [c]

def stringText (s : String) : String :=
  String.ofList ('"' :: (s.toList.flatMap stringChar ++ ['"']))

/-- The fewest digits that read back. A whole number keeps a zero after the point; all places
are written while the point lies within them or at most five places away. -/
def floatText (x : Binary64) : String :=
  let d := x.shortest .even
  let body :=
    if x.isZero then ['0', '.', '0']
    else if 0 ≤ d.exponent ∧ d.point ≤ 16 then d.positional ++ ['.', '0']
    else if -5 < d.point ∧ d.point ≤ 16 then d.positional
    else d.scientific
  String.ofList (if x.negative then '-' :: body else body)

mutual

/-- The compact text, without blanks and with all printable characters as they are. -/
def compact : Json → String
  | .null => "null"
  | .bool b => if b then "true" else "false"
  | .integer n => toString n.value
  | .float x => floatText x
  | .string s => stringText s
  | .array items => "[" ++ ",".intercalate (compactItems items) ++ "]"
  | .object entries => "\x7b" ++ ",".intercalate (compactEntries entries) ++ "\x7d"

def compactItems : List Json → List String
  | [] => []
  | v :: rest => compact v :: compactItems rest

def compactEntries : List (String × Json) → List String
  | [] => []
  | (k, v) :: rest => (stringText k ++ ":" ++ compact v) :: compactEntries rest

end

/-- The entries of a map as a log shows them. -/
def displayedMap (entries : List (String × String)) : String :=
  "\x7b" ++ ", ".intercalate (entries.map fun e => Text.displayed e.1 ++ ": " ++ e.2) ++ "\x7d"

mutual

/-- The structural text, which names the kind of every value. -/
def displayed : Json → String
  | .null => "Null"
  | .bool b => if b then "Bool(true)" else "Bool(false)"
  | .integer n => "Number(" ++ toString n.value ++ ")"
  | .float x => "Number(" ++ floatText x ++ ")"
  | .string s => "String(" ++ Text.displayed s ++ ")"
  | .array items => "Array [" ++ ", ".intercalate (displayedItems items) ++ "]"
  | .object entries => "Object " ++ displayedMap (displayedEntries entries)

def displayedItems : List Json → List String
  | [] => []
  | v :: rest => displayed v :: displayedItems rest

def displayedEntries : List (String × Json) → List (String × String)
  | [] => []
  | (k, v) :: rest => (k, displayed v) :: displayedEntries rest

end

example : compact (.array [.null, .string "a\n", .float (.zero true)]) = "[null,\"a\\n\",-0.0]" := by
  decide +kernel
example : compact (ofEntries [("b", .bool true), ("a", .array [])]) = "\x7b\"a\":[],\"b\":true\x7d" := by
  decide +kernel
example : displayed (ofEntries [("k", .null)]) = "Object \x7b\"k\": Null\x7d" := by decide +kernel
example : (Binary64.ofDecimal? false 1 16).map floatText = some "1e+16" := by decide +kernel
example : (Binary64.ofDecimal? false 123 13).map floatText = some "1230000000000000.0" := by decide +kernel
example : (Binary64.ofDecimal? false 15 (-6)).map floatText = some "0.000015" := by decide +kernel
example : (Binary64.ofDecimal? false 15 (-7)).map floatText = some "1.5e-6" := by decide +kernel

end GraphQuery.Json
