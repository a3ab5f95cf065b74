import GraphQuery.Decimal.Layout
import GraphQuery.Error
import GraphQuery.Json
import GraphQuery.Text.Quoted

/-! Literals: constants of the query language, and their text. -/
namespace GraphQuery

/-- A number of the binary64 format, or one of the values that are none. -/
inductive Double where
  | finite (value : Binary64)
  | infinite (negative : Bool)
  | nan
  deriving DecidableEq

inductive Literal where
  | null
  | boolean (value : Bool)
  | integer (value : Int64)
  | float (value : Binary64)
  | string (value : String)
  | list (items : List Literal)

namespace Literal

/-- Only finite numbers have a literal. -/
def ofDouble : Double → Except ArgumentError Literal
  | .finite x => .ok (.float x)
  | .infinite false => .error (.literalUnsupported "inf")
  | .infinite true => .error (.literalUnsupported "-inf")
  | .nan => .error (.literalUnsupported "NaN")

/-- A whole number keeps a zero after the point while it is less than 10^15; all other numbers
have all places of their shortest decimal written out. -/
def floatText (x : Binary64) : String :=
  let one := Nat.pow 2 1074
  let whole := x.units / one
  let body :=
    if x.units % one = 0 ∧ whole < 1000000000000000 then Nat.toDigits 10 whole ++ ['.', '0']
    else (x.shortest .up).positional
  String.ofList (if x.negative then '-' :: body else body)

mutual

def text : Literal → String
  | .null => "NULL"
  | .boolean b => if b then "true" else "false"
  | .integer n => toString n.toInt
  | .float x => floatText x
  | .string s => Text.quotedString s
  | .list items => "[" ++ ", ".intercalate (texts items) ++ "]"

def texts : List Literal → List String
  | [] => []
  | l :: rest => text l :: texts rest

end

mutual

/-- Equality of values, in which the two float zeros are equal. -/
def same : Literal → Literal → Bool
  | .null, .null => true
  | .boolean a, .boolean b => a == b
  | .integer a, .integer b => a == b
  | .float a, .float b => a.same b
  | .string a, .string b => a == b
  | .list a, .list b => sameItems a b
  | _, _ => false

def sameItems : List Literal → List Literal → Bool
  | [], [] => true
  | a :: as, b :: bs => same a b && sameItems as bs
  | _, _ => false

end

/-- A whole number of a JSON value. From 2^63 on it is the nearest float. -/
def ofWideInt (n : WideInt) : Except ArgumentError Literal :=
  if n.value < 9223372036854775808 then .ok (.integer (Int64.ofInt n.value))
  else
    match Binary64.ofRatio? false n.value.toNat 1 with
    | some x => .ok (.float x)
    | none => .error (.literalUnsupported (toString n.value))

mutual

/-- The literal of a JSON value; objects have none. -/
def ofJson : Json → Except ArgumentError Literal
  | .null => .ok .null
  | .bool b => .ok (.boolean b)
  | .integer n => ofWideInt n
  | .float x => .ok (.float x)
  | .string s => .ok (.string s)
  | .array items => (ofJsonItems items).map .list
  | .object _ => .error (.literalUnsupported "map")

def ofJsonItems : List Json → Except ArgumentError (List Literal)
  | [] => .ok []
  | v :: rest => do
    let l ← ofJson v
    let ls ← ofJsonItems rest
    return l :: ls

end

@[simp] theorem texts_eq_map (ls : List Literal) : texts ls = ls.map text := by
  induction ls with
  | nil => rfl
  | cons l ls ih => simp [texts, ih]

example : text (.list [.integer 1, .boolean true, .string "a"]) = "[1, true, 'a']" := by decide +kernel
example : text (.list []) = "[]" := by decide
example : (Binary64.ofDecimal? true 2 0).map floatText = some "-2.0" := by decide +kernel
example : (Binary64.ofDecimal? false 25 (-1)).map floatText = some "2.5" := by decide +kernel
example : (Binary64.ofDecimal? false 1 15).map floatText = some "1000000000000000" := by decide +kernel
example : floatText (.zero true) = "-0.0" := by decide +kernel

end Literal
end GraphQuery
