import GraphQuery.Decimal.Binary64

/-! JSON values: the values that parameters carry. Whole numbers and floats are different kinds,
so `1` is not `1.0`, and the entries of an object stand in the order of their keys. -/
namespace GraphQuery

/-- The whole numbers of 64 bits, with a sign or without. -/
structure WideInt where
  value : Int
  lower : -9223372036854775808 ≤ value
  upper : value < 18446744073709551616
  deriving DecidableEq

namespace WideInt

def ofInt? (n : Int) : Option WideInt :=
  if h : -9223372036854775808 ≤ n ∧ n < 18446744073709551616 then some ⟨n, h.1, h.2⟩ else none

end WideInt

inductive Json where
  | null
  | bool (value : Bool)
  | integer (value : WideInt)
  | float (value : Binary64)
  | string (value : String)
  | array (items : List Json)
  | object (entries : List (String × Json))

namespace Json

/-- Add an entry at the place of its key, in exchange for an older entry of the same key. -/
def insertEntry (key : String) (value : Json) : List (String × Json) → List (String × Json)
  | [] => [(key, value)]
  | (k, v) :: rest =>
    if key < k then (key, value) :: (k, v) :: rest
    else if key = k then (key, value) :: rest
    else (k, v) :: insertEntry key value rest

/-- The object of the given entries; the last value of a repeated key stays. -/
def ofEntries (entries : List (String × Json)) : Json :=
  .object (entries.foldl (fun sorted e => insertEntry e.1 e.2 sorted) [])

def isNull : Json → Bool
  | .null => true
  | _ => false

mutual

/-- Equality of values, in which the two float zeros are equal. -/
def same : Json → Json → Bool
  | .null, .null => true
  | .bool a, .bool b => a == b
  | .integer a, .integer b => a == b
  | .float a, .float b => a.same b
  | .string a, .string b => a == b
  | .array a, .array b => sameItems a b
  | .object a, .object b => sameEntries a b
  | _, _ => false

def sameItems : List Json → List Json → Bool
  | [], [] => true
  | a :: as, b :: bs => same a b && sameItems as bs
  | _, _ => false

def sameEntries : List (String × Json) → List (String × Json) → Bool
  | [], [] => true
  | (k, a) :: as, (l, b) :: bs => k == l && same a b && sameEntries as bs
  | _, _ => false

end

example : same (ofEntries [("b", .null), ("a", .bool true)]) (ofEntries [("a", .bool true), ("b", .null)]) := by
  decide
example : same (.float (.zero true)) (.float (.zero false)) := by decide

end Json
end GraphQuery
