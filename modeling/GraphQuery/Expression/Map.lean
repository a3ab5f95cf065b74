import GraphQuery.Expression

/-! Map expressions, made from alternating keys and values or from pairs. Keys are not empty and
do not repeat. -/
namespace GraphQuery

/-- One member of a list of alternating keys and values. -/
inductive MapArgument where
  | key (text : String)
  | value (expression : Expression)

namespace MapArgument

/-- A key in the place of a value is a string. -/
def toValue : MapArgument → Expression
  | .key text => .literal (.string text)
  | .value e => e

/-- Read keys and values in turn. -/
def pairs : List MapArgument → Except ArgumentError (List (String × Expression))
  | .key k :: v :: rest => (pairs rest).map ((k, v.toValue) :: ·)
  | .value _ :: _ :: _ => .error .mapKeyInvalid
  | _ => .ok []

end MapArgument

namespace MapExpression

/-- The entries of the pairs, of which none may repeat a key in `seen`. -/
def entriesOf (seen : List String) : List (String × Expression) → Except ArgumentError (List MapEntry)
  | [] => .ok []
  | (k, v) :: rest =>
    if k = "" then .error .mapKeyInvalid
    else if k ∈ seen then .error (.mapKeyRepeated k)
    else (entriesOf (k :: seen) rest).map (⟨k, v⟩ :: ·)

def ofPairs (pairs : List (String × Expression)) : Except ArgumentError MapExpression :=
  (entriesOf [] pairs).map .mk

def create (arguments : List MapArgument) : Except ArgumentError MapExpression :=
  if arguments.length % 2 = 1 then .error .mapArgumentsOdd
  else (MapArgument.pairs arguments).bind ofPairs

/-- The properties of a node or a relationship; without arguments there are none. -/
def properties (arguments : List MapArgument) : Except ArgumentError (Option MapExpression) :=
  if arguments.isEmpty then .ok none else (create arguments).map some

example : (create [.key "a", .key "b"]).toOption.map (fun m => m.entries.map MapEntry.key) = some ["a"] := by
  decide
example : (match create [.key "a", .key "1", .key "a", .key "2"] with
    | .error e => some e | .ok _ => none) = some (.mapKeyRepeated "a") := by decide
example : (match create [.key "a", .key "1", .key "a", .key "2", .value .asterisk, .key "x"] with
    | .error e => some e | .ok _ => none) = some .mapKeyInvalid := by decide

end MapExpression
end GraphQuery
