/-! TOML documents as values. Settings hold strings, whole numbers and truth values; of the other
scalars only the kind is kept. -/
namespace GraphQuery

inductive Toml where
  | string (value : String)
  | integer (value : Int)
  | float
  | boolean (value : Bool)
  | dateTime
  /-- A number in form, but one that is too large or has a digit that is not of its base. -/
  | unreadable
  | array (items : List Toml)
  | table (entries : List (String × Toml))

namespace Toml

mutual

/-- Whether every number in it, at any depth, can be read. -/
def isReadable : Toml → Bool
  | .unreadable => false
  | .array items => itemsReadable items
  | .table entries => entriesReadable entries
  | .string _ => true
  | .integer _ => true
  | .float => true
  | .boolean _ => true
  | .dateTime => true

def itemsReadable : List Toml → Bool
  | [] => true
  | v :: rest => isReadable v && itemsReadable rest

def entriesReadable : List (String × Toml) → Bool
  | [] => true
  | (_, v) :: rest => isReadable v && entriesReadable rest

end

end Toml
end GraphQuery
