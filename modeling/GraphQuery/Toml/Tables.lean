import GraphQuery.Toml

/-! Tables under construction. A table can be opened by a header, by a dotted key, or by the way
only, as a part of a longer header; which of them it was decides what may still be added. -/
namespace GraphQuery.Toml

inductive Origin where
  | header
  | dotted
  | implied
  deriving DecidableEq, Repr

/-- Something under a key: a finished value, a table, or the tables of an array. -/
inductive Item where
  | value (value : Toml)
  | table (origin : Origin) (entries : List (String × Item))
  | tables (elements : List (List (String × Item)))

abbrev Entries := List (String × Item)

namespace Entries

/-- Change what is under a key, or add the key. -/
def alter (key : String) (f : Option Item → Option Item) : Entries → Option Entries
  | [] => (f none).map fun item => [(key, item)]
  | (k, item) :: rest =>
    if k = key then (f (some item)).map fun item => (k, item) :: rest
    else (alter key f rest).map ((k, item) :: ·)

/-- Change the table at a path. The last table of an array stands for the array, and no dotted
key leads into a table that has a header of its own. -/
def modifyAt (dotted : Bool) (f : Origin → Entries → Option Entries) :
    List String → Origin → Entries → Option Entries
  | [], origin, es => f origin es
  | key :: path, _, es =>
    alter key (fun
      | none =>
        let origin := if dotted then .dotted else .implied
        (modifyAt dotted f path origin []).map (.table origin)
      | some (.table origin es) =>
        if dotted && origin == .header then none
        else (modifyAt dotted f path origin es).map (.table origin)
      | some (.tables elements) => do
        let last ← elements.getLast?
        let changed ← modifyAt dotted f path .header last
        return .tables (elements.dropLast ++ [changed])
      | some (.value _) => none) es

/-- Add a value under a dotted key. A table of dotted keys is only extended by dotted keys. -/
def insert (path : List String) (key : String) (value : Toml) (origin : Origin) (es : Entries) :
    Option Entries :=
  modifyAt true (fun origin es =>
    if (origin == .dotted) == path.isEmpty then none
    else alter key (fun | none => some (.value value) | some _ => none) es) path origin es

/-- Open a table by a header. -/
def openTable (path : List String) (key : String) (es : Entries) : Option Entries :=
  modifyAt false (fun _ es =>
    alter key (fun
      | none => some (.table .header [])
      | some (.table .implied es) => some (.table .header es)
      | some _ => none) es) path .header es

/-- Add a table to an array of tables. -/
def openElement (path : List String) (key : String) (es : Entries) : Option Entries :=
  modifyAt false (fun _ es =>
    alter key (fun
      | none => some (.tables [[]])
      | some (.tables elements) => some (.tables (elements ++ [[]]))
      | some _ => none) es) path .header es

end Entries

mutual

/-- The finished value of an item. -/
def Item.toToml : Item → Toml
  | .value v => v
  | .table _ es => .table (finishEntries es)
  | .tables elements => .array (finishElements elements)
termination_by structural x => x

def finishEntries : List (String × Item) → List (String × Toml)
  | [] => []
  | (k, item) :: rest => (k, item.toToml) :: finishEntries rest
termination_by structural x => x

def finishElements : List (List (String × Item)) → List Toml
  | [] => []
  | es :: rest => .table (finishEntries es) :: finishElements rest
termination_by structural x => x

end

end GraphQuery.Toml
