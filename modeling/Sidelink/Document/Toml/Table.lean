import Sidelink.Document

/-!
Tables as TOML text builds them up. A header opens a table that is not there yet, or that only the headers of tables
in it have made. Dotted keys add to tables that dotted keys have made, and to no others.
-/
namespace Sidelink.Document.Toml

/-- The parts of a key: those that name tables, and the last. -/
structure Key where
  parents : List String
  name : String

def Key.path (key : Key) : List String := key.parents ++ [key.name]

/-- What a table has been made by. -/
inductive Origin where
  | ownHeader
  /-- Headers of tables in it. -/
  | innerHeader
  | dottedKey
  deriving DecidableEq

inductive Item where
  | value (d : Document)
  | table (origin : Origin) (entries : List (String × Item))
  /-- A list of tables with headers, the last first. -/
  | tables (items : List (List (String × Item)))

/-- The entries of a table, the last first. -/
abbrev Entries := List (String × Item)

namespace Entries

/-- Gives a key that is there another item. -/
def replace (key : String) (item : Item) (entries : Entries) : Entries :=
  entries.map fun entry => if entry.1 = key then (key, item) else entry

/-- Changes the table at a path, and makes the tables on the path that are not there. The last of a list of tables
stands for the list. -/
def change? (dotted : Bool) (edit : Origin → Entries → Option Entries) :
    List String → Origin → Entries → Option Entries
  | [], origin, entries => edit origin entries
  | key :: path, _, entries =>
    match entries.lookup key with
    | none => do
      let origin := if dotted then .dottedKey else .innerHeader
      return (key, .table origin (← change? dotted edit path origin [])) :: entries
    | some (.table origin inner) =>
      if dotted && origin = .ownHeader then none
      else (change? dotted edit path origin inner).map fun inner => entries.replace key (.table origin inner)
    | some (.tables (inner :: before)) =>
      (change? dotted edit path .ownHeader inner).map fun inner => entries.replace key (.tables (inner :: before))
    | some (.tables []) => none
    | some (.value _) => none

/-- Adds a value under a key. -/
def enter? (key : Key) (d : Document) : Origin → Entries → Option Entries :=
  change? true (fun origin entries =>
    if (!key.parents.isEmpty && origin ≠ .dottedKey) || (entries.lookup key.name).isSome then none
    else some ((key.name, .value d) :: entries)) key.parents

/-- Opens the table of a name. -/
def openTable? (name : String) (entries : Entries) : Option Entries :=
  match entries.lookup name with
  | none => some ((name, .table .ownHeader []) :: entries)
  | some (.table .innerHeader inner) => some (entries.replace name (.table .ownHeader inner))
  | _ => none

/-- Adds a table to the list of a name. -/
def appendTable? (name : String) (entries : Entries) : Option Entries :=
  match entries.lookup name with
  | none => some ((name, .tables [[]]) :: entries)
  | some (.tables items) => some (entries.replace name (.tables ([] :: items)))
  | _ => none

end Entries

/-! ## Documents -/

mutual

def Item.toDocument : Item → Document
  | .value d => d
  | .table _ entries => .record (fieldsOf entries).reverse
  | .tables items => .list (recordsOf items).reverse

/-- The fields of entries, in the order of the entries. -/
def fieldsOf : List (String × Item) → List (String × Document)
  | [] => []
  | (key, item) :: rest => (key, item.toDocument) :: fieldsOf rest

/-- The records of tables, in the order of the tables. -/
def recordsOf : List (List (String × Item)) → List Document
  | [] => []
  | entries :: rest => .record (fieldsOf entries).reverse :: recordsOf rest

end

/-- The record of a table. -/
def Entries.toDocument (entries : Entries) : Document := .record (fieldsOf entries).reverse

end Sidelink.Document.Toml
