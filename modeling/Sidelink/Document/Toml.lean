import Sidelink.Document.Toml.Value

/-!
Reading documents from TOML text: a list of statements (`Statement`), each on lines of its own, that build up one
record. A header names the table that the entries after it belong to, or adds a table to a list of tables.
-/
namespace Sidelink.Document.Toml

inductive Statement where
  /-- The entries that follow belong to a table, which is a new one of a list of tables if there are many. -/
  | header (many : Bool) (key : Key)
  | entry (key : Key) (value : Document)

def header? (many : Bool) (cs : List Char) : Option (Statement × List Char) := do
  let (key, rest) ← key? limit cs
  match many, rest with
  | true, ']' :: ']' :: rest => return (.header true key, rest)
  | false, ']' :: rest => return (.header false key, rest)
  | _, _ => none

def statement? (fuel : Nat) (cs : List Char) : Option (Statement × List Char) :=
  match cs with
  | '[' :: '[' :: rest => header? true rest
  | '[' :: rest => header? false rest
  | cs => do
    let (key, rest) ← key? limit cs
    match rest with
    | '=' :: rest =>
      let (d, rest) ← value? fuel limit (skipBlank rest)
      return (.entry key d, rest)
    | _ => none

/-- The text behind the end of a line, if only blanks and a comment come before it. -/
def endLine? (cs : List Char) : Option (List Char) :=
  let rest := match skipBlank cs with
    | '#' :: rest => rest.dropWhile isPermitted
    | rest => rest
  match rest with
  | [] => some []
  | '\n' :: rest => some rest
  | '\r' :: '\n' :: rest => some rest
  | _ => none

/-- The statements of a text; `fuel` bounds their number and their length. -/
def statements? : Nat → List Char → Option (List Statement)
  | 0, _ => none
  | fuel + 1, cs =>
    match skipLines false cs with
    | [] => some []
    | cs => do
      let (s, rest) ← statement? fuel cs
      return s :: (← statements? fuel (← endLine? rest))

/-- The entries of the whole text after statements, from the path of the table that is open on. -/
def build? : List String → Entries → List Statement → Option Entries
  | _, entries, [] => some entries
  | _, entries, .header many key :: rest => do
    let edit := if many then Entries.appendTable? key.name else Entries.openTable? key.name
    build? key.path (← entries.change? false (fun _ => edit) key.parents .ownHeader) rest
  | table, entries, .entry key d :: rest => do
    build? table (← entries.change? false (Entries.enter? key d) table .ownHeader) rest

/-- The document of a whole text. A byte order mark may come first. -/
def read (s : String) : Option Document := do
  let cs := match s.toList with
    | '\uFEFF' :: rest => rest
    | cs => cs
  let entries ← build? [] [] (← statements? (2 * cs.length + 2) cs)
  return entries.toDocument

end Sidelink.Document.Toml
