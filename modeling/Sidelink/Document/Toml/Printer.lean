import Sidelink.Document.Printer
import Sidelink.Document.Toml

/-!
Documents as TOML text. A record is written as a table: its entries on lines of their own, then the tables in it and
its lists of tables under headers with their paths. There is no null: a field that is null is left out, and a list
with null in it has no text. A whole number of 64 bits with its sign is written as it is, any other number as the
double nearest to it.
-/
namespace Sidelink.Document.Toml

/-- A text in quotes. -/
def quoteText (s : String) : String :=
  let escaped (c : Char) : List Char := if c = '\x7f' then ['\\', 'u', '0', '0', '7', 'f'] else Document.escape c
  "\"" ++ String.ofList (s.toList.flatMap escaped) ++ "\""

def keyText (key : String) : String := if key ≠ "" && key.toList.all isBare then key else quoteText key

def pathText (path : List String) : String := ".".intercalate (path.map keyText)

mutual

/-- A value on one line. -/
def valueText? : Document → Option String
  | .null => none
  | .bool b => some (if b then "true" else "false")
  | .number t => some (numeral 9223372036854775807 t)
  | .text s | .plain s => some (quoteText s)
  | .list items => (itemTexts? items).map fun texts => "[" ++ ", ".intercalate texts ++ "]"
  | .record fields => (fieldTexts? fields).map fun texts => "\x7b" ++ ", ".intercalate texts ++ "\x7d"

def itemTexts? : List Document → Option (List String)
  | [] => some []
  | d :: rest => return (← valueText? d) :: (← itemTexts? rest)

def fieldTexts? : List (String × Document) → Option (List String)
  | [] => some []
  | (_, .null) :: rest => fieldTexts? rest
  | (key, d) :: rest => return (keyText key ++ " = " ++ (← valueText? d)) :: (← fieldTexts? rest)

end

/-- Whether a value is written under headers. -/
def hasHeader : Document → Bool
  | .record _ => true
  | .list [] => false
  | .list items => items.all fun
    | .record _ => true
    | _ => false
  | _ => false

mutual

/-- The lines of a table behind its header, or of a list of tables. -/
def tableLines? (path : List String) : Document → Option (List String)
  | .record fields =>
    return (← fieldTexts? (fields.filter fun (_, d) => !hasHeader d)) ++ (← partLines? path fields)
  | .list items => listLines? path items
  | _ => none

/-- The lines of the tables and lists of tables in a table. -/
def partLines? (path : List String) : List (String × Document) → Option (List String)
  | [] => some []
  | (key, d) :: rest =>
    if hasHeader d then do
      let path' := path ++ [key]
      let header := match d with
        | .list _ => []
        | _ => ["[" ++ pathText path' ++ "]"]
      return header ++ (← tableLines? path' d) ++ (← partLines? path rest)
    else partLines? path rest

def listLines? (path : List String) : List Document → Option (List String)
  | [] => some []
  | d :: rest => return ("[[" ++ pathText path ++ "]]") :: (← tableLines? path d) ++ (← listLines? path rest)

end

/-- The text of a record. -/
def write? : Document → Option String
  | .record fields => (tableLines? [] (.record fields)).map ("\n".intercalate ·)
  | _ => none

end Sidelink.Document.Toml
