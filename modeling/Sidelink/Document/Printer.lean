import Sidelink.Bytes
import Sidelink.Decimal.Nearest
import Sidelink.Decimal.Shortest
import Sidelink.Document

/-!
Documents as JSON text: on one line, or with each item and field on a line of its own, indented by two blanks for
each level. Characters beyond ASCII are written as they are; quotes, backslashes and control characters are escaped.
A whole number of 64 bits is written as it is (`numeral`), any other number as the double nearest to it.
-/
namespace Sidelink.Document

/-- A character inside quotes. -/
def escape (c : Char) : List Char :=
  if c = '"' then ['\\', '"']
  else if c = '\\' then ['\\', '\\']
  else if c = '\n' then ['\\', 'n']
  else if c = '\r' then ['\\', 'r']
  else if c = '\t' then ['\\', 't']
  else if c = '\x08' then ['\\', 'b']
  else if c = '\x0c' then ['\\', 'f']
  else if c.toNat < 32 then
    ['\\', 'u', '0', '0', Bytes.hexDigit (c.toNat / 16), Bytes.hexDigit (c.toNat % 16)]
  else [c]

/-- A text in quotes. -/
def quote (s : String) : String := "\"" ++ String.ofList (s.toList.flatMap escape) ++ "\""

/-- A number. A whole one is written as it is up to a bound, and down to the least one of 64 bits; minus zero is not
whole. -/
def numeral (bound : Nat) (t : String) : String :=
  let whole := match t.toList with
    | '-' :: digits => digits ≠ ['0'] && (Numeral.scan 9223372036854775808 0 digits).isOk
    | digits => (Numeral.scan bound 0 digits).isOk
  if whole then t else (Decimal.nearest? t.toList).elim t (Decimal.text .scientific)

/-- A line break, and the indentation of a level. -/
def newline (level : Nat) : String := "\n" ++ String.ofList (List.replicate (2 * level) ' ')

mutual

/-- A document on one line. -/
def compact : Document → String
  | .null => "null"
  | .bool b => if b then "true" else "false"
  | .number t => numeral 18446744073709551615 t
  | .text s | .plain s => quote s
  | .list items => "[" ++ compactItems items ++ "]"
  | .record fields => "\x7b" ++ compactFields fields ++ "\x7d"

def compactItems : List Document → String
  | [] => ""
  | [d] => compact d
  | d :: rest => compact d ++ "," ++ compactItems rest

def compactFields : List (String × Document) → String
  | [] => ""
  | [(k, d)] => quote k ++ ":" ++ compact d
  | (k, d) :: rest => quote k ++ ":" ++ compact d ++ "," ++ compactFields rest

end

mutual

/-- A document over several lines, from a level of indentation on; an empty list or record stays on its line. -/
def pretty (level : Nat) : Document → String
  | .null => "null"
  | .bool b => if b then "true" else "false"
  | .number t => numeral 18446744073709551615 t
  | .text s | .plain s => quote s
  | .list [] => "[]"
  | .list items => "[" ++ prettyItems (level + 1) items ++ newline level ++ "]"
  | .record [] => "\x7b\x7d"
  | .record fields => "\x7b" ++ prettyFields (level + 1) fields ++ newline level ++ "\x7d"

def prettyItems (level : Nat) : List Document → String
  | [] => ""
  | [d] => newline level ++ pretty level d
  | d :: rest => newline level ++ pretty level d ++ "," ++ prettyItems level rest

def prettyFields (level : Nat) : List (String × Document) → String
  | [] => ""
  | [(k, d)] => newline level ++ quote k ++ ": " ++ pretty level d
  | (k, d) :: rest => newline level ++ quote k ++ ": " ++ pretty level d ++ "," ++ prettyFields level rest

end

end Sidelink.Document
