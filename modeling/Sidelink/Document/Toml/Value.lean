import Sidelink.Document.Json
import Sidelink.Document.Plain
import Sidelink.Document.Toml.Table

/-!
Keys and values of TOML text. Keys have at most `limit` parts, and lists and tables between braces lie within at most
as many others. Texts over several lines and dates are not read.
-/
namespace Sidelink.Document.Toml

/-- The greatest number of parts of a key, and of levels of a value. -/
def limit : Nat := 79

/-! ## Between tokens -/

def isBlank (c : Char) : Bool := c = ' ' || c = '\t'

def skipBlank (cs : List Char) : List Char := cs.dropWhile isBlank

/-- Whether a character may stand in a comment. -/
def isPermitted (c : Char) : Bool := c = '\t' || (32 ≤ c.toNat && c.toNat ≠ 127)

/-- The text behind blanks, comments and line breaks. -/
def skipLines (comment : Bool) : List Char → List Char
  | [] => []
  | '\n' :: rest => skipLines false rest
  | '\r' :: '\n' :: rest => skipLines false rest
  | c :: rest =>
    if comment then if isPermitted c then skipLines true rest else c :: rest
    else if c = '#' then skipLines true rest
    else if isBlank c then skipLines false rest
    else c :: rest

/-! ## Texts -/

/-- The character that an escape of one letter stands for. -/
def escaped? (c : Char) : Option Char :=
  match c with
  | 'b' => some '\x08'
  | 't' => some '\t'
  | 'n' => some '\n'
  | 'f' => some '\x0c'
  | 'r' => some '\r'
  | '"' => some '"'
  | '\\' => some '\\'
  | _ => none

/-- The characters of a text up to its closing double quote. -/
def basicText? : List Char → Option (List Char × List Char)
  | [] => none
  | '"' :: rest => some ([], rest)
  | '\\' :: 'u' :: d₁ :: d₂ :: d₃ :: d₄ :: rest => do
    let (c, _) ← Hexadecimal.char? 4 [d₁, d₂, d₃, d₄]
    let (more, rest) ← basicText? rest
    return (c :: more, rest)
  | '\\' :: 'U' :: d₁ :: d₂ :: d₃ :: d₄ :: d₅ :: d₆ :: d₇ :: d₈ :: rest => do
    let (c, _) ← Hexadecimal.char? 8 [d₁, d₂, d₃, d₄, d₅, d₆, d₇, d₈]
    let (more, rest) ← basicText? rest
    return (c :: more, rest)
  | '\\' :: c :: rest => do
    let e ← escaped? c
    let (more, rest) ← basicText? rest
    return (e :: more, rest)
  | c :: rest => if isPermitted c then (basicText? rest).map fun (more, rest) => (c :: more, rest) else none

/-- The characters of a text up to its closing single quote; each stands for itself. -/
def literalText? (cs : List Char) : Option (List Char × List Char) :=
  match cs.span (· ≠ '\'') with
  | (_, []) => none
  | (found, _ :: rest) => if found.all isPermitted then some (found, rest) else none

/-- A text in quotes. -/
def text? : List Char → Option (String × List Char)
  | '"' :: rest => (basicText? rest).map fun (s, rest) => (String.ofList s, rest)
  | '\'' :: rest => (literalText? rest).map fun (s, rest) => (String.ofList s, rest)
  | _ => none

/-! ## Keys -/

def isBare (c : Char) : Bool := c.isAlphanum || c = '-' || c = '_'

/-- One part of a key. -/
def keyPart? (cs : List Char) : Option (String × List Char) :=
  match text? cs with
  | some found => some found
  | none =>
    match cs.span isBare with
    | ([], _) => none
    | (word, rest) => some (String.ofList word, rest)

/-- A key of a number of parts at most, with dots between them, and the text behind it and the blanks there. -/
def key? : Nat → List Char → Option (Key × List Char)
  | 0, _ => none
  | count + 1, cs => do
    let (part, rest) ← keyPart? (skipBlank cs)
    match skipBlank rest with
    | '.' :: rest =>
      let (key, rest) ← key? count rest
      return ({ key with parents := part :: key.parents }, rest)
    | rest => return (⟨[], part⟩, rest)

/-! ## Words -/

/-- Whether a character is part of the spelling of a number or a truth value. -/
def isWordChar (c : Char) : Bool := isBare c || c = '.' || c = '+'

/-- The word without its underscores, each of which has digits on both sides. -/
def joined? (isDigit : Char → Bool) (afterDigit : Bool) : List Char → Option (List Char)
  | [] => some []
  | ['_'] => none
  | '_' :: c :: rest => if afterDigit && isDigit c then (joined? isDigit true rest).map (c :: ·) else none
  | c :: rest => (joined? isDigit (isDigit c) rest).map (c :: ·)

/-- A whole number of 64 bits. -/
def whole? (negative : Bool) (n : Nat) : Option Document :=
  if n < 9223372036854775808 || (negative && n = 9223372036854775808) then
    some (.number (toString (if negative then -(n : Int) else n)))
  else none

/-- A number that is not whole. One too great in size is infinite if it is negative. -/
def real? (negative : Bool) (unsigned : List Char) : Option Document :=
  match Decimal.nearest? unsigned with
  | some _ => some (.number (String.ofList (if negative then '-' :: unsigned else unsigned)))
  | none => if negative then some (.number "-.inf") else none

/-- The number of a word without underscores. Only decimal numbers have a sign. -/
def number? (word : List Char) : Option Document :=
  let (negative, unsigned) := match word with
    | '-' :: rest => (true, rest)
    | '+' :: rest => (false, rest)
    | rest => (false, rest)
  if unsigned = ['i', 'n', 'f'] then some (.number (if negative then "-.inf" else ".inf"))
  else if unsigned = ['n', 'a', 'n'] then some (.number ".nan")
  else
    match word with
    | '0' :: 'x' :: digits => (Plain.inBase? 16 digits).bind (whole? false)
    | '0' :: 'o' :: digits => (Plain.inBase? 8 digits).bind (whole? false)
    | '0' :: 'b' :: digits => (Plain.inBase? 2 digits).bind (whole? false)
    | _ =>
      match Json.readNumber unsigned with
      | some (_, []) =>
        if unsigned.head? = some '-' then none
        else
          match Numeral.leading unsigned with
          | (digits, []) => whole? negative (Numeral.value digits)
          | _ => real? negative unsigned
      | _ => none

/-- The value of a word. -/
def ofWord? (word : List Char) : Option Document :=
  if word = ['t', 'r', 'u', 'e'] then some (.bool true)
  else if word = ['f', 'a', 'l', 's', 'e'] then some (.bool false)
  else
    let digit? := if word.take 2 = ['0', 'x'] then Hexadecimal.digit? else Numeral.digit?
    (joined? (fun c => (digit? c).isSome) false word).bind number?

/-! ## Values -/

mutual

/-- A value of a number of levels at most; `fuel` bounds its length. -/
def value? : Nat → Nat → List Char → Option (Document × List Char)
  | 0, _, _ => none
  | fuel + 1, levels, cs =>
    match levels, cs with
    | levels + 1, '[' :: rest =>
      (items? fuel levels (skipLines false rest)).map fun (items, rest) => (.list items, rest)
    | levels + 1, '\x7b' :: rest =>
      match skipBlank rest with
      | '\x7d' :: rest => some (.record [], rest)
      | rest => (inline? fuel levels [] rest).map fun (entries, rest) => (entries.toDocument, rest)
    | _, cs =>
      match text? cs with
      | some (s, rest) => some (.text s, rest)
      | none =>
        let (word, rest) := cs.span isWordChar
        (ofWord? word).map fun d => (d, rest)

/-- Items up to the closing bracket. -/
def items? : Nat → Nat → List Char → Option (List Document × List Char)
  | 0, _, _ => none
  | fuel + 1, levels, cs =>
    match cs with
    | ']' :: rest => some ([], rest)
    | cs => do
      let (item, rest) ← value? fuel levels cs
      match skipLines false rest with
      | ',' :: rest =>
        let (items, rest) ← items? fuel levels (skipLines false rest)
        return (item :: items, rest)
      | ']' :: rest => return ([item], rest)
      | _ => none

/-- Entries up to the closing brace, added to those already read. -/
def inline? : Nat → Nat → Entries → List Char → Option (Entries × List Char)
  | 0, _, _, _ => none
  | fuel + 1, levels, entries, cs => do
    let (key, rest) ← key? limit cs
    match rest with
    | '=' :: rest =>
      let (d, rest) ← value? fuel levels (skipBlank rest)
      let entries ← entries.enter? key d .ownHeader
      match skipBlank rest with
      | ',' :: rest => inline? fuel levels entries rest
      | '\x7d' :: rest => return (entries, rest)
      | _ => none
    | _ => none

end

end Sidelink.Document.Toml
