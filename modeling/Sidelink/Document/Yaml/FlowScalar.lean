import Sidelink.Document.Hexadecimal
import Sidelink.Document.Yaml.Letter

/-!
Scalars of YAML text in flow style: in double quotes, in single quotes, and without quotes. A line break inside, with
the blanks around it, stands for one blank, and the breaks behind it for themselves.
-/
namespace Sidelink.Document.Yaml

/-! ## Pieces -/

/-- A piece of a scalar. -/
inductive Piece where
  /-- A character that stands for itself. -/
  | char (c : Char)
  | blank (c : Char)
  | lineBreak (c : Char)
  /-- A line break that stands for nothing. -/
  | joined

def Piece.isGap : Piece → Bool
  | .blank _ | .lineBreak _ => true
  | .char _ | .joined => false

def Piece.isLineBreak : Piece → Bool
  | .lineBreak _ => true
  | .char _ | .blank _ | .joined => false

/-- What the blanks before a line break, and the breaks, stand for; of each, the last comes first. -/
def gap (blanks : List Char) (breaks : List (Option Char)) : List Char :=
  match breaks.reverse with
  | [] => blanks.reverse
  | first :: more =>
    let more := more.filterMap id
    match first with
    | some '\n' => if more.isEmpty then [' '] else more
    | some c => c :: more
    | none => more

/-- The text of pieces, after some blanks and line breaks. -/
def fold : List Char → List (Option Char) → List Piece → List Char
  | blanks, breaks, [] => gap blanks breaks
  | blanks, breaks, .char c :: rest => gap blanks breaks ++ c :: fold [] [] rest
  | blanks, breaks, .blank c :: rest => fold (if breaks.isEmpty then c :: blanks else blanks) breaks rest
  | blanks, breaks, .lineBreak c :: rest => fold blanks (some c :: breaks) rest
  | blanks, breaks, .joined :: rest => gap blanks breaks ++ fold [] [none] rest

/-- The text of pieces. -/
def textOf (pieces : List Piece) : String := String.ofList (fold [] [] pieces)

/-! ## Quotes -/

/-- The character whose code point some digits write. -/
def codePoint? (count : Nat) (ls : List Letter) : Option (Piece × List Letter) :=
  (Hexadecimal.char? count ((ls.take count).map (·.char))).map fun (c, _) => (.char c, ls.drop count)

/-- The character that an escape of one letter stands for. -/
def escaped? (c : Char) : Option Char :=
  match c with
  | '0' => some (Char.ofNat 0)
  | 'a' => some (Char.ofNat 7)
  | 'b' => some (Char.ofNat 8)
  | 't' => some '\t'
  | '\t' => some '\t'
  | 'n' => some '\n'
  | 'v' => some (Char.ofNat 11)
  | 'f' => some (Char.ofNat 12)
  | 'r' => some '\r'
  | 'e' => some (Char.ofNat 27)
  | ' ' => some ' '
  | '"' => some '"'
  | '/' => some '/'
  | '\\' => some '\\'
  | 'N' => some (Char.ofNat 0x85)
  | '_' => some (Char.ofNat 0xA0)
  | 'L' => some (Char.ofNat 0x2028)
  | 'P' => some (Char.ofNat 0x2029)
  | _ => none

/-- The piece that an escape stands for, after its backslash. -/
def escape? : List Letter → Option (Piece × List Letter)
  | [] => none
  | l :: rest =>
    if l.isBreak then some (.joined, rest)
    else
      match l.char with
      | 'x' => codePoint? 2 rest
      | 'u' => codePoint? 4 rest
      | 'U' => codePoint? 8 rest
      | c => (escaped? c).map fun e => (.char e, rest)

/-- The pieces up to the closing quote, and the letters behind it; `fuel` bounds their number. -/
def quotedPieces? (double : Bool) : Nat → List Letter → Option (List Piece × List Letter)
  | 0, _ => none
  | _ + 1, [] => none
  | fuel + 1, l :: rest => do
    if atMark (l :: rest) then none
    if double && l.char = '"' then return ([], rest)
    let (piece, rest) ←
      if double && l.char = '\\' then escape? rest
      else if !double && l.char = '\'' then
        match rest with
        | next :: more => if next.char = '\'' then some (Piece.char '\'', more) else return ([], rest)
        | [] => return ([], [])
      else if l.isBreak then some (.lineBreak l.char, rest)
      else if l.isGap then some (.blank l.char, rest)
      else some (.char l.char, rest)
    let (more, rest) ← quotedPieces? double fuel rest
    return (piece :: more, rest)

/-! ## Without quotes -/

/-- Whether a letter means something of its own where a scalar might begin. -/
def isIndicator (c : Char) : Bool :=
  c = '-' || c = '?' || c = ':' || c = ',' || c = '[' || c = ']' || c = '\x7b' || c = '\x7d' || c = '#' || c = '&' ||
    c = '*' || c = '!' || c = '|' || c = '>' || c = '\'' || c = '"' || c = '%' || c = '@' || c.toNat = 0x60

/-- Whether a letter ends a scalar between brackets. -/
def isFlowMark (c : Char) : Bool := c = ',' || c = '[' || c = ']' || c = '\x7b' || c = '\x7d'

/-- Whether a plain scalar begins here. -/
def startsPlain (flow : Bool) : List Letter → Bool
  | [] => false
  | l :: rest =>
    !(isIndicator l.char || l.isGap || l.isBreak) || (l.char = '-' && !atGap rest) ||
      (!flow && (l.char = '?' || l.char = ':') && !atGap rest)

/-- What comes before a letter of a plain scalar: a character of it, blanks on the same line, or a line break. -/
inductive Behind where
  | char
  | blank
  | lineBreak
  deriving DecidableEq

/-- The pieces of a plain scalar and the gap behind it, and the letters that are left. Outside of brackets its later
lines stand to the right of a margin, and no tab comes before it; between brackets a colon does not touch their
punctuation. -/
def plainPieces? (flow : Bool) (margin : Nat) : Behind → List Letter → Option (List Piece × List Letter)
  | _, [] => some ([], [])
  | behind, l :: rest =>
    if l.isGap then
      if behind = .lineBreak && l.char = '\t' && l.column < margin then none
      else do
        let (more, rest) ← plainPieces? flow margin (if behind = .lineBreak then .lineBreak else .blank) rest
        return (.blank l.char :: more, rest)
    else if l.isBreak then do
      let (more, rest) ← plainPieces? flow margin .lineBreak rest
      return (.lineBreak l.char :: more, rest)
    else if !flow && behind = .lineBreak && l.column < margin then some ([], l :: rest)
    else if behind ≠ .char && (l.char = '#' || atMark (l :: rest)) then some ([], l :: rest)
    else if l.char = ':' && flow && (rest.head?.any fun next => next.char = '?' || isFlowMark next.char) then none
    else if (l.char = ':' && atGap rest) || (flow && isFlowMark l.char) then some ([], l :: rest)
    else do
      let (more, rest) ← plainPieces? flow margin .char rest
      return (.char l.char :: more, rest)

/-- The text of a plain scalar, whether its line ends behind it, and the letters that are left. -/
def plain? (flow : Bool) (margin : Nat) (ls : List Letter) : Option (String × Bool × List Letter) := do
  let (pieces, rest) ← plainPieces? flow margin .char ls
  let (gap, word) := pieces.reverse.span (·.isGap)
  return (textOf word.reverse, gap.any (·.isLineBreak), rest)

end Sidelink.Document.Yaml
