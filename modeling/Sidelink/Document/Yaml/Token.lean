import Sidelink.Document
import Sidelink.Document.Yaml.BlockScalar
import Sidelink.Document.Yaml.FlowScalar

/-!
Tokens of YAML text: scalars and punctuation, with the beginnings and the ends of the blocks that indentation makes.
A key is known by the colon behind it, on the same line and at most 1024 octets after it begins; so the token that
tells of a key is put before tokens that are already there.
-/
namespace Sidelink.Document.Yaml

inductive Token where
  /-- The marks that a document begins and ends. -/
  | documentStart
  | documentEnd
  /-- Brackets and braces. -/
  | openList
  | closeList
  | openRecord
  | closeRecord
  /-- What indentation makes. -/
  | listBlock
  | recordBlock
  | endBlock
  | dash
  | key
  | value
  | comma
  | scalar (value : Document)

/-- A place where a key may have begun: how many tokens come before it, and whether nothing else can stand there. -/
structure Candidate where
  index : Nat
  place : Letter
  required : Bool

/-- A text that is read up to a letter. -/
structure Layout where
  /-- The tokens so far, the last first, and their number. -/
  tokens : List Token
  count : Nat
  /-- The columns of the blocks that are open, the innermost first. -/
  blocks : List Nat
  /-- The key that a colon would end, and those outside of the brackets and braces that are open. -/
  candidate : Option Candidate
  outside : List (Option Candidate)
  /-- Whether a key may begin here. -/
  keyAllowed : Bool

namespace Layout

def start : Layout := ⟨[], 0, [], none, [], true⟩

/-- Whether a bracket or a brace is open. -/
def inFlow (s : Layout) : Bool := !s.outside.isEmpty

/-- The column right of the innermost block. -/
def margin (s : Layout) : Nat := s.blocks.head?.elim 0 (· + 1)

def emit (t : Token) (s : Layout) : Layout := { s with tokens := t :: s.tokens, count := s.count + 1 }

/-! ## Keys -/

/-- Gives up the key that may have begun, unless it is required. -/
def giveUpKey? (s : Layout) : Option Layout :=
  if s.candidate.any (·.required) then none else some { s with candidate := none }

/-- Gives up a key that is not on the line of a letter, or too far before it. -/
def outrunKey? (l : Letter) (s : Layout) : Option Layout :=
  if s.candidate.any (fun c => c.place.line < l.line || c.place.offset + 1024 < l.offset) then s.giveUpKey? else some s

/-- A key may begin at a letter; it is required where a block has its keys. -/
def mayBeKey? (l : Letter) (s : Layout) : Option Layout :=
  if s.keyAllowed then do
    let s ← s.giveUpKey?
    return { s with candidate := some ⟨s.count, l, !s.inFlow && s.blocks.head? = some l.column⟩ }
  else some s

/-! ## Blocks -/

/-- Ends the blocks at a column or to the right of it. -/
def closeBlocks (column : Nat) (s : Layout) : Layout :=
  if s.inFlow then s
  else
    let closed := s.blocks.takeWhile (column ≤ ·)
    { s with
      tokens := closed.map (fun _ => Token.endBlock) ++ s.tokens
      count := s.count + closed.length
      blocks := s.blocks.drop closed.length }

/-- Whether something at a column begins a block. -/
def beginsBlock (column : Nat) (s : Layout) : Bool := !s.inFlow && s.margin ≤ column

/-- Begins a block at the column of an entry, if that is to the right of the innermost one. -/
def openBlock? (t : Token) (column : Nat) (s : Layout) : Option Layout :=
  if s.inFlow then some s
  else if !s.keyAllowed then none
  else if s.beginsBlock column then some { s.emit t with blocks := column :: s.blocks }
  else some s

/-- Puts the token of a key, and that of its block if it begins one, where the key began. -/
def insertKey (c : Candidate) (s : Layout) : Layout :=
  let (after, before) := s.tokens.splitAt (s.count - c.index)
  if s.beginsBlock c.place.column then
    { s with
      tokens := after ++ .key :: .recordBlock :: before
      count := s.count + 2
      blocks := c.place.column :: s.blocks }
  else { s with tokens := after ++ .key :: before, count := s.count + 1 }

/-! ## Tokens -/

/-- The dash of an item. -/
def dash? (l : Letter) (s : Layout) : Option Layout := do
  let s ← (← s.openBlock? .listBlock l.column).giveUpKey?
  return { s.emit .dash with keyAllowed := true }

/-- The question mark before a key. -/
def key? (l : Letter) (s : Layout) : Option Layout := do
  let s ← (← s.openBlock? .recordBlock l.column).giveUpKey?
  return { s.emit .key with keyAllowed := !s.inFlow }

/-- The colon before a value. -/
def value? (l : Letter) (s : Layout) : Option Layout :=
  match s.candidate with
  | some c => some { (s.insertKey c).emit .value with candidate := none, keyAllowed := false }
  | none => do
    let s ← s.openBlock? .recordBlock l.column
    return { s.emit .value with keyAllowed := !s.inFlow }

def openFlow? (t : Token) (l : Letter) (s : Layout) : Option Layout := do
  let s ← s.mayBeKey? l
  return { s.emit t with candidate := none, outside := s.candidate :: s.outside, keyAllowed := true }

def closeFlow? (t : Token) (s : Layout) : Option Layout := do
  let s ← s.giveUpKey?
  return { s.emit t with candidate := s.outside.head?.join, outside := s.outside.tail, keyAllowed := false }

def comma? (s : Layout) : Option Layout := do
  return { (← s.giveUpKey?).emit .comma with keyAllowed := true }

/-- The mark that a document begins or ends. -/
def mark? (t : Token) (s : Layout) : Option Layout := do
  return { (← (s.closeBlocks 0).giveUpKey?).emit t with keyAllowed := false }

def quoted? (fuel : Nat) (l : Letter) (rest : List Letter) (s : Layout) : Option (Layout × List Letter) := do
  let s ← s.mayBeKey? l
  let (pieces, rest) ← quotedPieces? (l.char = '"') fuel rest
  return ({ s.emit (.scalar (.text (textOf pieces))) with keyAllowed := false }, rest)

/-- A plain scalar. A key may begin on the line behind it. -/
def plain? (l : Letter) (rest : List Letter) (s : Layout) : Option (Layout × List Letter) := do
  let s ← s.mayBeKey? l
  let (word, endsLine, rest) ← Yaml.plain? s.inFlow s.margin (l :: rest)
  return ({ s.emit (.scalar (.plain word)) with keyAllowed := endsLine }, rest)

def blockScalar? (fuel : Nat) (l : Letter) (rest : List Letter) (s : Layout) : Option (Layout × List Letter) := do
  let s ← s.giveUpKey?
  let (content, rest) ← Yaml.blockScalar? (l.char = '>') s.blocks.head? fuel rest
  return ({ s.emit (.scalar (.text content)) with keyAllowed := true }, rest)

/-- The token that begins with a letter, and the letters behind it; `fuel` bounds its length. Directives, anchors,
aliases and tags are not read. -/
def token? (fuel : Nat) (l : Letter) (rest : List Letter) (s : Layout) : Option (Layout × List Letter) :=
  let alone (s : Option Layout) := s.map fun s => (s, rest)
  if l.column = 0 && l.char = '%' then none
  else if atMark (l :: rest) then
    (s.mark? (if l.char = '-' then .documentStart else .documentEnd)).map fun s => (s, rest.drop 2)
  else if l.char = '[' then alone (s.openFlow? .openList l)
  else if l.char = '\x7b' then alone (s.openFlow? .openRecord l)
  else if l.char = ']' then alone (s.closeFlow? .closeList)
  else if l.char = '\x7d' then alone (s.closeFlow? .closeRecord)
  else if l.char = ',' then alone s.comma?
  else if l.char = '-' && atGap rest then alone (s.dash? l)
  else if l.char = '?' && (s.inFlow || atGap rest) then alone (s.key? l)
  else if l.char = ':' && (s.inFlow || atGap rest) then alone (s.value? l)
  else if (l.char = '|' || l.char = '>') && !s.inFlow then s.blockScalar? fuel l rest
  else if l.char = '"' || l.char = '\'' then s.quoted? fuel l rest
  else if startsPlain s.inFlow (l :: rest) then s.plain? l rest
  else none

/-- The letters from the next token on, and whether a key may begin there: outside of brackets it may on a new line.
There a tab is no blank where a key may begin. A byte order mark may begin any line; it takes up a column. -/
def skip (flow comment keyAllowed : Bool) : List Letter → Bool × List Letter
  | [] => (keyAllowed, [])
  | l :: rest =>
    if l.isBreak then skip flow false (keyAllowed || !flow) rest
    else if l.column = 0 && l.char = '\uFEFF' then skip flow false keyAllowed rest
    else if comment || l.char = '#' then skip flow true keyAllowed rest
    else if l.char = ' ' || (l.char = '\t' && (flow || !keyAllowed)) then skip flow false keyAllowed rest
    else (keyAllowed, l :: rest)

/-- The tokens of letters; `fuel` bounds their number. -/
def scan? : Nat → Layout → List Letter → Option (List Token)
  | 0, _, _ => none
  | fuel + 1, s, ls =>
    match skip s.inFlow false s.keyAllowed ls with
    | (_, []) => do return (← (s.closeBlocks 0).giveUpKey?).tokens.reverse
    | (keyAllowed, l :: rest) => do
      let s ← { s with keyAllowed := keyAllowed }.outrunKey? l
      let (s, rest) ← (s.closeBlocks (l.column + 1)).token? fuel l rest
      scan? fuel s rest

end Layout

/-- The tokens of a whole text. -/
def Token.ofLetters? (ls : List Letter) : Option (List Token) := Layout.start.scan? (ls.length + 2) ls

end Sidelink.Document.Yaml
