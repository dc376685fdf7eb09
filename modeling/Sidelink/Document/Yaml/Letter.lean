/-!
Letters of YAML text: its characters at their places. Where a line begins, and how far to the right a letter stands,
decides what it belongs to.
-/
namespace Sidelink.Document.Yaml

/-- A character at its place. -/
structure Letter where
  char : Char
  line : Nat
  column : Nat
  /-- The octets before it. -/
  offset : Nat

/-- Whether a character may occur in a text at all. -/
def isPermitted (c : Char) : Bool :=
  let n := c.toNat
  n = 0x09 || n = 0x0A || n = 0x0D || (0x20 ≤ n && n ≤ 0x7E) || n = 0x85 || (0xA0 ≤ n && n ≤ 0xD7FF) ||
    (0xE000 ≤ n && n ≤ 0xFFFD) || 0x10000 ≤ n

namespace Letter

/-- Whether this ends a line. -/
def isBreak (l : Letter) : Bool := l.char = '\n' || l.char.toNat = 0x2028 || l.char.toNat = 0x2029

def isGap (l : Letter) : Bool := l.char = ' ' || l.char = '\t'

/-- The letters of a text from a place on. A carriage return, with a line feed behind it or without, and the control
character for the next line are each read as a line feed. -/
def ofChars (line column offset : Nat) : List Char → List Letter
  | [] => []
  | '\r' :: '\n' :: rest => ⟨'\n', line, column, offset⟩ :: ofChars (line + 1) 0 (offset + 2) rest
  | c :: rest =>
    let l : Letter := ⟨if c = '\r' || c.toNat = 0x85 then '\n' else c, line, column, offset⟩
    if l.isBreak then l :: ofChars (line + 1) 0 (offset + c.utf8Size) rest
    else l :: ofChars line (column + 1) (offset + c.utf8Size) rest

/-- The letters of a whole text. -/
def ofText? (s : String) : Option (List Letter) :=
  let cs := s.toList
  if cs.all isPermitted then some (ofChars 0 0 0 cs) else none

end Letter

/-- Whether letters begin with a blank or a line break, or are at their end. -/
def atGap : List Letter → Bool
  | [] => true
  | l :: _ => l.isGap || l.isBreak

/-- Whether a line begins here with the mark that a document begins or ends. -/
def atMark : List Letter → Bool
  | [] => false
  | l :: rest =>
    l.column = 0 && (l.char = '-' || l.char = '.') &&
      match rest with
      | second :: third :: rest => second.char = l.char && third.char = l.char && atGap rest
      | _ => false

end Sidelink.Document.Yaml
