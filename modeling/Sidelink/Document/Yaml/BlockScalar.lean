import Sidelink.Document.Yaml.Letter

/-!
Scalars of YAML text in block style: lines of their own, indented deeper than what they belong to. They are kept as
they are, or folded: there a line break between two lines that are not indented further stands for one blank.
-/
namespace Sidelink.Document.Yaml

/-- What becomes of the line breaks at the end of a scalar. -/
inductive Chomping where
  | strip
  /-- The first one is kept. -/
  | clip
  | keep

def Chomping.tail (breaks : List Char) : Chomping → List Char
  | .strip => []
  | .clip => breaks.take 1
  | .keep => breaks

/-- A line with the break at its end, and those of the empty lines behind it. -/
structure BlockLine where
  text : List Char
  breaks : List Char

namespace BlockLine

/-- Whether a line is indented further than the scalar. -/
def isDeeper (line : BlockLine) : Bool :=
  match line.text with
  | c :: _ => c = ' ' || c = '\t'
  | [] => false

/-- What the breaks between two lines stand for. -/
def joint (folded : Bool) (before after : BlockLine) : List Char :=
  match before.breaks with
  | '\n' :: more =>
    if folded && !before.isDeeper && !after.isDeeper then if more.isEmpty then [' '] else more else '\n' :: more
  | breaks => breaks

/-- The text of lines. -/
def join (folded : Bool) (chomping : Chomping) : List BlockLine → List Char
  | [] => []
  | [last] => last.text ++ chomping.tail last.breaks
  | line :: next :: rest => line.text ++ joint folded line next ++ join folded chomping (next :: rest)

end BlockLine

/-- The breaks of empty lines, and the letters from the first line on that is not empty. The columns of an
indentation hold no tabs. -/
def emptyLines? (isIndentation : Nat → Bool) : List Letter → Option (List Char × List Letter)
  | [] => some ([], [])
  | l :: rest =>
    if isIndentation l.column && l.char = ' ' then emptyLines? isIndentation rest
    else if isIndentation l.column && l.char = '\t' then none
    else if l.isBreak then (emptyLines? isIndentation rest).map fun (breaks, rest) => (l.char :: breaks, rest)
    else some ([], l :: rest)

/-- The column where the first line begins that is not empty, or the width of an empty line before it that is wider. -/
def indentation : List Letter → Nat
  | [] => 0
  | l :: rest =>
    if l.char = ' ' then indentation rest
    else if l.isBreak then max l.column (indentation rest)
    else l.column

/-- The lines that begin at a column; `fuel` bounds their number. -/
def blockLines? (column : Nat) : Nat → List Letter → Option (List BlockLine × List Letter)
  | 0, _ => none
  | _ + 1, [] => some ([], [])
  | fuel + 1, l :: rest =>
    if l.column = column then
      match (l :: rest).span (fun l => !l.isBreak) with
      | (line, []) => some ([⟨line.map (·.char), []⟩], [])
      | (line, lineBreak :: rest) => do
        let (breaks, rest) ← emptyLines? (· < column) rest
        let (lines, rest) ← blockLines? column fuel rest
        return (⟨line.map (·.char), lineBreak.char :: breaks⟩ :: lines, rest)
    else some ([], l :: rest)

/-- How a scalar ends, as its head may say. -/
def chomping? : List Letter → Option (Chomping × List Letter)
  | l :: rest => if l.char = '+' then some (.keep, rest) else if l.char = '-' then some (.strip, rest) else none
  | [] => none

/-- By how many columns a scalar is indented, as its head may say. -/
def increment? : List Letter → Option (Nat × List Letter)
  | l :: rest => if '1' ≤ l.char ∧ l.char ≤ '9' then some (l.char.toNat - 48, rest) else none
  | [] => none

/-- What the head of a scalar says, in either order. -/
def blockHead (ls : List Letter) : Chomping × Option Nat × List Letter :=
  match chomping? ls, increment? ls with
  | some (chomping, rest), _ =>
    match increment? rest with
    | some (n, rest) => (chomping, some n, rest)
    | none => (chomping, none, rest)
  | none, some (n, rest) =>
    match chomping? rest with
    | some (chomping, rest) => (chomping, some n, rest)
    | none => (.clip, some n, rest)
  | none, none => (.clip, none, ls)

/-- The text of a scalar behind its indicator, and the letters that are left. It belongs to a block at a column, if to
any. -/
def blockScalar? (folded : Bool) (block : Option Nat) (fuel : Nat) (ls : List Letter) :
    Option (String × List Letter) := do
  let (chomping, increment, rest) := blockHead ls
  let rest := rest.dropWhile (·.isGap)
  let rest := if rest.head?.any (·.char = '#') then rest.dropWhile (fun l => !l.isBreak) else rest
  if !rest.head?.all (·.isBreak) then none
  let rest := rest.drop 1
  let column := match increment with
    | some n => block.getD 0 + n
    | none => max (indentation rest) (max 1 (block.elim 0 (· + 1)))
  let (breaks, rest) ← emptyLines? (fun c => increment.isNone || c < column) rest
  let (lines, rest) ← blockLines? column fuel rest
  let content := match lines, chomping with
    | [], .keep => breaks
    | [], _ => []
    | lines, chomping => breaks ++ BlockLine.join folded chomping lines
  return (String.ofList content, rest)

end Sidelink.Document.Yaml
