/-!
Hexadecimal numerals of a fixed length, as escapes in texts use them.
-/
namespace Sidelink.Hexadecimal

/-- The value of a digit. -/
def digit? (c : Char) : Option Nat :=
  if '0' ≤ c ∧ c ≤ '9' then some (c.toNat - 48)
  else if 'a' ≤ c ∧ c ≤ 'f' then some (c.toNat - 87)
  else if 'A' ≤ c ∧ c ≤ 'F' then some (c.toNat - 55)
  else none

/-- The number that the first `count` characters write, and the text behind them. -/
def number? (count : Nat) (cs : List Char) : Option (Nat × List Char) :=
  let digits := cs.take count
  if digits.length = count then
    (digits.foldlM (fun n c => (digit? c).map (n * 16 + ·)) 0).map fun n => (n, cs.drop count)
  else none

/-- The character whose code point the first `count` characters write. -/
def char? (count : Nat) (cs : List Char) : Option (Char × List Char) := do
  let (n, rest) ← number? count cs
  if n < 0xD800 || (0xE000 ≤ n && n ≤ 0x10FFFF) then some (Char.ofNat n, rest) else none

end Sidelink.Hexadecimal
