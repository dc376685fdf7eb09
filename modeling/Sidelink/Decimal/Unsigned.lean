/-!
Unsigned decimal numerals with an upper bound. A numeral is read from the left, and the first character that is
no digit, or that takes the value over the bound, decides the error (`Numeral.scan`). One leading plus sign is
allowed.
-/
namespace Sidelink

/-- Why a text is no numeral within its bound. -/
inductive NumeralError where
  | empty
  | invalidDigit
  | tooLarge
  deriving DecidableEq

def NumeralError.message : NumeralError → String
  | .empty => "cannot parse integer from empty string"
  | .invalidDigit => "invalid digit found in string"
  | .tooLarge => "number too large to fit in target type"

namespace Numeral

/-- The value of an ASCII digit. -/
def digit? (c : Char) : Option Nat := if '0' ≤ c ∧ c ≤ '9' then some (c.toNat - 48) else none

/-- Splits a text behind its leading digits. -/
def leading (cs : List Char) : List Char × List Char := cs.span fun c => (digit? c).isSome

/-- The value of digits, without a bound. -/
def value (digits : List Char) : Nat := digits.foldl (fun n c => n * 10 + (digit? c).getD 0) 0

/-- Reads digits after a value, never above the bound. -/
def scan (bound : Nat) : Nat → List Char → Except NumeralError Nat
  | value, [] => .ok value
  | value, c :: rest =>
    match digit? c with
    | none => .error .invalidDigit
    | some d => if bound < value * 10 + d then .error .tooLarge else scan bound (value * 10 + d) rest

/-- Reads a whole numeral. -/
def read (bound : Nat) : List Char → Except NumeralError Nat
  | [] => .error .empty
  | ['+'] => .error .invalidDigit
  | '+' :: rest => scan bound 0 rest
  | cs => scan bound 0 cs

end Numeral
end Sidelink
