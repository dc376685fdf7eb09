import Sidelink.Decimal.Nearest
import Sidelink.Document.Hexadecimal

/-!
Plain words, as scalars without quotes are written. Every word is a text; some are null, a truth value, a whole
number or a number as well.
-/
namespace Sidelink.Plain

def isNull (word : String) : Bool :=
  word = "" || word = "~" || word = "null" || word = "Null" || word = "NULL"

def bool? (word : String) : Option Bool :=
  if word = "true" || word = "True" || word = "TRUE" then some true
  else if word = "false" || word = "False" || word = "FALSE" then some false
  else none

/-- The value of the digits of a base, of which there is at least one. -/
def inBase? (base : Nat) (digits : List Char) : Option Nat :=
  if digits.isEmpty then none
  else digits.foldlM (fun n c => ((Hexadecimal.digit? c).filter (· < base)).map (n * base + ·)) 0

/-- A whole number behind a plus sign or none, in base ten if no other base is told. A decimal numeral has no leading
zeros. -/
def whole? (word : String) : Option Nat :=
  let unsigned := match word.toList with
    | '+' :: rest => rest
    | cs => cs
  match unsigned with
  | '0' :: 'x' :: digits => inBase? 16 digits
  | '0' :: 'o' :: digits => inBase? 8 digits
  | '0' :: 'b' :: digits => inBase? 2 digits
  | '0' :: _ :: _ => none
  | digits => inBase? 10 digits

/-- A finite number in decimal, an infinity or no number at all. -/
def real? (word : String) : Option Float :=
  if word ∈ [".inf", ".Inf", ".INF", "+.inf", "+.Inf", "+.INF"] then some (1 / 0)
  else if word ∈ ["-.inf", "-.Inf", "-.INF"] then some (-1 / 0)
  else if word ∈ [".nan", ".NaN", ".NAN"] then some (0 / 0)
  else Decimal.nearest? word.toList

end Sidelink.Plain
