import Sidelink.Decimal.Unsigned

/-!
The double nearest to a decimal numeral. A numeral has a sign or none, at least one digit, a point before, among or
behind the digits or none, and an exponent or none.
-/
namespace Sidelink.Decimal

/-- The exponent at the end of a numeral. Beyond a hundred thousand it makes no difference. -/
def exponent? : List Char → Option Int
  | [] => some 0
  | c :: rest =>
    if c = 'e' || c = 'E' then
      let (negative, rest) := match rest with
        | '-' :: rest => (true, rest)
        | '+' :: rest => (false, rest)
        | rest => (false, rest)
      match Numeral.leading rest with
      | (digits@(_ :: _), []) =>
        let n : Int := min (Numeral.value digits) 100000
        some (if negative then -n else n)
      | _ => none
    else none

/-- The double nearest to a numeral, if it is finite. -/
def nearest? (cs : List Char) : Option Float := do
  let (negative, cs) := match cs with
    | '-' :: rest => (true, rest)
    | '+' :: rest => (false, rest)
    | cs => (false, cs)
  let (whole, cs) := Numeral.leading cs
  let (fraction, cs) := match cs with
    | '.' :: rest => Numeral.leading rest
    | cs => ([], cs)
  let digits := whole ++ fraction
  if digits.isEmpty then none
  else
    let e := (← exponent? cs) - fraction.length
    let x := Float.ofScientific (Numeral.value digits) (e < 0) e.natAbs
    if x.isFinite then some (if negative then -x else x) else none

end Sidelink.Decimal
