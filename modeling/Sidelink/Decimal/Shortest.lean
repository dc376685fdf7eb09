/-!
Floating-point numbers in decimal, with the fewest digits that read back as the number. A finite double is
m · 2^q for whole numbers m and q; the reals that round to it lie between the middles to its neighbours, both
middles included if m is even. For one digit, two digits and so on, the two neighbours of the number on the decimal
grid are tried: the first grid that has one of them between the middles decides, and of two the nearer is taken. A
number half-way between the two goes the way of the style it is written in.
-/
namespace Sidelink.Decimal

/-- A positive number in decimal: 0.d₁d₂… times ten to the `exponent`, for the digits d₁d₂… of `digits`. -/
structure Digits where
  digits : List Char
  exponent : Int

/-- Which of the two points next to a number is taken when it is half-way between them. -/
inductive Tie where
  | up
  | toEven
  deriving DecidableEq

/-- The point of a grid for a fraction `num / den` between two points that both may stand for it. -/
def Tie.nearer (tie : Tie) (num den : Nat) : Nat :=
  let down := num / den
  let twice := 2 * (num % den)
  if twice < den || (twice = den && tie = .toEven && down % 2 = 0) then down else down + 1

/-- How many decimal digits a number has; none for zero. -/
def width (n : Nat) : Nat := if n = 0 then 0 else (Nat.toDigits 10 n).length

/-- The fraction `num / den` and its upper and lower middle, all over one denominator. -/
structure Interval where
  num : Nat
  low : Nat
  high : Nat
  den : Nat
  /-- Whether the middles themselves belong to the interval. -/
  closed : Bool

/-- The reals that round to m · 2^q. Below a power of two the next number is only half as far away, unless it is
subnormal. -/
def Interval.ofDouble (m : Nat) (q : Int) : Interval :=
  let below := if m = 4503599627370496 && -1074 < q then 1 else 2
  let up := Nat.pow 2 (q - 2).toNat
  { num := 4 * m * up
    low := (4 * m - below) * up
    high := (4 * m + 2) * up
    den := Nat.pow 2 (2 - q).toNat
    closed := m % 2 = 0 }

/-- Whether `n · 10^k` lies in an interval. -/
def Interval.contains (i : Interval) (n : Nat) (k : Int) : Bool :=
  let value := n * Nat.pow 10 k.toNat * i.den
  let scale := Nat.pow 10 (-k).toNat
  if i.closed then i.low * scale ≤ value && value ≤ i.high * scale
  else i.low * scale < value && value < i.high * scale

/-- The power of ten above a fraction: the least `e` with `num / den < 10^e`. -/
def magnitude (num den : Nat) : Int :=
  if den ≤ num then width (num / den) else 1 - (width ((den - 1) / num) : Int)

/-- The digits of the number of an interval on the grid of `n · 10^k`, if a point next to it is in the interval. -/
def Interval.onGrid? (i : Interval) (tie : Tie) (k : Int) : Option Nat :=
  let num := i.num * Nat.pow 10 (-k).toNat
  let den := i.den * Nat.pow 10 k.toNat
  let down := num / den
  let downFits := i.contains down k
  let upFits := i.contains (down + 1) k
  if downFits && upFits then some (tie.nearer num den)
  else if downFits then some down
  else if upFits then some (down + 1)
  else none

/-- Tries grids from the coarsest on; `count` grids are left. -/
def Interval.search (i : Interval) (tie : Tie) : Nat → Int → Nat × Int
  | 0, k => (i.num * Nat.pow 10 (-k).toNat / (i.den * Nat.pow 10 k.toNat), k)
  | count + 1, k =>
    match i.onGrid? tie k with
    | some n => (n, k)
    | none => search i tie count (k - 1)

/-- The fewest digits that read back as m · 2^q, for a positive m. -/
def shortest (tie : Tie) (m : Nat) (q : Int) : Digits :=
  let i := Interval.ofDouble m q
  let (n, k) := i.search tie 17 (magnitude i.num i.den - 1)
  let digits := Nat.toDigits 10 n
  let trimmed := (digits.reverse.dropWhile (· == '0')).reverse
  ⟨trimmed, k + digits.length⟩

/-- Digits in positional notation, without an exponent and without a point where none is needed. -/
def Digits.positional (d : Digits) : List Char :=
  if d.exponent ≤ 0 then '0' :: '.' :: List.replicate (-d.exponent).toNat '0' ++ d.digits
  else
    let whole := d.exponent.toNat
    if d.digits.length ≤ whole then d.digits ++ List.replicate (whole - d.digits.length) '0'
    else d.digits.take whole ++ '.' :: d.digits.drop whole

/-- Digits with a point among them, or with an exponent and its sign if the number is below 10^-5 or not below
10^16. -/
def Digits.scientific (d : Digits) : List Char :=
  if -5 < d.exponent && d.exponent ≤ 16 then
    d.positional ++ (if d.digits.length ≤ d.exponent then ['.', '0'] else [])
  else
    let power := d.exponent - 1
    let exponent := 'e' :: (if 0 ≤ power then ['+'] else []) ++ (toString power).toList
    match d.digits with
    | first :: more@(_ :: _) => first :: '.' :: more ++ exponent
    | digits => digits ++ exponent

/-- How doubles are written. -/
structure Style where
  tie : Tie
  notate : Digits → List Char
  zero : String

/-- Positional notation. -/
def Style.positional : Style := ⟨.up, Digits.positional, "0"⟩

/-- The notation of a number that cannot be taken for a whole one. -/
def Style.scientific : Style := ⟨.toEven, Digits.scientific, "0.0"⟩

/-- The text of a double: its sign, then the fewest digits that read back. -/
def text (style : Style) (x : Float) : String :=
  let bits := x.toBits.toNat
  let sign := if bits / 9223372036854775808 = 1 then "-" else ""
  let exponent := bits / 4503599627370496 % 2048
  let fraction := bits % 4503599627370496
  if exponent = 2047 then if fraction = 0 then sign ++ "inf" else "NaN"
  else if exponent = 0 && fraction = 0 then sign ++ style.zero
  else
    let d := if exponent = 0 then shortest style.tie fraction (-1074)
      else shortest style.tie (fraction + 4503599627370496) (exponent - 1075)
    sign ++ String.ofList (style.notate d)

end Sidelink.Decimal
