/-!
Reproducible random numbers. A seed is stretched to a key of eight words, the key to a stream of words by the
ChaCha block function with twelve rounds, and each two words of the stream make one number between 0 and 1.
-/
namespace Sidelink.Random

def rotateLeft (w : UInt32) (n : UInt32) : UInt32 := (w <<< n) ||| (w >>> (32 - n))

/-! ## Key -/

/-- One word of the key, from a state of the stretching generator: the state is scrambled, and rotated to the
right by its topmost bits. -/
def keyWord (s : UInt64) : UInt32 :=
  let w := (((s >>> 18) ^^^ s) >>> 27).toUInt32
  let n := (s >>> 59).toUInt32
  (w >>> n) ||| (w <<< ((32 - n) % 32))

/-- The next words of a key. -/
def keyWords : Nat → UInt64 → List UInt32
  | 0, _ => []
  | count + 1, s =>
    let s := s * 6364136223846793005 + 11634580027462260723
    keyWord s :: keyWords count s

/-- The key of a seed. -/
def keyOf (seed : Nat) : List UInt32 := keyWords 8 (UInt64.ofNat seed)

/-! ## Blocks -/

/-- Mixes four words of a block. -/
def quarterRound (s : Array UInt32) (a b c d : Nat) : Array UInt32 :=
  let (wa, wb, wc, wd) := (s.getD a 0, s.getD b 0, s.getD c 0, s.getD d 0)
  let wa := wa + wb
  let wd := rotateLeft (wd ^^^ wa) 16
  let wc := wc + wd
  let wb := rotateLeft (wb ^^^ wc) 12
  let wa := wa + wb
  let wd := rotateLeft (wd ^^^ wa) 8
  let wc := wc + wd
  let wb := rotateLeft (wb ^^^ wc) 7
  (((s.setIfInBounds a wa).setIfInBounds b wb).setIfInBounds c wc).setIfInBounds d wd

/-- A round down the columns of a block, and one along its diagonals. -/
def doubleRound (s : Array UInt32) : Array UInt32 :=
  [(0, 4, 8, 12), (1, 5, 9, 13), (2, 6, 10, 14), (3, 7, 11, 15),
    (0, 5, 10, 15), (1, 6, 11, 12), (2, 7, 8, 13), (3, 4, 9, 14)].foldl
    (fun s (a, b, c, d) => quarterRound s a b c d) s

/-- The block of a key and a number of 64 bits. -/
def block (key : List UInt32) (counter : Nat) : List UInt32 :=
  let start : Array UInt32 :=
    ([0x61707865, 0x3320646e, 0x79622d32, 0x6b206574] ++ key ++
      [UInt32.ofNat counter, UInt32.ofNat (counter / 4294967296), 0, 0]).toArray
  let mixed := doubleRound (doubleRound (doubleRound (doubleRound (doubleRound (doubleRound start)))))
  (start.zipWith (· + ·) mixed).toList

/-! ## Numbers -/

/-- A number from two words, the first of them the less significant: its topmost 53 bits, as a fraction. -/
def fraction (low high : UInt32) : Float :=
  let word := high.toUInt64 <<< 32 ||| low.toUInt64
  (word >>> 11).toFloat / 9007199254740992

/-- The numbers that words make, two by two. -/
def fractions : List UInt32 → List Float
  | low :: high :: rest => fraction low high :: fractions rest
  | _ => []

/-- At least the first `count` numbers of a seed. -/
def numbers (seed : Nat) (count : Nat) : List Float :=
  let key := keyOf seed
  (List.range (count / 8 + 1)).flatMap fun counter => fractions (block key counter)

end Sidelink.Random
