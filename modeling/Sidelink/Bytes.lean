/-!
Octet strings: the big-endian words that protocol headers are made of, and the hexadecimal dumps that describe
a data unit to a reader. A reader of a word consumes exactly the octets that its writer produces; where too few
are left it reports how many there were. Lengths and places are computed in words of 64 bits.
-/
namespace Sidelink

abbrev Bytes := List UInt8

namespace Bytes

/-! ## Words -/

def ofWord16 (w : UInt16) : Bytes := [UInt8.ofNat (w.toNat / 256), UInt8.ofNat w.toNat]

def ofWord32 (w : UInt32) : Bytes :=
  [UInt8.ofNat (w.toNat / 16777216), UInt8.ofNat (w.toNat / 65536), UInt8.ofNat (w.toNat / 256),
    UInt8.ofNat w.toNat]

/-- Reads one octet, or reports the number of octets left. -/
def readOctet : Bytes → Except Nat (UInt8 × Bytes)
  | a :: rest => .ok (a, rest)
  | [] => .error 0

/-- Reads a word of two octets, most significant first, or reports the number of octets left. -/
def readWord16 : Bytes → Except Nat (UInt16 × Bytes)
  | a :: b :: rest => .ok (UInt16.ofNat (a.toNat * 256 + b.toNat), rest)
  | short => .error short.length

/-- Reads a word of four octets, most significant first, or reports the number of octets left. -/
def readWord32 : Bytes → Except Nat (UInt32 × Bytes)
  | a :: b :: c :: d :: rest =>
    .ok (UInt32.ofNat (((a.toNat * 256 + b.toNat) * 256 + c.toNat) * 256 + d.toNat), rest)
  | short => .error short.length

/-! ## Hexadecimal dumps -/

def hexDigit (n : Nat) : Char := if n < 10 then Char.ofNat (48 + n) else Char.ofNat (87 + n)

/-- An octet as two lower-case hexadecimal digits. -/
def hexOctet (b : UInt8) : String := String.ofList [hexDigit (b.toNat / 16), hexDigit (b.toNat % 16)]

/-- All octets, with a blank between neighbours. -/
def hexDump (data : Bytes) : String := " ".intercalate (data.map hexOctet)

/-- At most the first `limit` octets; where octets are left out, their number follows. -/
def hexDumpHead (data : Bytes) (limit : Nat) : String :=
  if data.length ≤ limit then hexDump data
  else s!"{hexDump (data.take limit)} .. (+{data.length - limit} bytes)"

end Bytes

/-! ## Lengths -/

namespace LongWord

/-- The largest word of 64 bits. -/
def last : Nat := 18446744073709551615

/-- The sum of two words, if it is one. -/
def sum? (a b : Nat) : Option Nat := if a + b ≤ last then some (a + b) else none

end LongWord
end Sidelink
