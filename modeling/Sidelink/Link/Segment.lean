import Sidelink.Fault
import Sidelink.Packet

/-!
Segments of the radio link. In the unacknowledged and acknowledged modes a service data unit travels in segments,
each behind a header of nine octets with its flags, the sequence number of the unit and the offset of the segment
in it; in transparent mode a unit travels whole and without a header. `parse` accepts exactly what `encode` writes.
-/
namespace Sidelink

/-- What a segment is to its unit. -/
structure SegmentFlags where
  first : Bool
  last : Bool
  /-- Asks for a status report; set on last segments in acknowledged mode. -/
  poll : Bool
  deriving DecidableEq, Inhabited

namespace SegmentFlags

def toOctet (f : SegmentFlags) : UInt8 :=
  (if f.first then 1 else 0) + (if f.last then 2 else 0) + (if f.poll then 4 else 0)

/-- The flags of an octet, if it has no other bits. -/
def ofOctet? (b : UInt8) : Option SegmentFlags :=
  let n := b.toNat
  if n < 8 then some ⟨n % 2 = 1, n / 2 % 2 = 1, n / 4 = 1⟩ else none

end SegmentFlags

structure SegmentHeader where
  flags : SegmentFlags
  sn : UInt32
  offset : UInt32
  deriving DecidableEq, Inhabited

namespace SegmentHeader

/-- The size of a header. -/
def length : Nat := 9

/-- The size of the header in a delivery mode. -/
def overhead : DeliveryMode → Nat
  | .transparent => 0
  | .unacknowledged | .acknowledged => length

/-- Puts a header in front of the data of a segment. -/
def encode (h : SegmentHeader) (data : Bytes) : Bytes :=
  h.flags.toOctet :: Bytes.ofWord32 h.sn ++ Bytes.ofWord32 h.offset ++ data

def readFields (pdu : Bytes) : Except Nat (UInt8 × UInt32 × UInt32 × Bytes) := do
  let (flags, rest) ← Bytes.readOctet pdu
  let (sn, rest) ← Bytes.readWord32 rest
  let (offset, rest) ← Bytes.readWord32 rest
  return (flags, sn, offset, rest)

/-- Splits a data unit into the header and the data of a segment. -/
def parse (pdu : Bytes) : Except MalformedPdu (SegmentHeader × Bytes) := do
  let (octet, sn, offset, data) ← (readFields pdu).mapError (.truncated .segment)
  match SegmentFlags.ofOctet? octet with
  | some flags => return (⟨flags, sn, offset⟩, data)
  | none => throw (.unknownFlags octet)

end SegmentHeader

/-- The configuration of the radio link. -/
structure LinkSettings where
  /-- How many data units a transmit buffer holds. -/
  queueCapacity : Nat
  /-- The largest data unit, header included. -/
  maxPduSize : Nat
  /-- How many sequence numbers a receiver keeps track of. -/
  window : Nat
  deriving DecidableEq, Inhabited

namespace LinkSettings

def default : LinkSettings := ⟨256, 1000, 512⟩

/-- The first fault of a configuration, if it has one. -/
def fault? (s : LinkSettings) : Option Fault :=
  if s.queueCapacity = 0 then some (.configuration "RLC queue capacity must be positive")
  else if s.maxPduSize ≤ SegmentHeader.length then
    some (.configuration
      s!"RLC PDU size {s.maxPduSize} leaves no room for data behind a {SegmentHeader.length} byte header")
  else if s.window = 0 then some (.configuration "RLC receive window must be positive")
  else none

end LinkSettings
end Sidelink
