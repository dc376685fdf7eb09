import Sidelink.Fault
import Sidelink.Packet

/-!
Data units of the convergence layer: a packet's payload behind a header with its sequence number and the sizes of
its upper headers. Where the upper headers are compressed, a context with their former sizes follows the header.
`parse` reads what `encode` writes, field by field; of the flags only the lowest bit counts. The context is all
that a receiver needs to undo the compression (`decompress`).
-/
namespace Sidelink

/-- The sizes that a compression replaced. -/
structure CompressionContext where
  network : UInt16
  /-- Zero where the transport header was left alone. -/
  transport : UInt16
  /-- The size of the header that the compressor puts in front. -/
  header : UInt16
  deriving DecidableEq, Inhabited

/-- A data unit of the convergence layer. -/
structure ConvergencePdu where
  sn : UInt32
  headers : Headers
  context : Option CompressionContext
  payload : Bytes
  deriving DecidableEq, Inhabited

namespace ConvergencePdu

/-- The length of the layer's own header in a delivery mode. -/
def headerLength : DeliveryMode → Nat
  | .transparent => 1
  | .unacknowledged => 1
  | .acknowledged => 2

/-- The room that a data unit takes on the air. -/
def modeledLength (pdu : ConvergencePdu) (mode : DeliveryMode) : Nat :=
  let context := match pdu.context with
    | some c => c.header.toNat
    | none => 0
  headerLength mode + context + pdu.headers.total + pdu.payload.length

/-- Restores the header sizes that a compression replaced. The transport header of an unknown protocol was never
compressed. -/
def decompress (pdu : ConvergencePdu) : ConvergencePdu :=
  match pdu.context with
  | none => pdu
  | some context =>
    let transport := match pdu.headers.protocol with
      | .tcp | .udp => context.transport
      | .other => pdu.headers.transport
    { pdu with context := none, headers := { pdu.headers with network := context.network, transport } }

/-! ## Octets -/

def encodeContext : Option CompressionContext → Bytes
  | some c => Bytes.ofWord16 c.network ++ Bytes.ofWord16 c.transport ++ Bytes.ofWord16 c.header
  | none => []

def encode (pdu : ConvergencePdu) : Bytes :=
  Bytes.ofWord32 pdu.sn ++ (if pdu.context.isSome then 1 else 0) :: Bytes.ofWord16 pdu.headers.network ++
    pdu.headers.protocol.code :: Bytes.ofWord16 pdu.headers.transport ++ encodeContext pdu.context ++ pdu.payload

/-- The fields that every data unit begins with. -/
def readHeader (data : Bytes) : Except Nat (UInt32 × UInt8 × Headers × Bytes) := do
  let (sn, data) ← Bytes.readWord32 data
  let (flags, data) ← Bytes.readOctet data
  let (network, data) ← Bytes.readWord16 data
  let (protocol, data) ← Bytes.readOctet data
  let (transport, data) ← Bytes.readWord16 data
  return (sn, flags, ⟨network, Transport.ofCode protocol, transport⟩, data)

def readContext (data : Bytes) : Except Nat (CompressionContext × Bytes) := do
  let (network, data) ← Bytes.readWord16 data
  let (transport, data) ← Bytes.readWord16 data
  let (header, data) ← Bytes.readWord16 data
  return (⟨network, transport, header⟩, data)

def parse (data : Bytes) : Except MalformedPdu ConvergencePdu := do
  let (sn, flags, headers, rest) ← (readHeader data).mapError (.truncated .convergence)
  if flags.toNat % 2 = 1 then
    let (context, payload) ← (readContext rest).mapError (.truncated .compression)
    return ⟨sn, headers, some context, payload⟩
  else
    return ⟨sn, headers, none, rest⟩

end ConvergencePdu
end Sidelink
