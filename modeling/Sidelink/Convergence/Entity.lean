import Sidelink.Convergence.Pdu

/-!
The convergence layer of one connection: it numbers packets from 0 upwards without gaps, shrinks their upper
headers on the way out, and counts those it hands upwards.
-/
namespace Sidelink

/-- The configuration of header compression. -/
structure CompressionSettings where
  /-- The size that headers are compressed to; no compression where it is absent. -/
  compressedSize : Option UInt16
  /-- Headers smaller than this are left alone. -/
  threshold : UInt16
  deriving DecidableEq, Inhabited

namespace CompressionSettings

def default : CompressionSettings := ⟨none, 20⟩

/-- The smallest header that the compressor can make. -/
def minimumSize : Nat := 3

/-- The fault of a configuration, if it has one. -/
def fault? (s : CompressionSettings) : Option Fault :=
  match s.compressedSize with
  | some size =>
    if size.toNat < minimumSize then
      some (.configuration s!"Size of compressed header must not be less than {minimumSize} (got {size})")
    else none
  | none => none

end CompressionSettings

/-- The convergence layer of one connection. -/
structure ConvergenceEntity where
  lcid : Lcid
  settings : CompressionSettings
  /-- How many sequence numbers were given. -/
  issued : Nat
  /-- How many packets were handed upwards. -/
  delivered : Nat
  lastRxSn : Option UInt32
  deriving Inhabited

namespace ConvergenceEntity

def new (lcid : Lcid) (settings : CompressionSettings) : ConvergenceEntity := ⟨lcid, settings, 0, 0, none⟩

/-- The next sequence number. The counter has 32 bits, and none is given that would take it over its end. -/
def next? (e : ConvergenceEntity) : Option (UInt32 × ConvergenceEntity) :=
  if e.issued < 4294967295 then some (UInt32.ofNat e.issued, { e with issued := e.issued + 1 }) else none

def compresses (e : ConvergenceEntity) : Bool := e.settings.compressedSize.isSome

/-- Shrinks the headers of a data unit, where that is configured and they are large enough. A transport header of
an unknown protocol stays as it is. -/
def compress (e : ConvergenceEntity) (pdu : ConvergencePdu) : ConvergencePdu :=
  match e.settings.compressedSize, pdu.context with
  | some size, none =>
    if pdu.headers.total < e.settings.threshold.toNat then pdu
    else
      match pdu.headers.protocol with
      | .tcp | .udp =>
        { pdu with
          context := some ⟨pdu.headers.network, pdu.headers.transport, UInt16.ofNat (size.toNat - 2)⟩
          headers := { pdu.headers with network := 1, transport := 1 } }
      | .other =>
        { pdu with
          context := some ⟨pdu.headers.network, 0, UInt16.ofNat (size.toNat - 1)⟩
          headers := { pdu.headers with network := 1 } }
  | _, _ => pdu

/-- Counts a packet that was handed upwards. -/
def recordDelivery (e : ConvergenceEntity) (sn : UInt32) : ConvergenceEntity :=
  { e with delivered := e.delivered + 1, lastRxSn := some sn }

end ConvergenceEntity
end Sidelink
