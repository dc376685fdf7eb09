import Sidelink.Address
import Sidelink.Bytes
import Sidelink.Identity
import Sidelink.Traffic

/-!
What passes between an application, a node and its neighbours: the packet that an application hands down, with
the sizes of the headers it carries, and the frame that a node puts on the air, with the envelope that says where
it goes.
-/
namespace Sidelink

/-- The transport protocol above the network header. -/
inductive Transport where
  | tcp
  | udp
  /-- Any protocol whose header cannot be compressed. -/
  | other
  deriving DecidableEq, Inhabited

namespace Transport

/-- The code of a protocol inside a data unit. -/
def code : Transport → UInt8
  | .tcp => 6
  | .udp => 17
  | .other => 0

/-- The protocol of a code; codes without one stand for `other`. -/
def ofCode (c : UInt8) : Transport := if c = 6 then .tcp else if c = 17 then .udp else .other

def name : Transport → String
  | .tcp => "tcp"
  | .udp => "udp"
  | .other => "other"

def all : List Transport := [.tcp, .udp, .other]

end Transport

/-- Sizes, in octets, of the headers that a packet carries. -/
structure Headers where
  network : UInt16
  protocol : Transport
  transport : UInt16
  deriving DecidableEq, Inhabited

namespace Headers

/-- IPv4 and UDP. -/
def udp : Headers := ⟨20, .udp, 8⟩

/-- IPv4 and TCP, without options. -/
def tcp : Headers := ⟨20, .tcp, 20⟩

/-- No headers at all. -/
def bare : Headers := ⟨0, .other, 0⟩

def total (h : Headers) : Nat := h.network.toNat + h.transport.toNat

end Headers

/-- A packet of an application. -/
structure Packet where
  endpoints : Endpoints
  headers : Headers
  payload : Bytes
  deriving DecidableEq, Inhabited

/-- Where a frame comes from and where it goes. -/
structure Envelope where
  /-- The node whose flow the frame belongs to. -/
  origin : NodeId
  /-- The node that the frame is sent to; the origin itself for a group. -/
  nextHop : NodeId
  /-- The nodes that the frame is for. -/
  recipients : List NodeId
  /-- The connection at the origin. -/
  lcid : Lcid
  mode : DeliveryMode
  path : Path
  deriving DecidableEq, Inhabited

/-- A data unit on the air. -/
structure Frame where
  bytes : Bytes
  envelope : Envelope
  deriving DecidableEq, Inhabited

end Sidelink
