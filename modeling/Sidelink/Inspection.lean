import Sidelink.Document
import Sidelink.Plane.Events

/-!
A look into the parts of a node: each as a document. Octets are written in hexadecimal, and long strings of them by
their length and a checksum; a floating-point number is written by its bits, and a number that a double could not
tell from its neighbours as a text. Counters that are still zero are left out.
-/
namespace Sidelink.Inspection

/-! ## Values -/

/-- Numbers up to 2^53 as numbers, larger ones as texts. -/
def wide (n : Nat) : Document := if n ≤ 9007199254740992 then .ofNat n else .text (toString n)

/-- The last hexadecimal digits of a number, `width` of them. -/
def hexDigits (width n : Nat) : String :=
  String.ofList ((List.range width).reverse.map fun i => Bytes.hexDigit (n / Nat.pow 16 i % 16))

/-- The 32-bit FNV-1a checksum. -/
def checksum (data : Bytes) : UInt32 := data.foldl (fun h b => (h ^^^ b.toUInt32) * 0x01000193) 0x811c9dc5

def octets (data : Bytes) : Document :=
  if data.length ≤ 64 then .text (String.join (data.map Bytes.hexOctet))
  else .record [("len", .ofNat data.length), ("fnv", .text (hexDigits 8 (checksum data).toNat))]

def bits (x : Float) : Document := .text (hexDigits 16 x.toBits.toNat)

def word8 (w : UInt8) : Document := .ofNat w.toNat
def word16 (w : UInt16) : Document := .ofNat w.toNat
def word32 (w : UInt32) : Document := .ofNat w.toNat

section
variable {α : Type}

def option (inspect : α → Document) : Option α → Document
  | some a => inspect a
  | none => .null

def list (inspect : α → Document) (items : List α) : Document := .list (items.map inspect)

end

def counters (entries : List (String × Nat)) : Document :=
  .record ((entries.filter (·.2 ≠ 0)).map fun (name, n) => (name, .ofNat n))

/-! ## Names of things -/

def node (n : NodeId) : Document := word16 n.value
def nodes (l : List NodeId) : Document := list node l
def lcid (l : Lcid) : Document := word16 l.value
def key (k : EntityKey) : Document := .list [node k.node, lcid k.lcid]
def path (p : Path) : Document := .text p.name
def mode (m : DeliveryMode) : Document := .text m.name
def position (p : Position) : Document := .list [bits p.x, bits p.y, bits p.z]

/-! ## Packets and data units -/

def headers (h : Headers) : Document :=
  .record [("network", word16 h.network), ("proto", .text h.protocol.name), ("transport", word16 h.transport)]

def context (c : CompressionContext) : Document := .list [word16 c.network, word16 c.transport, word16 c.header]

def convergencePdu (p : ConvergencePdu) : Document :=
  .record [("sn", word32 p.sn), ("headers", headers p.headers), ("rohc", option context p.context),
    ("payload", octets p.payload)]

def queuedPdu (p : QueuedPdu) : Document := .list [octets p.bytes, nodes p.recipients]

/-- A frame, with its number among all frames. -/
def frame (index : Nat) (f : Frame) : Document :=
  .record [("i", .ofNat index), ("pdu", octets f.bytes), ("from", node f.envelope.origin),
    ("hop", node f.envelope.nextHop), ("to", nodes f.envelope.recipients), ("lcid", lcid f.envelope.lcid),
    ("mode", mode f.envelope.mode), ("path", path f.envelope.path)]

def deliveredSdu (s : DeliveredSdu) : Document :=
  .record [("origin", node s.origin), ("lcid", lcid s.lcid), ("sn", word32 s.sn), ("path", path s.path),
    ("headers", headers s.headers), ("payload", octets s.payload)]

/-! ## Tables -/

def nodeRecord (r : NodeRecord) : Document :=
  .record [("id", node r.id), ("kind", .text r.kind.name), ("ip", option (fun ip => .text ip.text) r.address),
    ("serving", option node r.serving), ("position", option position r.position)]

def profile (p : Profile) : Document :=
  .record [("application", .text p.application.name), ("traffic_class", .text p.trafficClass.name),
    ("rlc_type", word8 p.modeCode), ("priority", word8 p.priority)]

def descriptor (d : Descriptor) : Document :=
  .record [("lcid", lcid d.lcid), ("application", .text d.application.name), ("class", .text d.trafficClass.name),
    ("rlc_type", word8 d.modeCode), ("priority", word8 d.priority), ("direction", .text d.direction.name),
    ("tx_peer", option node d.txPeer), ("rx_peer", option node d.rxPeer), ("group", option .ofNat d.group),
    ("path", path d.path), ("last_sn", option word32 d.lastSn)]

/-! ## Queues -/

def transmitBuffer (b : TransmitBuffer) : Document :=
  .record [("state", .text (if b.holding then "holding" else "normal")), ("queued", .ofNat b.queue.length),
    ("draining", .bool b.isDraining),
    ("stats", counters [("admitted", b.counters.accepted), ("refused", b.counters.refused),
      ("overflow", b.counters.overflowed), ("pulled", b.counters.pulled), ("discarded", b.counters.discarded)]),
    ("mode", mode b.mode), ("path", path b.path), ("key", key b.key)]

def receiver (r : Receiver) : Document :=
  .record [("rx_next", .ofNat r.state.edge),
    ("stats", counters [("received", r.state.counters.received), ("delivered", r.state.counters.delivered),
      ("dropped", r.state.counters.dropped), ("abandoned", r.state.counters.abandoned)]),
    ("path", path r.path), ("key", key r.key)]

/-! ## Switches -/

def deferredSdu (d : DeferredSdu) : Document :=
  .list [lcid d.lcid, word32 d.sn, mode d.mode, octets d.sdu, nodes d.recipients]

def completion (c : SwitchCompletion) : Document :=
  .record [("peer", node c.peer), ("path", path c.path), ("deferred", list deferredSdu c.deferred)]

def phase : SwitchPhase → Document
  | .active => .text "active"
  | .switched => .text "switched"
  | .switching target check => .list [path target, option wide check]

def switchCounters (c : SwitchCounters) : Document :=
  counters [("started", c.started), ("completed", c.completed), ("deferred", c.deferred),
    ("deferred_overflow", c.overflowed), ("discarded", c.discarded)]

def scheduledCheck (c : ScheduledCheck) : Document :=
  .list [wide c.id, wide c.time, .record [("drain", node c.peer)]]

/-! ## Nodes -/

def route (r : Route) : Document :=
  .record [("hop", node r.nextHop), ("to", nodes r.recipients), ("path", path r.path), ("peer", option node r.peer),
    ("group", option .ofNat r.group)]

def outcome : Outcome → String
  | .queued => "queued"
  | .deferred => "deferred"
  | .dropped reason => s!"dropped: {reason.message}"
  | .unanswered => "unanswered"

def dispatch (d : Dispatch) : Document :=
  .record [("lcid", lcid d.lcid), ("sn", option word32 d.sn), ("outcome", .text (outcome d.outcome))]

/-- A node with those of its queues, connections and peers that are asked for. -/
def plane (p : DataPlane) (tx rx : List EntityKey) (lcids : List Lcid) (peers : List NodeId) : Document :=
  .record [("node", node p.node), ("role", .text p.role.name),
    ("tx", list (fun k => option transmitBuffer (p.buffers.get? k)) tx),
    ("rx", list (fun k => option receiver (p.receivers.get? k)) rx),
    ("lcids", list (fun l => option descriptor (p.flows.descriptor? l)) lcids),
    ("peers", list (fun peer => .list [path (p.switches.currentPath peer), .bool (p.isDraining peer)]) peers)]

end Sidelink.Inspection
