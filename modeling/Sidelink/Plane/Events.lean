import Sidelink.Plane.Submit

/-!
What reaches a node from below and from the timekeeper: frames of other nodes, opportunities to transmit, drain
checks that fire, and peers that are to switch paths.
-/
namespace Sidelink

/-- A packet of another node, handed upwards. -/
structure DeliveredSdu where
  origin : NodeId
  lcid : Lcid
  sn : UInt32
  path : Path
  headers : Headers
  payload : Bytes
  deriving DecidableEq, Inhabited

namespace DataPlane

/-! ## Reception -/

/-- Hands a whole unit upwards as the packet it carries. -/
def handUp (p : DataPlane) (key : EntityKey) (path : Path) (sdu : Bytes) : Except Fault DeliveredSdu × DataPlane :=
  match ConvergencePdu.parse sdu with
  | .error cause =>
    (.error (.malformed cause.detail), p.count fun c => { c with receiveErrors := c.receiveErrors + 1 })
  | .ok pdu =>
    let pdu := pdu.decompress
    let entity := ((p.remote.get? key).getD (.new key.lcid p.settings.compression)).recordDelivery pdu.sn
    let p := { p with remote := p.remote.insert key entity }
    (.ok ⟨key.node, key.lcid, pdu.sn, path, pdu.headers, pdu.payload⟩,
      p.count fun c => { c with delivered := c.delivered + 1 })

/-- Takes in a frame, and hands up the packet that it completes. -/
def deliver (p : DataPlane) (frame : Frame) : Except Fault (Option DeliveredSdu) × DataPlane :=
  let p := p.count fun c => { c with received := c.received + 1 }
  let key : EntityKey := ⟨frame.envelope.origin, frame.envelope.lcid⟩
  let path := frame.envelope.path
  match frame.envelope.mode with
  | .transparent =>
    let (result, p) := p.handUp key path frame.bytes
    (result.map some, p)
  | .unacknowledged | .acknowledged =>
    let receiver := (p.receivers.get? key).getD (.new key path p.settings.link.window)
    match receiver.receive frame.bytes with
    | .error cause =>
      (.error (.malformed cause.detail),
        { p with receivers := p.receivers.insert key receiver }.count fun c =>
          { c with receiveErrors := c.receiveErrors + 1 })
    | .ok (sdu, receiver) =>
      let p := { p with receivers := p.receivers.insert key receiver }
      match sdu with
      | none => (.ok none, p)
      | some sdu =>
        let (result, p) := p.handUp key path sdu
        (result.map some, p)

/-! ## Transmission -/

/-- Serves buffers in turn, one data unit each, as long as the budget lasts. The frames that were sent come with
the budget that is left and the buffers. -/
def serveTurn (node : NodeId) : List EntityKey → Nat → TransmitBuffers → List Frame × Nat × TransmitBuffers
  | [], budget, buffers => ([], budget, buffers)
  | _ :: _, 0, buffers => ([], 0, buffers)
  | key :: rest, budget + 1, buffers =>
    match buffers.get? key with
    | none => serveTurn node rest (budget + 1) buffers
    | some buffer =>
      match buffer.pull 1 with
      | ([], _) => serveTurn node rest (budget + 1) buffers
      | (pdu :: _, emptied) =>
        let (frames, left, buffers) := serveTurn node rest budget (buffers.insert key emptied)
        (⟨pdu.bytes, ⟨node, key.node, pdu.recipients, key.lcid, buffer.mode, buffer.path⟩⟩ :: frames, left, buffers)

/-- Serves buffers turn after turn, until nothing is left to send or the budget is used up. Each turn but the last
uses some of the budget, so `turns` need not be more than the budget. -/
def serve (node : NodeId) (order : List EntityKey) : Nat → Nat → TransmitBuffers → List Frame × TransmitBuffers
  | 0, _, buffers => ([], buffers)
  | turns + 1, budget, buffers =>
    match serveTurn node order budget buffers with
    | ([], _, buffers) => ([], buffers)
    | (frames, left, buffers) =>
      let (more, buffers) := serve node order turns left buffers
      (frames ++ more, buffers)

/-- The order in which the buffers are served: by key, from the one whose turn it is to be first. -/
def serviceOrder (p : DataPlane) : List EntityKey :=
  let keys := p.buffers.keys
  let first := p.rotation % keys.length
  keys.drop first ++ keys.take first

/-- Uses an opportunity to send at most `limit` frames. -/
def transmit (p : DataPlane) (now : SimTime) (limit : Nat) : List Frame × DataPlane :=
  let p := p.advance now
  if p.buffers.isEmpty then ([], p)
  else
    let (frames, buffers) := serve p.node p.serviceOrder limit limit p.buffers
    (frames,
      { p with buffers, rotation := (p.rotation + 1) % 18446744073709551616 }.count fun c =>
        { c with sent := c.sent + frames.length })

/-- Ends the switches of all peers for which nothing drains any more. -/
def settle (p : DataPlane) (directory : Directory) (timers : Timers) : DataPlane × Timers :=
  p.switches.switchingPeers.foldl (fun (p, timers) peer => p.reevaluate directory timers peer) (p, timers)

/-! ## Switches -/

/-- The drain check of a peer fired. -/
def drainCheck (p : DataPlane) (directory : Directory) (timers : Timers) (peer : NodeId) : DataPlane × Timers :=
  let p := p.advance timers.now
  p.applyStep directory (p.switches.checkFired p.links p.buffers timers peer)

/-- Hands units up one after the other; units that carry no packet are dropped. -/
def handUpAll (p : DataPlane) (key : EntityKey) (path : Path) : List Bytes → List DeliveredSdu × DataPlane
  | [] => ([], p)
  | sdu :: rest =>
    let (result, p) := p.handUp key path sdu
    let (packets, p) := p.handUpAll key path rest
    match result with
    | .ok packet => (packet :: packets, p)
    | .error _ => (packets, p)

/-- Replaces receivers by new ones on another path, which take their states over. -/
def replaceReceivers (p : DataPlane) (path : Path) (clear : Bool) : List EntityKey → List DeliveredSdu × DataPlane
  | [] => ([], p)
  | key :: rest =>
    match p.receivers.get? key with
    | none => p.replaceReceivers path clear rest
    | some prior =>
      let (sdus, receiver) := (Receiver.new key path p.settings.link.window).reconcile (prior.handOver clear)
      let (packets, p) := { p with receivers := p.receivers.insert key receiver }.handUpAll key path sdus
      let (more, p) := p.replaceReceivers path clear rest
      (packets ++ more, p)

/-- Switches the traffic with a peer to a path, and hands up the packets that the new receivers complete. -/
def switchPath (p : DataPlane) (directory : Directory) (timers : Timers) (peer : NodeId) (path : Path)
    (clear : Bool) : List DeliveredSdu × DataPlane × Timers :=
  let p := p.advance timers.now
  let (p, timers) := p.applyStep directory (p.switches.start p.links p.buffers timers peer path clear)
  let (packets, p) := p.replaceReceivers path clear (p.receivers.keys.filter (·.node = peer))
  (packets, p, timers)

end DataPlane
end Sidelink
