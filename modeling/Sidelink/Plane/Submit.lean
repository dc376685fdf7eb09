import Sidelink.Plane.State

/-!
The way of a packet down to a transmit buffer. The hint of the application gives it a delivery mode, the flow it
belongs to a connection, the connection a sequence number; then it is queued for the next hop of its route, or it
waits where its destination is a peer that switches paths. A packet without a route leaves nothing behind but a
count, and a packet that cannot be taken for a fault changes nothing but the count of packets.
-/
namespace Sidelink

/-- What became of a packet. -/
inductive Outcome where
  | queued
  /-- It waits for its peer to switch. -/
  | deferred
  | dropped (reason : DropReason)
  /-- The buffer of its next hop gave no answer. -/
  | unanswered
  deriving DecidableEq, Inhabited

/-- The connection and the number of a packet, and what became of it. -/
structure Dispatch where
  /-- `Lcid.notFound` where the packet has no route and its flow no connection. -/
  lcid : Lcid
  /-- Absent where the packet has no route. -/
  sn : Option UInt32
  outcome : Outcome
  deriving DecidableEq, Inhabited

/-- Why a packet cannot be taken. -/
inductive SubmitError where
  | fault (fault : Fault)
  /-- The sequence numbers of the connection are used up. -/
  | numbersExhausted
  deriving DecidableEq

/-- What a packet leaves behind. -/
structure Submission where
  result : Except SubmitError Dispatch
  plane : DataPlane
  timers : Timers

namespace DataPlane

/-- Offers a unit to the buffer of its next hop, which is made if there is none. A unit that gets no answer counts as
one that found no room. -/
def offer (p : DataPlane) (nextHop : NodeId) (lcid : Lcid) (sn : UInt32) (mode : DeliveryMode) (path : Path)
    (sdu : Bytes) (recipients : List NodeId) : Outcome × DataPlane :=
  let key : EntityKey := ⟨nextHop, lcid⟩
  let link := p.settings.link
  let buffer := (p.buffers.get? key).getD (.new key mode path link.queueCapacity link.maxPduSize)
  let (taken, buffer) := buffer.offer sn sdu recipients
  let p := { p with buffers := p.buffers.insert key buffer }
  match taken with
  | some true => (.queued, p.count fun c => { c with queued := c.queued + 1 })
  | some false => (.dropped .queueFull, p.count fun c => { c with overflowDrops := c.overflowDrops + 1 })
  | none => (.unanswered, p.count fun c => { c with overflowDrops := c.overflowDrops + 1 })

/-- Sends a unit that waited for a peer on the path that the peer switched to. -/
def flush (p : DataPlane) (peer : NodeId) (path : Path) (nextHop : Option NodeId) (d : DeferredSdu) : DataPlane :=
  match nextHop with
  | none => p.count fun c => { c with routingDrops := c.routingDrops + 1 }
  | some hop =>
    ({ p with links := p.links.add peer ⟨hop, d.lcid⟩ }.offer hop d.lcid d.sn d.mode path d.sdu d.recipients).2

/-- Carries out a switch that is done: the connections of the peer take the new path, and so do the units that
waited for it. -/
def applyCompletion (p : DataPlane) (directory : Directory) (done : SwitchCompletion) : DataPlane :=
  let p := { p with flows := p.flows.setPeerPath done.peer done.path }
  let p := p.count fun c => { c with switchesCompleted := c.switchesCompleted + 1 }
  let nextHop := (p.view directory).nextHop? done.peer done.path
  done.deferred.foldl (fun p d => p.flush done.peer done.path nextHop d) p

/-- Takes over what a step of a switch leaves behind. -/
def applyStep (p : DataPlane) (directory : Directory) (step : SwitchStep) : DataPlane × Timers :=
  let p := { p with switches := step.switches, buffers := step.buffers }
  match step.completion with
  | some done => (p.applyCompletion directory done, step.timers)
  | none => (p, step.timers)

/-- Ends the switch of a peer if nothing drains any more. -/
def reevaluate (p : DataPlane) (directory : Directory) (timers : Timers) (peer : NodeId) : DataPlane × Timers :=
  p.applyStep directory (p.switches.reevaluate p.links p.buffers timers peer)

/-- Lets a unit for a peer wait while the peer switches, and queues it on the peer's current path otherwise. -/
def sendToPeer (p : DataPlane) (directory : Directory) (timers : Timers) (peer : NodeId) (d : DeferredSdu) :
    Outcome × DataPlane × Timers :=
  let (p, timers) := p.reevaluate directory timers peer
  if p.switches.isSwitching peer then
    let (taken, switches) := p.switches.defer peer d
    let p := { p with switches }
    if taken then (.deferred, p.count fun c => { c with deferred := c.deferred + 1 }, timers)
    else (.dropped .queueFull, p.count fun c => { c with overflowDrops := c.overflowDrops + 1 }, timers)
  else
    let path := p.switches.currentPath peer
    match (p.view directory).nextHop? peer path with
    | none => (.dropped .noServingNode, p.count fun c => { c with routingDrops := c.routingDrops + 1 }, timers)
    | some hop =>
      let p := { p with links := p.links.add peer ⟨hop, d.lcid⟩ }
      let (outcome, p) := p.offer hop d.lcid d.sn d.mode path d.sdu d.recipients
      (outcome, p, timers)

/-- The descriptor of a new connection. -/
def describe (p : DataPlane) (lcid : Lcid) (profile : Profile) (direction : Direction) (route : Route) :
    Descriptor where
  lcid := lcid
  application := profile.application
  trafficClass := profile.trafficClass
  modeCode := profile.modeCode
  priority := profile.priority
  direction := direction
  txPeer := route.peer.map fun _ => p.node
  rxPeer := route.peer
  group := route.group
  path := route.path
  lastSn := none

/-- Gives the next packet of a connection its number. -/
def number (p : DataPlane) (lcid : Lcid) : Option (UInt32 × ConvergenceEntity × DataPlane) :=
  let entity := (p.convergence.get? lcid).getD (.new lcid p.settings.compression)
  entity.next?.map fun (sn, entity) => (sn, entity, { p with convergence := p.convergence.insert lcid entity })

/-- Sends a packet that has a route, in a delivery mode, on the connection of its flow. -/
def send (p : DataPlane) (directory : Directory) (timers : Timers) (packet : Packet) (profile : Profile)
    (mode : DeliveryMode) (direction : Direction) (route : Route) : Submission :=
  match p.flows.lookupOrCreate (.ofEndpoints packet.endpoints direction) with
  | none => ⟨.error (.fault .lcidsExhausted), p, timers⟩
  | some (lcid, created, flows) =>
    let flows := if created || !flows.descriptors.contains lcid
      then flows.setDescriptor (p.describe lcid profile direction route) else flows
    match { p with flows }.number lcid with
    | none => ⟨.error .numbersExhausted, p, timers⟩
    | some (sn, entity, p) =>
      let sdu := (entity.compress ⟨sn, packet.headers, none, packet.payload⟩).encode
      let p := { p with
        flows := p.flows.modifyDescriptor lcid fun d => { d with path := route.path, lastSn := some sn } }
      match route.peer with
      | some peer =>
        let (outcome, p, timers) := p.sendToPeer directory timers peer ⟨lcid, sn, mode, sdu, route.recipients⟩
        ⟨.ok ⟨lcid, some sn, outcome⟩, p, timers⟩
      | none =>
        let (outcome, p) := p.offer route.nextHop lcid sn mode route.path sdu route.recipients
        ⟨.ok ⟨lcid, some sn, outcome⟩, p, timers⟩

/-- Takes a packet of an application. -/
def submit (p : DataPlane) (directory : Directory) (timers : Timers) (packet : Packet) (hint : String) :
    Submission :=
  let p := (p.advance timers.now).count fun c => { c with submitted := c.submitted + 1 }
  let profile := p.settings.profiles.classify hint
  match DeliveryMode.ofCode? profile.modeCode.toNat with
  | none => ⟨.error (.fault (.unknownMode profile.modeCode hint)), p, timers⟩
  | some mode =>
    let view := p.view directory
    let direction := view.direction p.role packet
    match view.route p.role packet with
    | .error reason =>
      let lcid := (p.flows.lookup? (.ofEndpoints packet.endpoints direction)).getD .notFound
      ⟨.ok ⟨lcid, none, .dropped reason⟩, p.count fun c => { c with routingDrops := c.routingDrops + 1 }, timers⟩
    | .ok route => p.send directory timers packet profile mode direction route

/-- Sends control traffic to the serving node, on the connection kept for it. -/
def submitControl (p : DataPlane) (directory : Directory) (timers : Timers) (payload : Bytes) : Submission :=
  let p := p.advance timers.now
  match directory.serving? p.node with
  | none =>
    ⟨.ok ⟨.control, none, .dropped .noServingNode⟩,
      p.count fun c => { c with routingDrops := c.routingDrops + 1 }, timers⟩
  | some serving =>
    match p.number .control with
    | none => ⟨.error .numbersExhausted, p, timers⟩
    | some (sn, _, p) =>
      let sdu := (ConvergencePdu.mk sn .bare none payload).encode
      let (outcome, p) := p.offer serving .control sn .transparent .infrastructure sdu [serving]
      ⟨.ok ⟨.control, some sn, outcome⟩, p, timers⟩

end DataPlane
end Sidelink
