import Sidelink.Plane.Events
import Sidelink.Proofs.Segmentation

/-!
Runs of a data plane. A run is a list of moments; at each the node finds a directory and a clock, both free to change
from one moment to the next, and one thing happens (`Stimulus`). What a run leaves behind is collected over its
moments: the frames that were sent, the packets that were handed up, what became of the packets that were submitted,
and the units that transmit buffers took (`Admission`), at once or after they had waited for a peer.
-/
namespace Sidelink

/-- What can happen at a node. -/
inductive Stimulus where
  | packet (packet : Packet) (hint : String)
  | control (payload : Bytes)
  | opportunity (limit : Nat)
  | drainCheck (peer : NodeId)
  | pathSwitch (peer : NodeId) (path : Path) (clear : Bool)
  | peerDeparted (peer : NodeId)
  | departed
  | arrival (frame : Frame)

/-- Something that happens at a node, and what the node finds around it at that moment. -/
structure Moment where
  directory : Directory
  timers : Timers
  stimulus : Stimulus

/-- What a node makes of a moment. -/
structure Reaction where
  plane : DataPlane
  sent : List Frame
  handedUp : List DeliveredSdu
  /-- What became of the packet, if there was one that could be taken. -/
  dispatched : List (Packet × Dispatch)

/-- A unit that a transmit buffer took. -/
structure Admission where
  key : EntityKey
  /-- The mode and the path of the buffer. -/
  mode : DeliveryMode
  path : Path
  sn : UInt32
  sdu : Bytes
  recipients : List NodeId
  deriving DecidableEq

/-- The frames that carry a unit. -/
def Admission.frames (node : NodeId) (link : LinkSettings) (a : Admission) : List Frame :=
  (link.pdus a.mode a.sn a.sdu).map fun bytes =>
    ⟨bytes, node, a.key.node, a.recipients, a.key.lcid, a.mode, a.path⟩

/-- What became of a packet, if it was taken. -/
def Submission.dispatched (s : Submission) (packet : Packet) : List (Packet × Dispatch) :=
  match s.result with
  | .ok dispatch => [(packet, dispatch)]
  | .error _ => []

/-- Whether all packets that were numbered make units whose length fits into 32 bits. -/
def ShortUnits (settings : CompressionSettings) (dispatched : List (Packet × Dispatch)) : Prop :=
  ∀ x ∈ dispatched, ∀ sn, x.2.sn = some sn → (x.1.unit settings sn).length < 4294967296

namespace DataPlane

/-- A new node has a configuration without fault, and nothing else. -/
theorem eq_of_new {node : NodeId} {role : Role} {settings : PlaneSettings} {p : DataPlane}
    (made : new node role settings = .ok p) :
    settings.fault? = none ∧ p = ⟨node, role, settings, .empty, .empty, .empty, .empty, .empty, .empty,
      .new settings.link.queueCapacity settings.drainInterval, ⟨0, 0, 0, 0, 0, 0, 0, 0, 0, 0⟩, 0, 0, 0⟩ := by
  rw [new] at made
  split at made
  · cases made
  · rename_i faultless
    exact ⟨faultless, (Except.ok.inj made).symm⟩

/-! ## Runs -/

/-- Deals with a moment. A node that used an opportunity to send looks at once which switches are done. -/
def react (p : DataPlane) (m : Moment) : Reaction :=
  match m.stimulus with
  | .packet packet hint =>
    let submission := p.submit m.directory m.timers packet hint
    ⟨submission.plane, [], [], submission.dispatched packet⟩
  | .control payload => ⟨(p.submitControl m.directory m.timers payload).plane, [], [], []⟩
  | .opportunity limit =>
    let (frames, p) := p.transmit m.timers.now limit
    ⟨(p.settle m.directory m.timers).1, frames, [], []⟩
  | .drainCheck peer => ⟨(p.drainCheck m.directory m.timers peer).1, [], [], []⟩
  | .pathSwitch peer path clear =>
    let (sdus, p, _) := p.switchPath m.directory m.timers peer path clear
    ⟨p, [], sdus, []⟩
  | .peerDeparted peer => ⟨p.peerDeparted peer, [], [], []⟩
  | .departed => ⟨p.departed, [], [], []⟩
  | .arrival frame =>
    let (result, p) := p.deliver frame
    ⟨p, [],
      match result with
      | .ok sdu => sdu.toList
      | .error _ => [], []⟩

/-- The data plane after a run. -/
def after (p : DataPlane) : List Moment → DataPlane
  | [] => p
  | m :: rest => (p.react m).plane.after rest

/-- What the moments of a run leave behind, one after the other. -/
def collect {α : Type} (part : DataPlane → Moment → List α) (p : DataPlane) : List Moment → List α
  | [] => []
  | m :: rest => part p m ++ (p.react m).plane.collect part rest

theorem after_append (p : DataPlane) (ms ns : List Moment) : p.after (ms ++ ns) = (p.after ms).after ns := by
  induction ms generalizing p with
  | nil => rfl
  | cons m rest ih => exact ih _

theorem collect_append {α : Type} (part : DataPlane → Moment → List α) (p : DataPlane) (ms ns : List Moment) :
    p.collect part (ms ++ ns) = p.collect part ms ++ (p.after ms).collect part ns := by
  induction ms generalizing p with
  | nil => rfl
  | cons m rest ih =>
    simp only [List.cons_append, collect, ih, List.append_assoc]
    rfl

/-- What a run leaves behind is left behind at one of its moments. -/
theorem mem_collect {α : Type} {part : DataPlane → Moment → List α} {p : DataPlane} {ms : List Moment} {x : α}
    (member : x ∈ p.collect part ms) : ∃ before m later, ms = before ++ m :: later ∧ x ∈ part (p.after before) m := by
  induction ms generalizing p with
  | nil => cases member
  | cons m rest ih =>
    rcases List.mem_append.1 member with now | after
    · exact ⟨[], m, rest, rfl, now⟩
    · obtain ⟨before, n, later, rfl, here⟩ := ih after
      exact ⟨m :: before, n, later, rfl, here⟩

def sent (p : DataPlane) (ms : List Moment) : List Frame := p.collect (fun p m => (p.react m).sent) ms

def handedUp (p : DataPlane) (ms : List Moment) : List DeliveredSdu :=
  p.collect (fun p m => (p.react m).handedUp) ms

def dispatched (p : DataPlane) (ms : List Moment) : List (Packet × Dispatch) :=
  p.collect (fun p m => (p.react m).dispatched) ms

/-! ## Units that buffers take

Each definition follows the one of the data plane that it is named after, and lists the units that buffers take on
the way. -/

/-- A unit offered to the buffer of its next hop. -/
def offered (p : DataPlane) (hop : NodeId) (path : Path) (d : DeferredSdu) : List Admission :=
  let key : EntityKey := ⟨hop, d.lcid⟩
  let link := p.settings.link
  let buffer := (p.buffers.get? key).getD (.new key d.mode path link.queueCapacity link.maxPduSize)
  if (buffer.offer d.sn d.sdu d.recipients).1 = some true then
    [⟨key, buffer.mode, buffer.path, d.sn, d.sdu, d.recipients⟩]
  else []

/-- Units that waited for a peer. -/
def flushed (p : DataPlane) (peer : NodeId) (path : Path) (nextHop : Option NodeId) : List DeferredSdu → List Admission
  | [] => []
  | d :: rest =>
    (match nextHop with
      | none => []
      | some hop => p.offered hop path d) ++ (p.flush peer path nextHop d).flushed peer path nextHop rest

def completed (p : DataPlane) (directory : Directory) (done : SwitchCompletion) : List Admission :=
  let p := { p with flows := p.flows.setPeerPath done.peer done.path }
  let p := p.count fun c => { c with switchesCompleted := c.switchesCompleted + 1 }
  p.flushed done.peer done.path ((p.view directory).nextHop? done.peer done.path) done.deferred

def stepped (p : DataPlane) (directory : Directory) (step : SwitchStep) : List Admission :=
  match step.completion with
  | some done => { p with switches := step.switches, buffers := step.buffers }.completed directory done
  | none => []

def reevaluated (p : DataPlane) (directory : Directory) (timers : Timers) (peer : NodeId) : List Admission :=
  p.stepped directory (p.switches.reevaluate p.links p.buffers timers peer)

/-- A unit for a peer, after the units that waited for it. -/
def sentToPeer (p : DataPlane) (directory : Directory) (timers : Timers) (peer : NodeId) (d : DeferredSdu) :
    List Admission :=
  let q := (p.reevaluate directory timers peer).1
  p.reevaluated directory timers peer ++
    if q.switches.isSwitching peer then []
    else
      let path := q.switches.currentPath peer
      match (q.view directory).nextHop? peer path with
      | none => []
      | some hop => q.offered hop path d

/-- A packet that has a route. -/
def routed (p : DataPlane) (directory : Directory) (timers : Timers) (packet : Packet) (profile : Profile)
    (mode : DeliveryMode) (direction : Direction) (route : Route) : List Admission :=
  match p.flows.lookupOrCreate (.ofEndpoints packet.endpoints direction) with
  | none => []
  | some (lcid, created, flows) =>
    let flows := if created || !flows.descriptors.contains lcid
      then flows.setDescriptor (p.describe lcid profile direction route) else flows
    match { p with flows }.number lcid with
    | none => []
    | some (sn, entity, p) =>
      let sdu := (entity.compress ⟨sn, packet.headers, none, packet.payload⟩).encode
      let p := { p with
        flows := p.flows.modifyDescriptor lcid fun d => { d with path := route.path, lastSn := some sn } }
      match route.peer with
      | some peer => p.sentToPeer directory timers peer ⟨lcid, sn, mode, sdu, route.recipients⟩
      | none => p.offered route.nextHop route.path ⟨lcid, sn, mode, sdu, route.recipients⟩

def submitted (p : DataPlane) (directory : Directory) (timers : Timers) (packet : Packet) (hint : String) :
    List Admission :=
  let p := (p.advance timers.now).count fun c => { c with submitted := c.submitted + 1 }
  let profile := p.settings.profiles.classify hint
  match DeliveryMode.ofCode? profile.modeCode.toNat with
  | none => []
  | some mode =>
    let view := p.view directory
    match view.route p.role packet with
    | .error _ => []
    | .ok route => p.routed directory timers packet profile mode (view.direction p.role packet) route

def submittedControl (p : DataPlane) (directory : Directory) (timers : Timers) (payload : Bytes) : List Admission :=
  let p := p.advance timers.now
  match directory.serving? p.node with
  | none => []
  | some serving =>
    match p.number .control with
    | none => []
    | some (sn, _, p) =>
      p.offered serving .infrastructure
        ⟨.control, sn, .transparent, (ConvergencePdu.mk sn .bare none payload).encode, [serving]⟩

/-- The units that waited for peers whose switches are done, peer by peer. -/
def settledAll (p : DataPlane) (directory : Directory) (timers : Timers) : List NodeId → List Admission
  | [] => []
  | peer :: rest =>
    let (q, timers') := p.reevaluate directory timers peer
    p.reevaluated directory timers peer ++ q.settledAll directory timers' rest

/-- The units that buffers take at a moment, in order. -/
def admissions (p : DataPlane) (m : Moment) : List Admission :=
  match m.stimulus with
  | .packet packet hint => p.submitted m.directory m.timers packet hint
  | .control payload => p.submittedControl m.directory m.timers payload
  | .opportunity limit =>
    let p := (p.transmit m.timers.now limit).2
    p.settledAll m.directory m.timers p.switches.switchingPeers
  | .drainCheck peer =>
    let p := p.advance m.timers.now
    p.stepped m.directory (p.switches.checkFired p.links p.buffers m.timers peer)
  | .pathSwitch peer path clear =>
    let p := p.advance m.timers.now
    p.stepped m.directory (p.switches.start p.links p.buffers m.timers peer path clear)
  | .peerDeparted _ | .departed | .arrival _ => []

/-- The units that the buffers of a node take in a run, in order. -/
def admitted (p : DataPlane) (ms : List Moment) : List Admission := p.collect admissions ms

end DataPlane

/-! ## Two nodes -/

/-- A directory of two nodes that reach each other. -/
def Directory.pair : Directory where
  nodes := .ofList [(⟨1⟩, ⟨⟨1⟩, .terminal, none, none, none⟩), (⟨2⟩, ⟨⟨2⟩, .terminal, none, none, none⟩)]
  owners := .empty
  reach := (SortedMap.empty.add (⟨1⟩, ⟨2⟩)).add (⟨2⟩, ⟨1⟩)

/-- A node that reaches peers directly, in the default configuration. -/
def DataPlane.fresh (id : UInt16) : DataPlane := ((new ⟨id⟩ .peerDirect .default).toOption).getD default

theorem DataPlane.new_fresh :
    new ⟨1⟩ .peerDirect .default = .ok (fresh 1) ∧ new ⟨2⟩ .peerDirect .default = .ok (fresh 2) :=
  ⟨rfl, rfl⟩

/-- Something that happens at time 0 to one of the two nodes. -/
def Stimulus.inPair (stimulus : Stimulus) : Moment := ⟨.pair, ⟨0, 0, []⟩, stimulus⟩

/-- A packet from the first node to the second. -/
def Packet.hello : Packet := ⟨.token 1 2, .udp, [0xab, 0xcd]⟩

namespace DataPlane

/-- The first node sends the packet. -/
def greeting : List Moment := [.packet .hello "voice", .opportunity 4].map Stimulus.inPair

/-- The first node sends the packet three times, and switches the path of the second node after the first frame. The
third packet waits for the switch. -/
def switchover : List Moment :=
  [.packet .hello "voice", .packet .hello "voice", .opportunity 1, .pathSwitch ⟨2⟩ .direct false,
    .packet .hello "voice", .opportunity 4, .opportunity 4].map Stimulus.inPair

end DataPlane
end Sidelink
