import Sidelink.Proofs.Run
import Sidelink.Proofs.Untouched

/-!
What a data plane does, in small changes. Whatever happens at a node is a chain of changes of a few kinds (`Change`):
a packet is numbered, a unit is offered to a buffer, waits for a peer or is lost, a buffer hands out a frame, buffers
hold, a switch is done, and so on. Between changes some units are in no queue; they are tasks, carried out in order.
An invariant that every change keeps holds after every run (`run_chain`).
-/
namespace Sidelink

/-! ## Stages -/

/-- Where a unit is to go. -/
inductive Way where
  /-- On the path that the peer is on when the unit leaves. -/
  | toPeer (peer : NodeId)
  | toHop (hop : NodeId) (path : Path)
  deriving DecidableEq

/-- A unit that has its number and is in no queue. -/
structure Task where
  way : Way
  unit : DeferredSdu

/-- A data plane at work, with the tasks that it is still to carry out. -/
structure Stage where
  plane : DataPlane
  tasks : List Task

/-- What a change leaves behind. -/
inductive Effect where
  /-- A packet was given a connection and a number. -/
  | issued (packet : Packet) (lcid : Lcid) (sn : UInt32)
  | admitted (a : Admission)
  | sent (frame : Frame)
  /-- Buffers lost what they held. -/
  | dropped

namespace Effect

def issued? : Effect → Option (Packet × Lcid × UInt32)
  | issued packet lcid sn => some (packet, lcid, sn)
  | _ => none

def admitted? : Effect → Option Admission
  | admitted a => some a
  | _ => none

def sent? : Effect → Option Frame
  | sent frame => some frame
  | _ => none

end Effect

/-- The numbers that some effects gave to packets. -/
abbrev issuedOf (effects : List Effect) : List (Packet × Lcid × UInt32) := effects.filterMap Effect.issued?

/-- The units that buffers took with some effects. -/
abbrev admittedOf (effects : List Effect) : List Admission := effects.filterMap Effect.admitted?

/-- The frames that were sent with some effects. -/
abbrev sentOf (effects : List Effect) : List Frame := effects.filterMap Effect.sent?

theorem issuedOf_append (es fs : List Effect) : issuedOf (es ++ fs) = issuedOf es ++ issuedOf fs :=
  List.filterMap_append

theorem admittedOf_append (es fs : List Effect) : admittedOf (es ++ fs) = admittedOf es ++ admittedOf fs :=
  List.filterMap_append

theorem sentOf_append (es fs : List Effect) : sentOf (es ++ fs) = sentOf es ++ sentOf fs := List.filterMap_append

@[simp] theorem issuedOf_admitted (l : List Admission) : issuedOf (l.map .admitted) = [] := by
  simp [issuedOf, List.filterMap_map, Function.comp_def, Effect.issued?]

@[simp] theorem admittedOf_admitted (l : List Admission) : admittedOf (l.map .admitted) = l := by
  simp [admittedOf, List.filterMap_map, Function.comp_def, Effect.admitted?]

@[simp] theorem sentOf_admitted (l : List Admission) : sentOf (l.map .admitted) = [] := by
  simp [sentOf, List.filterMap_map, Function.comp_def, Effect.sent?]

@[simp] theorem issuedOf_sent (l : List Frame) : issuedOf (l.map .sent) = [] := by
  simp [issuedOf, List.filterMap_map, Function.comp_def, Effect.issued?]

@[simp] theorem admittedOf_sent (l : List Frame) : admittedOf (l.map .sent) = [] := by
  simp [admittedOf, List.filterMap_map, Function.comp_def, Effect.admitted?]

@[simp] theorem sentOf_sent (l : List Frame) : sentOf (l.map .sent) = l := by
  simp [sentOf, List.filterMap_map, Function.comp_def, Effect.sent?]

/-! ## Changes -/

/-- Whether two data planes are the same in all that decides what becomes of packets on their way out. -/
structure Alike (p q : DataPlane) : Prop where
  node : q.node = p.node
  role : q.role = p.role
  settings : q.settings = p.settings
  lcids : q.flows.lcids = p.flows.lcids
  next : q.flows.next = p.flows.next
  convergence : q.convergence = p.convergence
  buffers : q.buffers = p.buffers
  links : q.links = p.links
  peers : q.switches.peers = p.switches.peers
  paths : q.switches.paths = p.switches.paths

theorem Alike.refl (p : DataPlane) : Alike p p := ⟨rfl, rfl, rfl, rfl, rfl, rfl, rfl, rfl, rfl, rfl⟩

theorem Alike.trans {p q r : DataPlane} (first : Alike p q) (second : Alike q r) : Alike p r where
  node := second.node.trans first.node
  role := second.role.trans first.role
  settings := second.settings.trans first.settings
  lcids := second.lcids.trans first.lcids
  next := second.next.trans first.next
  convergence := second.convergence.trans first.convergence
  buffers := second.buffers.trans first.buffers
  links := second.links.trans first.links
  peers := second.peers.trans first.peers
  paths := second.paths.trans first.paths

/-- The way of a packet that has a route. -/
def Route.way (route : Route) : Way :=
  match route.peer with
  | some peer => .toPeer peer
  | none => .toHop route.nextHop route.path

/-- Changes the entry of a peer. -/
def PathSwitches.setEntry (s : PathSwitches) (peer : NodeId) (entry : PeerSwitch) : PathSwitches :=
  { s with peers := s.peers.insert peer entry }

namespace DataPlane

/-- The buffer that a unit is offered to. -/
def bufferFor (p : DataPlane) (hop : NodeId) (path : Path) (d : DeferredSdu) : TransmitBuffer :=
  (p.buffers.get? ⟨hop, d.lcid⟩).getD
    (.new ⟨hop, d.lcid⟩ d.mode path p.settings.link.queueCapacity p.settings.link.maxPduSize)

/-- The data plane once a unit was offered to the buffer of its next hop. -/
def stored (p : DataPlane) (hop : NodeId) (path : Path) (d : DeferredSdu) : DataPlane :=
  { p with buffers := p.buffers.insert ⟨hop, d.lcid⟩ ((p.bufferFor hop path d).offer d.sn d.sdu d.recipients).2 }

/-- Notes that a buffer carries traffic towards the peer of a way. -/
def join (p : DataPlane) (way : Way) (key : EntityKey) : DataPlane :=
  { p with
    links := match way with
      | .toPeer peer => p.links.add peer key
      | .toHop _ _ => p.links }

/-- Whether a unit on some way leaves for a node on a path. -/
def Leads (p : DataPlane) (directory : Directory) (hop : NodeId) (path : Path) : Way → Prop
  | .toPeer peer => p.switches.isSwitching peer = false ∧ path = p.switches.currentPath peer ∧
      (p.view directory).nextHop? peer path = some hop
  | .toHop hop' path' => hop' = hop ∧ path' = path

/-- Changes some buffers. -/
def onBuffers (p : DataPlane) (keys : List EntityKey) (f : TransmitBuffer → TransmitBuffer) : DataPlane :=
  { p with buffers := TransmitBuffers.onKeys p.buffers keys f }

/-- The data plane as it is when the switch of a peer is done. -/
def switched (p : DataPlane) (peer : NodeId) (path : Path) : DataPlane :=
  { p with
    switches := { p.switches with
      peers := p.switches.peers.insert peer ⟨.switched, []⟩
      paths := p.switches.paths.insert peer path }
    buffers := TransmitBuffers.onKeys p.buffers (p.links.keys peer) TransmitBuffer.resume }

end DataPlane

open DataPlane in
/-- One change of a data plane that looks into a directory, and what it leaves behind. -/
inductive Change (directory : Directory) : Stage → List Effect → Stage → Prop
  | quiet {p q : DataPlane} {tasks : List Task} (alike : Alike p q) : Change directory ⟨p, tasks⟩ [] ⟨q, tasks⟩
  /-- A packet that has a route is given a connection and a number. -/
  | issue {p q : DataPlane} {tasks : List Task} {packet : Packet} {route : Route} {lcid : Lcid} {flows : FlowTable}
      {sn : UInt32} {entity : ConvergenceEntity} (mode : DeliveryMode)
      (routed : (p.view directory).route p.role packet = .ok route)
      (created : p.flows.create (.ofEndpoints packet.endpoints ((p.view directory).direction p.role packet)) =
        some (lcid, flows))
      (numbered : { p with flows }.number lcid = some (sn, entity, q)) :
      Change directory ⟨p, tasks⟩ [.issued packet lcid sn]
        ⟨q, tasks ++ [⟨route.way, lcid, sn, mode,
          (entity.compress ⟨sn, packet.headers, none, packet.payload⟩).encode, route.recipients⟩]⟩
  | issueControl {p q : DataPlane} {tasks : List Task} {sn : UInt32} {entity : ConvergenceEntity} {serving : NodeId}
      (sdu : Bytes) (served : directory.serving? p.node = some serving)
      (numbered : p.number .control = some (sn, entity, q)) :
      Change directory ⟨p, tasks⟩ []
        ⟨q, tasks ++ [⟨.toHop serving .infrastructure, .control, sn, .transparent, sdu, [serving]⟩]⟩
  /-- A unit is offered to the buffer of its next hop, which takes or refuses it. -/
  | offer {p : DataPlane} {task : Task} {tasks : List Task} {hop : NodeId} {path : Path}
      (leads : p.Leads directory hop path task.way) :
      Change directory ⟨p, task :: tasks⟩ ((p.offered hop path task.unit).map .admitted)
        ⟨(p.join task.way ⟨hop, task.unit.lcid⟩).stored hop path task.unit, tasks⟩
  | lose {p : DataPlane} {task : Task} {tasks : List Task} : Change directory ⟨p, task :: tasks⟩ [] ⟨p, tasks⟩
  /-- A unit waits for its peer to switch. -/
  | wait {p : DataPlane} {peer : NodeId} {unit : DeferredSdu} {state : PeerSwitch}
      (switching : p.switches.isSwitching peer = true) (found : p.switches.peers.get? peer = some state) :
      Change directory ⟨p, [⟨.toPeer peer, unit⟩]⟩ []
        ⟨{ p with switches := p.switches.setEntry peer { state with deferred := state.deferred ++ [unit] } }, []⟩
  /-- A switch of a peer begins, or replaces the one under way: its buffers hold. -/
  | hold {p : DataPlane} {tasks : List Task} (peer : NodeId) (target : Path) :
      Change directory ⟨p, tasks⟩ []
        ⟨{ p with switches := p.switches.setPhase peer (.switching target none) }.onBuffers (p.links.keys peer)
          TransmitBuffer.hold, tasks⟩
  /-- A switch that is under way is given a drain check, or none any more. -/
  | recheck {p : DataPlane} {tasks : List Task} {peer : NodeId} {target : Path} {check check' : Option EventId}
      (switching : p.switches.phase peer = .switching target check) :
      Change directory ⟨p, tasks⟩ []
        ⟨{ p with switches := p.switches.setPhase peer (.switching target check') }, tasks⟩
  /-- The buffers of a peer drop what they hold. -/
  | discard {p : DataPlane} {tasks : List Task} (peer : NodeId) :
      Change directory ⟨p, tasks⟩ [.dropped] ⟨p.onBuffers (p.links.keys peer) TransmitBuffer.discard, tasks⟩
  /-- The switch of a peer is done, and the units that waited for it are next. -/
  | complete {p : DataPlane} {tasks : List Task} {peer : NodeId} {target : Path} {check : Option EventId}
      (switching : p.switches.phase peer = .switching target check)
      (drained : TransmitBuffers.anyDraining p.buffers (p.links.keys peer) = false) :
      Change directory ⟨p, tasks⟩ []
        ⟨p.switched peer target, (p.switches.deferred peer).map (fun d => ⟨.toPeer peer, d⟩) ++ tasks⟩
  /-- A buffer hands out a frame. -/
  | serve {p : DataPlane} {tasks : List Task} {key : EntityKey} {buffer : TransmitBuffer} {pdu : QueuedPdu}
      {rest : List QueuedPdu} (found : p.buffers.get? key = some buffer) (queued : buffer.queue = pdu :: rest) :
      Change directory ⟨p, tasks⟩
        [.sent ⟨pdu.bytes, p.node, key.node, pdu.recipients, key.lcid, buffer.mode, buffer.path⟩]
        ⟨{ p with buffers := p.buffers.insert key (buffer.pull 1).2 }, tasks⟩
  | leave {p : DataPlane} (peer : NodeId) : Change directory ⟨p, []⟩ [.dropped] ⟨p.peerDeparted peer, []⟩
  | clear {p : DataPlane} : Change directory ⟨p, []⟩ [.dropped] ⟨p.departed, []⟩

/-- Changes one after the other, each with one of the directories that are allowed. -/
inductive Chain (allowed : Directory → Prop) : Stage → List Effect → Stage → Prop
  | refl (s : Stage) : Chain allowed s [] s
  | step {a b c : Stage} {es fs : List Effect} {directory : Directory} (ok : allowed directory)
      (first : Change directory a es b) (rest : Chain allowed b fs c) : Chain allowed a (es ++ fs) c

namespace Chain
variable {allowed : Directory → Prop} {a b c : Stage} {es fs : List Effect}

theorem trans (first : Chain allowed a es b) (second : Chain allowed b fs c) : Chain allowed a (es ++ fs) c := by
  induction first with
  | refl s => exact second
  | step ok change _ ih =>
    rw [List.append_assoc]
    exact .step ok change (ih second)

theorem mono {more : Directory → Prop} (included : ∀ d, allowed d → more d) (chain : Chain allowed a es b) :
    Chain more a es b := by
  induction chain with
  | refl s => exact .refl s
  | step ok change _ ih => exact .step (included _ ok) change ih

theorem single {directory : Directory} (change : Change directory a es b) : Chain (· = directory) a es b := by
  have chain : Chain (· = directory) a (es ++ []) b := .step rfl change (.refl b)
  rwa [List.append_nil] at chain

/-- A chain goes on without an effect. -/
theorem andThen {directory : Directory} (first : Chain (· = directory) a es b) (change : Change directory b [] c) :
    Chain (· = directory) a es c := by
  have chain := first.trans (single change)
  rwa [List.append_nil] at chain

theorem before {directory : Directory} (change : Change directory a [] b) (rest : Chain (· = directory) b es c) :
    Chain (· = directory) a es c :=
  show Chain (· = directory) a ([] ++ es) c from .step rfl change rest

/-- What holds at the start and is kept by every change holds at the end. -/
theorem invariant {holds : List Effect → Stage → Prop}
    (kept : ∀ {hs directory a es b}, allowed directory → Change directory a es b → holds hs a → holds (hs ++ es) b)
    {hs : List Effect} (start : holds hs a) (chain : Chain allowed a es b) : holds (hs ++ es) b := by
  induction chain generalizing hs with
  | refl s => rwa [List.append_nil]
  | step ok change _ ih =>
    rw [← List.append_assoc]
    exact ih (kept ok change start)

theorem quietly {directory : Directory} {p q : DataPlane} {tasks : List Task} (alike : Alike p q) :
    Chain (· = directory) ⟨p, tasks⟩ [] ⟨q, tasks⟩ :=
  single (.quiet alike)

end Chain

/-! ## Units on their way to a buffer -/

namespace DataPlane
variable {p : DataPlane} {directory : Directory}

theorem alike_advance (p : DataPlane) (now : SimTime) : Alike p (p.advance now) := by
  rw [advance]
  split
  · exact .refl p
  · exact ⟨rfl, rfl, rfl, rfl, rfl, rfl, rfl, rfl, rfl, rfl⟩

/-- The node once a packet was counted. -/
def noted (p : DataPlane) (now : SimTime) : DataPlane :=
  { p with now := max p.now now, counters := { p.counters with submitted := p.counters.submitted + 1 } }

theorem noted_eq (p : DataPlane) (now : SimTime) :
    (p.advance now).count (fun c => { c with submitted := c.submitted + 1 }) = p.noted now := by
  unfold advance noted count
  split
  · rename_i early
    rw [Nat.max_eq_left (Nat.le_of_lt early)]
  · rename_i late
    rw [Nat.max_eq_right (Nat.not_lt.1 late)]

theorem alike_noted (p : DataPlane) (now : SimTime) : Alike p (p.noted now) :=
  ⟨rfl, rfl, rfl, rfl, rfl, rfl, rfl, rfl, rfl, rfl⟩

theorem alike_offer (p : DataPlane) (hop : NodeId) (path : Path) (d : DeferredSdu) :
    Alike (p.stored hop path d) (p.offer hop d.lcid d.sn d.mode path d.sdu d.recipients).2 := by
  simp only [offer]
  split <;> exact ⟨rfl, rfl, rfl, rfl, rfl, rfl, rfl, rfl, rfl, rfl⟩

/-- Offering the first task to a buffer. -/
theorem offer_chain (task : Task) {hop : NodeId} {path : Path} (leads : p.Leads directory hop path task.way)
    (tasks : List Task) :
    Chain (· = directory) ⟨p, task :: tasks⟩ ((p.offered hop path task.unit).map .admitted)
      ⟨((p.join task.way ⟨hop, task.unit.lcid⟩).offer hop task.unit.lcid task.unit.sn task.unit.mode path
        task.unit.sdu task.unit.recipients).2, tasks⟩ :=
  (Chain.single (.offer leads)).andThen (.quiet (alike_offer _ _ _ _))

theorem flush_of_some (p : DataPlane) (peer : NodeId) (path : Path) (hop : NodeId) (d : DeferredSdu) :
    p.flush peer path (some hop) d =
      ((p.join (.toPeer peer) ⟨hop, d.lcid⟩).offer hop d.lcid d.sn d.mode path d.sdu d.recipients).2 := rfl

theorem switches_offer (p : DataPlane) (hop : NodeId) (path : Path) (d : DeferredSdu) :
    (p.offer hop d.lcid d.sn d.mode path d.sdu d.recipients).2.switches = p.switches := by
  simp only [offer]
  split <;> rfl

theorem node_offer (p : DataPlane) (hop : NodeId) (path : Path) (d : DeferredSdu) :
    (p.offer hop d.lcid d.sn d.mode path d.sdu d.recipients).2.node = p.node :=
  (outbound_offer p hop d.lcid d.sn d.mode path d.sdu d.recipients).node

/-- Offering the units that waited for a peer. -/
theorem flush_chain {peer : NodeId} {path : Path} {nextHop : Option NodeId} (waiting : List DeferredSdu)
    (tasks : List Task) (still : p.switches.isSwitching peer = false) (current : path = p.switches.currentPath peer)
    (leads : (p.view directory).nextHop? peer path = nextHop) :
    Chain (· = directory) ⟨p, waiting.map (fun d => ⟨.toPeer peer, d⟩) ++ tasks⟩
      ((p.flushed peer path nextHop waiting).map .admitted)
      ⟨waiting.foldl (fun p d => p.flush peer path nextHop d) p, tasks⟩ := by
  induction waiting generalizing p with
  | nil => exact .refl _
  | cons d rest ih =>
    simp only [flushed, List.map_append, List.map_cons, List.cons_append, List.foldl_cons]
    cases nextHop with
    | none =>
      have alike : Alike p (p.flush peer path none d) := by constructor <;> rfl
      exact .before .lose (.before (.quiet alike) (ih (p := p.flush peer path none d) still current leads))
    | some hop =>
      have leading : p.Leads directory hop path (.toPeer peer) := ⟨still, current, leads⟩
      have first := offer_chain ⟨.toPeer peer, d⟩ leading (rest.map (fun d => ⟨.toPeer peer, d⟩) ++ tasks)
      rw [flush_of_some]
      refine first.trans (ih ?_ ?_ ?_)
      · rw [switches_offer]
        exact still
      · rw [switches_offer]
        exact current
      · rw [← leads]
        cases path with
        | direct | multicast => rfl
        | infrastructure =>
          simp only [RoutingView.nextHop?, view, node_offer]
          rfl

end DataPlane

/-! ## Switches -/

namespace PathSwitches

theorem isSwitching_eq_true_iff (s : PathSwitches) (peer : NodeId) :
    s.isSwitching peer = true ↔ ∃ target check, s.phase peer = .switching target check := by
  rw [isSwitching]
  cases s.phase peer <;> simp

theorem phase_setPhase (s : PathSwitches) (peer : NodeId) (phase : SwitchPhase) :
    (s.setPhase peer phase).phase peer = phase := by
  simp [setPhase, PathSwitches.phase]

end PathSwitches

namespace DataPlane
variable {p : DataPlane} {directory : Directory}

/-- Ending a switch, and offering the units that waited for it. -/
theorem complete_chain {peer : NodeId} {target : Path} (check : Option EventId) (timers : Timers) (tasks : List Task)
    (switching : p.switches.phase peer = .switching target check)
    (drained : TransmitBuffers.anyDraining p.buffers (p.links.keys peer) = false) :
    Chain (· = directory) ⟨p, tasks⟩
      ((p.stepped directory (p.switches.complete p.links p.buffers timers peer target)).map .admitted)
      ⟨(p.applyStep directory (p.switches.complete p.links p.buffers timers peer target)).1, tasks⟩ := by
  refine .before (.complete switching drained) ?_
  let q : DataPlane :=
    { p with
      switches := (p.switches.complete p.links p.buffers timers peer target).switches
      buffers := (p.switches.complete p.links p.buffers timers peer target).buffers
      flows := p.flows.setPeerPath peer target
      counters := { p.counters with switchesCompleted := p.counters.switchesCompleted + 1 } }
  have alike : Alike (p.switched peer target) q := ⟨rfl, rfl, rfl, rfl, rfl, rfl, rfl, rfl, rfl, rfl⟩
  refine .before (.quiet alike) ?_
  refine flush_chain (p := q) (p.switches.deferred peer) tasks ?_ ?_ rfl
  · simp [q, PathSwitches.complete, PathSwitches.isSwitching, PathSwitches.phase]
  · simp [q, PathSwitches.complete, PathSwitches.currentPath]

/-- Looking whether the switch of a peer is done. -/
theorem reevaluate_chain (p : DataPlane) (directory : Directory) (timers : Timers) (peer : NodeId)
    (tasks : List Task) :
    Chain (· = directory) ⟨p, tasks⟩ ((p.reevaluated directory timers peer).map .admitted)
      ⟨(p.reevaluate directory timers peer).1, tasks⟩ := by
  simp only [reevaluated, reevaluate, PathSwitches.reevaluate]
  split
  · rename_i target check switching
    split
    · split
      · exact .refl _
      · exact .single (.recheck switching)
    · rename_i drained
      exact complete_chain _ _ tasks switching (Bool.not_eq_true _ ▸ drained)
  · exact .refl _

/-- The drain check of a peer. -/
theorem checkFired_chain (p : DataPlane) (directory : Directory) (timers : Timers) (peer : NodeId)
    (tasks : List Task) :
    Chain (· = directory) ⟨p, tasks⟩
      ((p.stepped directory (p.switches.checkFired p.links p.buffers timers peer)).map .admitted)
      ⟨(p.applyStep directory (p.switches.checkFired p.links p.buffers timers peer)).1, tasks⟩ := by
  simp only [PathSwitches.checkFired]
  split
  · rename_i target check switching
    have unchecked : Change directory ⟨p, tasks⟩ []
        ⟨{ p with switches := p.switches.setPhase peer (.switching target none) }, tasks⟩ := .recheck switching
    exact .before unchecked
      (reevaluate_chain { p with switches := p.switches.setPhase peer (.switching target none) } directory timers peer
        tasks)
  · exact .refl _

theorem anyDraining_discard (buffers : TransmitBuffers) (keys : List EntityKey) :
    TransmitBuffers.anyDraining (TransmitBuffers.onKeys buffers keys TransmitBuffer.discard) keys = false := by
  rw [← Bool.not_eq_true, TransmitBuffers.anyDraining_eq_true_iff]
  rintro ⟨k, member, b, found, draining⟩
  rw [TransmitBuffers.get?_onKeys] at found
  obtain ⟨b', -, rfl⟩ := Option.map_eq_some_iff.1 found
  simp [member, TransmitBuffer.isDraining, TransmitBuffer.discard] at draining

/-- The data plane as it is when a switch of a peer begins. -/
def starting (p : DataPlane) (peer : NodeId) (path : Path) : DataPlane :=
  let s := p.switches.setPhase peer (.switching path none)
  { p with switches := { s with counters := { s.counters with started := s.counters.started + 1 } } }.onBuffers
    (p.links.keys peer) TransmitBuffer.hold

theorem starting_chain (p : DataPlane) (directory : Directory) (peer : NodeId) (path : Path) (tasks : List Task) :
    Chain (· = directory) ⟨p, tasks⟩ [] ⟨p.starting peer path, tasks⟩ :=
  .before (.hold peer path) (.quietly (by constructor <;> rfl))

/-- Beginning a switch that lets the buffers drain. -/
theorem start_chain (p : DataPlane) (directory : Directory) (timers : Timers) (peer : NodeId) (path : Path)
    (tasks : List Task) :
    Chain (· = directory) ⟨p, tasks⟩
      ((p.stepped directory (p.switches.start p.links p.buffers timers peer path false)).map .admitted)
      ⟨(p.applyStep directory (p.switches.start p.links p.buffers timers peer path false)).1, tasks⟩ := by
  have first := starting_chain p directory peer path tasks
  exact first.trans (reevaluate_chain (p.starting peer path) directory _ peer tasks)

/-- The data plane as it is when a switch of a peer begins that clears the buffers. -/
def clearing (p : DataPlane) (peer : NodeId) (path : Path) : DataPlane :=
  let p := p.starting peer path
  let keys := p.links.keys peer
  { p.onBuffers keys TransmitBuffer.discard with
    switches := { p.switches with
      counters := { p.switches.counters with
        discarded := p.switches.counters.discarded + TransmitBuffers.queuedAt p.buffers keys } } }

theorem clearing_chain (p : DataPlane) (directory : Directory) (peer : NodeId) (path : Path) (tasks : List Task) :
    Chain (· = directory) ⟨p, tasks⟩ [.dropped] ⟨p.clearing peer path, tasks⟩ :=
  (starting_chain p directory peer path tasks).trans
    ((Chain.single (.discard peer)).andThen (.quiet (by constructor <;> rfl)))

theorem phase_clearing (p : DataPlane) (peer : NodeId) (path : Path) :
    (p.clearing peer path).switches.phase peer = .switching path none := by
  simp [clearing, starting, onBuffers, PathSwitches.setPhase, PathSwitches.phase]

/-- Beginning a switch that clears the buffers. -/
theorem start_clear_chain (p : DataPlane) (directory : Directory) (timers : Timers) (peer : NodeId) (path : Path)
    (tasks : List Task) :
    Chain (· = directory) ⟨p, tasks⟩
      (.dropped :: (p.stepped directory (p.switches.start p.links p.buffers timers peer path true)).map .admitted)
      ⟨(p.applyStep directory (p.switches.start p.links p.buffers timers peer path true)).1, tasks⟩ :=
  (clearing_chain p directory peer path tasks).trans
    (complete_chain (p := p.clearing peer path) none _ tasks (phase_clearing p peer path) (anyDraining_discard _ _))

/-! ## Packets -/

/-- A unit for a peer, after the units that waited for it. -/
theorem sendToPeer_chain (p : DataPlane) (directory : Directory) (timers : Timers) (peer : NodeId) (d : DeferredSdu) :
    Chain (· = directory) ⟨p, [⟨.toPeer peer, d⟩]⟩ ((p.sentToPeer directory timers peer d).map .admitted)
      ⟨(p.sendToPeer directory timers peer d).2.1, []⟩ := by
  have first := reevaluate_chain p directory timers peer [⟨.toPeer peer, d⟩]
  simp only [sentToPeer, sendToPeer, List.map_append]
  generalize (p.reevaluate directory timers peer).1 = q at first ⊢
  refine first.trans ?_
  by_cases switching : q.switches.isSwitching peer = true
  · simp only [switching, if_true, List.map_nil, PathSwitches.defer]
    split
    · exact .before .lose (.quietly (by constructor <;> rfl))
    · rename_i state found
      split
      · exact .before .lose (.quietly (by constructor <;> rfl))
      · exact .before (.wait switching found) (.quietly (by constructor <;> rfl))
  · rw [Bool.not_eq_true] at switching
    simp only [switching, Bool.false_eq_true, if_false]
    cases leads : (q.view directory).nextHop? peer (q.switches.currentPath peer) with
    | none => exact .before .lose (.quietly (by constructor <;> rfl))
    | some hop => exact offer_chain ⟨.toPeer peer, d⟩ ⟨switching, rfl, leads⟩ []

theorem number_eq_some_iff {lcid : Lcid} {sn : UInt32} {entity : ConvergenceEntity} {q : DataPlane} :
    p.number lcid = some (sn, entity, q) ↔
      ((p.convergence.get? lcid).getD (.new lcid p.settings.compression)).next? = some (sn, entity) ∧
        q = { p with convergence := p.convergence.insert lcid entity } := by
  simp only [number, Option.map_eq_some_iff]
  constructor
  · rintro ⟨⟨sn', entity'⟩, next, same⟩
    simp only [Prod.mk.injEq] at same
    obtain ⟨rfl, rfl, rfl⟩ := same
    exact ⟨next, rfl⟩
  · rintro ⟨next, rfl⟩
    exact ⟨(sn, entity), next, rfl⟩

end DataPlane

/-- Whether some effects are all that a number of packets, units and frames left behind. -/
structure Tells (effects : List Effect) (issued : List (Packet × Lcid × UInt32)) (admitted : List Admission)
    (sent : List Frame) : Prop where
  issued : issuedOf effects = issued
  admitted : admittedOf effects = admitted
  sent : sentOf effects = sent

theorem tells_admitted (l : List Admission) : Tells (l.map .admitted) [] l [] where
  issued := issuedOf_admitted l
  admitted := admittedOf_admitted l
  sent := sentOf_admitted l

theorem tells_issued (packet : Packet) (lcid : Lcid) (sn : UInt32) (l : List Admission) :
    Tells (.issued packet lcid sn :: l.map .admitted) [(packet, lcid, sn)] l [] where
  issued := congrArg ((packet, lcid, sn) :: ·) (issuedOf_admitted l)
  admitted := admittedOf_admitted l
  sent := sentOf_admitted l

/-- The connection and the number of a packet, where it got one. -/
def Dispatch.numbered? (d : Packet × Dispatch) : Option (Packet × Lcid × UInt32) :=
  d.2.sn.map fun sn => (d.1, d.2.lcid, sn)

namespace DataPlane
variable {p : DataPlane} {directory : Directory}

/-- Whether a node can come from another by changes that tell of some packets, units and frames, none of them a loss
of frames that buffers hold. -/
def Leaves (directory : Directory) (p q : DataPlane) (issued : List (Packet × Lcid × UInt32))
    (admitted : List Admission) (sent : List Frame) : Prop :=
  ∃ effects, Chain (· = directory) ⟨p, []⟩ effects ⟨q, []⟩ ∧ Tells effects issued admitted sent ∧ .dropped ∉ effects

/-- A packet that has a route is numbered, and offered to a buffer or left to wait. -/
theorem send_leaves (timers : Timers) {packet : Packet} (profile : Profile) (mode : DeliveryMode) {route : Route}
    (routed : (p.view directory).route p.role packet = .ok route) :
    let submission := p.send directory timers packet profile mode ((p.view directory).direction p.role packet) route
    Leaves directory p submission.plane ((submission.dispatched packet).filterMap Dispatch.numbered?)
      (p.routed directory timers packet profile mode ((p.view directory).direction p.role packet) route) [] := by
  simp only [send, DataPlane.routed]
  cases created : p.flows.lookupOrCreate
      (.ofEndpoints packet.endpoints ((p.view directory).direction p.role packet)) with
  | none => exact ⟨[], .refl _, ⟨rfl, rfl, rfl⟩, by simp⟩
  | some answer =>
    obtain ⟨lcid, new, flows⟩ := answer
    simp only
    generalize tableIs : (if new || !flows.descriptors.contains lcid then
      flows.setDescriptor (p.describe lcid profile ((p.view directory).direction p.role packet) route)
      else flows) = table
    have lcids : table.lcids = flows.lcids := by
      rw [← tableIs]
      split <;> rfl
    have next : table.next = flows.next := by
      rw [← tableIs]
      split <;> rfl
    cases numbered : { p with flows := table }.number lcid with
    | none => exact ⟨[], .refl _, ⟨rfl, rfl, rfl⟩, by simp⟩
    | some answer =>
      obtain ⟨sn, entity, q⟩ := answer
      obtain ⟨issued, rfl⟩ := number_eq_some_iff.1 numbered
      let first : DataPlane := { p with flows, convergence := p.convergence.insert lcid entity }
      have issue : Change directory ⟨p, []⟩ _ _ := .issue mode routed
        (show p.flows.create _ = some (lcid, flows) by rw [FlowTable.create, created]; rfl)
        (number_eq_some_iff.2 ⟨issued, rfl⟩ : DataPlane.number { p with flows } lcid = some (sn, entity, first))
      simp only
      have alike : Alike first
          { p with
            flows := table.modifyDescriptor lcid fun d => { d with path := route.path, lastSn := some sn }
            convergence := p.convergence.insert lcid entity } :=
        ⟨rfl, rfl, rfl, lcids, next, rfl, rfl, rfl, rfl, rfl⟩
      have begun := (Chain.single issue).andThen (.quiet alike)
      cases peerIs : route.peer with
      | some peer =>
        have way : route.way = .toPeer peer := by rw [Route.way, peerIs]
        rw [way] at begun
        exact ⟨_, begun.trans (sendToPeer_chain _ directory timers peer _), tells_issued packet lcid sn _, by simp⟩
      | none =>
        have way : route.way = .toHop route.nextHop route.path := by rw [Route.way, peerIs]
        rw [way] at begun
        exact ⟨_, begun.trans (offer_chain ⟨.toHop route.nextHop route.path, _⟩ ⟨rfl, rfl⟩ []),
          tells_issued packet lcid sn _, by simp⟩

theorem submit_leaves (p : DataPlane) (directory : Directory) (timers : Timers) (packet : Packet) (hint : String) :
    Leaves directory p (p.submit directory timers packet hint).plane
      (((p.submit directory timers packet hint).dispatched packet).filterMap Dispatch.numbered?)
      (p.submitted directory timers packet hint) [] := by
  simp only [submit, submitted, noted_eq]
  have alike := alike_noted p timers.now
  generalize p.noted timers.now = q at alike ⊢
  cases DeliveryMode.ofCode? (q.settings.profiles.classify hint).modeCode.toNat with
  | none => exact ⟨[], .quietly alike, ⟨rfl, rfl, rfl⟩, by simp⟩
  | some mode =>
    simp only
    cases routed : (q.view directory).route q.role packet with
    | error reason =>
      exact ⟨[], .before (.quiet alike) (.quietly (by constructor <;> rfl)), ⟨rfl, rfl, rfl⟩, by simp⟩
    | ok route =>
      obtain ⟨effects, chain, tells, kept⟩ :=
        send_leaves timers (q.settings.profiles.classify hint) mode routed
      exact ⟨effects, .before (.quiet alike) chain, tells, kept⟩

theorem submitControl_leaves (p : DataPlane) (directory : Directory) (timers : Timers) (payload : Bytes) :
    Leaves directory p (p.submitControl directory timers payload).plane []
      (p.submittedControl directory timers payload) [] := by
  simp only [submitControl, submittedControl]
  have alike := alike_advance p timers.now
  generalize p.advance timers.now = q at alike ⊢
  cases served : directory.serving? q.node with
  | none => exact ⟨[], .before (.quiet alike) (.quietly (by constructor <;> rfl)), ⟨rfl, rfl, rfl⟩, by simp⟩
  | some serving =>
    simp only
    cases numbered : q.number .control with
    | none => exact ⟨[], .quietly alike, ⟨rfl, rfl, rfl⟩, by simp⟩
    | some answer =>
      obtain ⟨sn, entity, r⟩ := answer
      refine ⟨_, .before (.quiet alike) (.before (.issueControl _ served numbered) (offer_chain
        ⟨.toHop serving .infrastructure, .control, sn, .transparent, _, [serving]⟩ ⟨rfl, rfl⟩ [])),
        tells_admitted _, by simp⟩

/-! ## Frames -/

theorem serveTurn_skip {node : NodeId} {key : EntityKey} {rest : List EntityKey} {budget : Nat}
    {buffers : TransmitBuffers} (nothing : ∀ b, buffers.get? key = some b → b.queue = []) :
    serveTurn node (key :: rest) (budget + 1) buffers = serveTurn node rest (budget + 1) buffers := by
  simp only [serveTurn]
  cases found : buffers.get? key with
  | none => rfl
  | some buffer => simp only [TransmitBuffer.pull, nothing buffer found, List.take_nil]

theorem serveTurn_serve {node : NodeId} {key : EntityKey} {rest : List EntityKey} {budget : Nat}
    {buffers : TransmitBuffers} {buffer : TransmitBuffer} {pdu : QueuedPdu} {later : List QueuedPdu}
    (found : buffers.get? key = some buffer) (queued : buffer.queue = pdu :: later) :
    serveTurn node (key :: rest) (budget + 1) buffers =
      (⟨pdu.bytes, node, key.node, pdu.recipients, key.lcid, buffer.mode, buffer.path⟩ ::
          (serveTurn node rest budget (buffers.insert key (buffer.pull 1).2)).1,
        (serveTurn node rest budget (buffers.insert key (buffer.pull 1).2)).2) := by
  simp only [serveTurn, found, TransmitBuffer.pull, queued, List.take_succ_cons, List.take_zero]

theorem serveTurn_chain (directory : Directory) (order : List EntityKey) (budget : Nat) (p : DataPlane) :
    Chain (· = directory) ⟨p, []⟩ ((serveTurn p.node order budget p.buffers).1.map .sent)
      ⟨{ p with buffers := (serveTurn p.node order budget p.buffers).2.2 }, []⟩ := by
  induction order generalizing budget p with
  | nil => exact .refl _
  | cons key rest ih =>
    cases budget with
    | zero => exact .refl _
    | succ budget =>
      by_cases nothing : ∀ b, p.buffers.get? key = some b → b.queue = []
      · rw [serveTurn_skip nothing]
        exact ih (budget + 1) p
      · simp only [Classical.not_forall] at nothing
        obtain ⟨buffer, found, some_queue⟩ := nothing
        obtain ⟨pdu, later, queued⟩ := List.exists_cons_of_ne_nil some_queue
        rw [serveTurn_serve found queued]
        exact (Chain.single (.serve found queued)).trans
          (ih budget { p with buffers := p.buffers.insert key (buffer.pull 1).2 })

theorem serve_chain (directory : Directory) (order : List EntityKey) (turns budget : Nat) (p : DataPlane) :
    Chain (· = directory) ⟨p, []⟩ ((serve p.node order turns budget p.buffers).1.map .sent)
      ⟨{ p with buffers := (serve p.node order turns budget p.buffers).2 }, []⟩ := by
  induction turns generalizing budget p with
  | zero => exact .refl _
  | succ turns ih =>
    have turn := serveTurn_chain directory order budget p
    rw [serve]
    split
    · rename_i left buffers served
      rw [served] at turn
      exact turn
    · rename_i frames left buffers some_frames served
      rw [served] at turn
      rw [List.map_append]
      exact turn.trans (ih left { p with buffers })

theorem transmit_leaves (p : DataPlane) (directory : Directory) (now : SimTime) (limit : Nat) :
    Leaves directory p (p.transmit now limit).2 [] [] (p.transmit now limit).1 := by
  simp only [transmit]
  have alike := alike_advance p now
  generalize p.advance now = q at alike ⊢
  split
  · exact ⟨[], .quietly alike, ⟨rfl, rfl, rfl⟩, by simp⟩
  · have served := serve_chain directory q.serviceOrder limit limit q
    refine ⟨_, .before (.quiet alike) (served.andThen (.quiet (by constructor <;> rfl))), ⟨?_, ?_, ?_⟩, by simp⟩
    · exact issuedOf_sent _
    · exact admittedOf_sent _
    · exact sentOf_sent _

theorem settle_chain (directory : Directory) (peers : List NodeId) (p : DataPlane) (timers : Timers) :
    Chain (· = directory) ⟨p, []⟩ ((p.settledAll directory timers peers).map .admitted)
      ⟨(peers.foldl (fun (p, timers) peer => p.reevaluate directory timers peer) (p, timers)).1, []⟩ := by
  induction peers generalizing p timers with
  | nil => exact .refl _
  | cons peer rest ih =>
    rw [settledAll, List.map_append, List.foldl_cons]
    exact (reevaluate_chain p directory timers peer []).trans (ih _ _)

/-! ## Frames of other nodes -/

theorem Inbound.alike {p q : DataPlane} (inbound : Inbound p q) : Alike p q := by
  obtain ⟨_, _, _, _, _, rfl⟩ := inbound
  exact ⟨rfl, rfl, rfl, rfl, rfl, rfl, rfl, rfl, rfl, rfl⟩

end DataPlane

/-! ## Moments and runs -/

/-- Whether all that buffers hold stays in them until it is sent. -/
def Stimulus.Keeps : Stimulus → Prop
  | .pathSwitch _ _ clear => clear = false
  | .peerDeparted _ | .departed => False
  | .packet _ _ | .control _ | .opportunity _ | .drainCheck _ | .arrival _ => True

theorem Tells.append {es fs : List Effect} {issued issued' : List (Packet × Lcid × UInt32)}
    {admitted admitted' : List Admission} {sent sent' : List Frame} (first : Tells es issued admitted sent)
    (second : Tells fs issued' admitted' sent') :
    Tells (es ++ fs) (issued ++ issued') (admitted ++ admitted') (sent ++ sent') where
  issued := by rw [issuedOf_append, first.issued, second.issued]
  admitted := by rw [admittedOf_append, first.admitted, second.admitted]
  sent := by rw [sentOf_append, first.sent, second.sent]

namespace DataPlane

/-- What happens at a moment is a chain of changes, which tells of the same packets, units and frames. -/
theorem react_chain (p : DataPlane) (m : Moment) :
    ∃ effects, Chain (· = m.directory) ⟨p, []⟩ effects ⟨(p.react m).plane, []⟩ ∧
      Tells effects ((p.react m).dispatched.filterMap Dispatch.numbered?) (p.admissions m) (p.react m).sent ∧
      (m.stimulus.Keeps → .dropped ∉ effects) := by
  obtain ⟨directory, timers, stimulus⟩ := m
  cases stimulus with
  | packet packet hint =>
    obtain ⟨effects, chain, tells, kept⟩ := submit_leaves p directory timers packet hint
    exact ⟨effects, chain, tells, fun _ => kept⟩
  | control payload =>
    obtain ⟨effects, chain, tells, kept⟩ := submitControl_leaves p directory timers payload
    exact ⟨effects, chain, tells, fun _ => kept⟩
  | opportunity limit =>
    obtain ⟨effects, chain, tells, kept⟩ := transmit_leaves p directory timers.now limit
    have settled := settle_chain directory (p.transmit timers.now limit).2.switches.switchingPeers
      (p.transmit timers.now limit).2 timers
    have both := tells.append (tells_admitted ((p.transmit timers.now limit).2.settledAll directory timers
      (p.transmit timers.now limit).2.switches.switchingPeers))
    simp only [List.append_nil, List.nil_append] at both
    exact ⟨_, chain.trans settled, both, by simp [kept]⟩
  | drainCheck peer =>
    exact ⟨_, .before (.quiet (alike_advance p timers.now)) (checkFired_chain _ directory timers peer []),
      tells_admitted _, by simp⟩
  | pathSwitch peer path clear =>
    cases clear with
    | false =>
      exact ⟨_, .before (.quiet (alike_advance p timers.now))
        ((start_chain _ directory timers peer path []).andThen (.quiet (inbound_replaceReceivers _ _ _ _).alike)),
        tells_admitted _, by simp⟩
    | true =>
      exact ⟨_, .before (.quiet (alike_advance p timers.now))
        ((start_clear_chain _ directory timers peer path []).andThen (.quiet (inbound_replaceReceivers _ _ _ _).alike)),
        ⟨issuedOf_admitted _, admittedOf_admitted _, sentOf_admitted _⟩, fun keeps => by cases keeps⟩
  | peerDeparted peer => exact ⟨_, .single (.leave peer), ⟨rfl, rfl, rfl⟩, fun keeps => keeps.elim⟩
  | departed => exact ⟨_, .single .clear, ⟨rfl, rfl, rfl⟩, fun keeps => keeps.elim⟩
  | arrival frame => exact ⟨[], .quietly (inbound_deliver p frame).alike, ⟨rfl, rfl, rfl⟩, by simp⟩

/-- A run is a chain of changes, which tells of the same packets, units and frames. -/
theorem run_chain (p : DataPlane) (ms : List Moment) :
    ∃ effects, Chain (fun d => ∃ m ∈ ms, d = m.directory) ⟨p, []⟩ effects ⟨p.after ms, []⟩ ∧
      Tells effects ((p.dispatched ms).filterMap Dispatch.numbered?) (p.admitted ms) (p.sent ms) ∧
      ((∀ m ∈ ms, m.stimulus.Keeps) → .dropped ∉ effects) := by
  induction ms generalizing p with
  | nil => exact ⟨[], .refl _, ⟨rfl, rfl, rfl⟩, by simp⟩
  | cons m rest ih =>
    obtain ⟨es, first, tells, kept⟩ := react_chain p m
    obtain ⟨fs, later, tells', kept'⟩ := ih (p.react m).plane
    refine ⟨es ++ fs, ?_, ?_, ?_⟩
    · refine (first.mono ?_).trans (later.mono ?_)
      · rintro d rfl
        exact ⟨m, List.mem_cons_self, rfl⟩
      · rintro d ⟨n, member, rfl⟩
        exact ⟨n, List.mem_cons_of_mem _ member, rfl⟩
    · have both := tells.append tells'
      rw [← List.filterMap_append] at both
      exact both
    · intro keeps
      have now := kept (keeps m List.mem_cons_self)
      have after := kept' fun n member => keeps n (List.mem_cons_of_mem _ member)
      simp [now, after]

end DataPlane
end Sidelink
