import Sidelink.Flow.Table
import Sidelink.Link.Reassembly
import Sidelink.Plane.Settings
import Sidelink.Route

/-!
The data plane of a node: its connections with their numbering and compression, the transmit buffers and receivers
of each, the peers it reaches directly and the switches of their paths. Here are its parts, its counters and the
operations that need no packet: the clock, and the departure of a peer or of the node itself.
-/
namespace Sidelink

/-- What happened at a node so far. -/
structure PlaneCounters where
  submitted : Nat
  queued : Nat
  deferred : Nat
  routingDrops : Nat
  overflowDrops : Nat
  sent : Nat
  received : Nat
  delivered : Nat
  receiveErrors : Nat
  switchesCompleted : Nat
  deriving DecidableEq, Inhabited

/-- The counters of a node together with those of its parts. -/
structure PlaneSummary where
  flows : Nat
  counters : PlaneCounters
  receiveDrops : Nat
  discardedBySwitch : Nat
  deriving DecidableEq, Inhabited

/-- The counters of a summary by name, in the order of a report. -/
def PlaneSummary.entries (s : PlaneSummary) : List (String × Nat) :=
  [("flows", s.flows), ("submitted", s.counters.submitted), ("queued", s.counters.queued),
    ("deferred", s.counters.deferred), ("routing_drops", s.counters.routingDrops),
    ("overflow_drops", s.counters.overflowDrops), ("pdus_sent", s.counters.sent),
    ("pdus_received", s.counters.received), ("delivered", s.counters.delivered), ("rx_dropped", s.receiveDrops),
    ("rx_errors", s.counters.receiveErrors), ("switches_completed", s.counters.switchesCompleted),
    ("discarded_by_switch", s.discardedBySwitch)]

structure DataPlane where
  node : NodeId
  role : Role
  settings : PlaneSettings
  flows : FlowTable
  /-- The convergence layer of each connection of this node. -/
  convergence : SortedMap Lcid ConvergenceEntity
  /-- The convergence layer of each connection of another node. -/
  remote : SortedMap EntityKey ConvergenceEntity
  buffers : TransmitBuffers
  receivers : Receivers
  links : PeerLinks
  switches : PathSwitches
  counters : PlaneCounters
  /-- The data units dropped by receivers that are gone. -/
  retiredDrops : Nat
  /-- How many opportunities to transmit there were; the buffer served first changes with it. -/
  rotation : Nat
  now : SimTime
  deriving Inhabited

namespace DataPlane

/-- The data plane of a node, or the fault of its configuration. -/
def new (node : NodeId) (role : Role) (settings : PlaneSettings) : Except Fault DataPlane :=
  match settings.fault? with
  | some fault => .error fault
  | none => .ok {
      node
      role
      settings
      flows := .empty
      convergence := .empty
      remote := .empty
      buffers := .empty
      receivers := .empty
      links := .empty
      switches := .new settings.link.queueCapacity settings.drainInterval
      counters := ⟨0, 0, 0, 0, 0, 0, 0, 0, 0, 0⟩
      retiredDrops := 0
      rotation := 0
      now := 0 }

/-- Moves the clock forward; it never goes back. -/
def advance (p : DataPlane) (now : SimTime) : DataPlane := if now < p.now then p else { p with now }

/-- Changes the counters. -/
def count (p : DataPlane) (f : PlaneCounters → PlaneCounters) : DataPlane := { p with counters := f p.counters }

/-- What the node knows when it looks for a route. -/
def view (p : DataPlane) (directory : Directory) : RoutingView := ⟨p.node, directory, p.switches, p.settings.radius⟩

def summary (p : DataPlane) : PlaneSummary :=
  ⟨p.flows.size, p.counters, p.retiredDrops + Receivers.drops p.receivers, p.switches.counters.discarded⟩

/-- Whether a buffer gave no answer to a unit that it was offered. The program stops there, and what the node does
afterwards is of no account. -/
def stopped (p : DataPlane) : Bool := p.buffers.entries.any fun x => x.2.counters.uncounted ≠ 0

/-- Whether a peer switches and still has data units to drain. -/
def isDraining (p : DataPlane) (peer : NodeId) : Bool := p.switches.isDraining p.links p.buffers peer

/-! ## Departures -/

/-- Whether the departure of a node concerns a queue: at a base station only the queues of that node, elsewhere
all of them. -/
def concerns (p : DataPlane) (departed : NodeId) (key : EntityKey) : Bool :=
  p.role ≠ .baseStation || key.node = departed

/-- Drops the queues exchanged with a node that left. Queues of groups stay, and so do the connections. -/
def peerDeparted (p : DataPlane) (departed : NodeId) : DataPlane :=
  let leaves (key : EntityKey) (path : Path) : Bool := path ≠ .multicast && p.concerns departed key
  let buffers := p.buffers.filter (fun key b => !leaves key b.path)
  let gone := p.receivers.filter (fun key r => leaves key r.path)
  { p with
    buffers
    receivers := p.receivers.filter (fun key r => !leaves key r.path)
    remote := p.remote.filter (fun key _ => !gone.contains key)
    retiredDrops := p.retiredDrops + Receivers.drops gone
    links := p.links.retain buffers.contains }

/-- Drops all connections and queues. -/
def departed (p : DataPlane) : DataPlane :=
  { p with
    retiredDrops := p.retiredDrops + Receivers.drops p.receivers
    flows := p.flows.clear
    convergence := .empty
    remote := .empty
    buffers := .empty
    receivers := .empty
    links := .empty
    switches := p.switches.clear }

end DataPlane
end Sidelink
