import Sidelink.Calendar
import Sidelink.Plane.Events
import Sidelink.Scenario.Settings

/-!
The state of a simulation: the calendar of all that is to happen, one station for each node, the directory that all
of them look into, and tallies of what was sent and received. Frames that a station sends are on their way for one
latency; drain checks that it asks for become events, under the very numbers that it was promised.
-/
namespace Sidelink

namespace Simulation

/-- What happens in a simulation. -/
inductive Event where
  /-- The next packet of a flow is sent. -/
  | packet (flow : Nat)
  /-- Every node may transmit. -/
  | opportunity
  | arrival (node : NodeId) (frame : Frame)
  | drainCheck (node peer : NodeId)
  | pathSwitch (node peer : NodeId) (path : Path) (clear : Bool)
  deriving Inhabited

/-- What a node received, by the path of the packets, and how many frames it passed on. -/
structure Reception where
  packets : Nat
  octets : Nat
  relayed : Nat
  direct : Nat
  infrastructure : Nat
  multicast : Nat
  deriving DecidableEq, Inhabited

namespace Reception

def empty : Reception := ⟨0, 0, 0, 0, 0, 0⟩

/-- Counts a packet. -/
def add (r : Reception) (sdu : DeliveredSdu) : Reception :=
  let r := { r with packets := r.packets + 1, octets := r.octets + sdu.payload.length }
  match sdu.path with
  | .direct => { r with direct := r.direct + 1 }
  | .infrastructure => { r with infrastructure := r.infrastructure + 1 }
  | .multicast => { r with multicast := r.multicast + 1 }

end Reception

/-- What became of the packets of a flow. -/
structure FlowTally where
  sent : Nat
  queued : Nat
  deferred : Nat
  dropped : Nat
  deriving DecidableEq, Inhabited

namespace FlowTally

def empty : FlowTally := ⟨0, 0, 0, 0⟩

/-- Counts a packet. -/
def add (t : FlowTally) (outcome : Outcome) : FlowTally :=
  let t := { t with sent := t.sent + 1 }
  match outcome with
  | .queued => { t with queued := t.queued + 1 }
  | .deferred => { t with deferred := t.deferred + 1 }
  | .dropped _ | .unanswered => { t with dropped := t.dropped + 1 }

end FlowTally

/-- A node at work. -/
structure Station where
  plane : DataPlane
  reception : Reception
  deriving Inhabited

end Simulation

open Simulation in
structure Simulation where
  scenario : Scenario
  directory : Directory
  stations : SortedMap NodeId Station
  calendar : Calendar Event
  /-- The tallies of the flows, in the order of the flows. -/
  tallies : List FlowTally
  /-- How many events happened. -/
  processed : Nat
  deriving Inhabited

/-- Why a simulation cannot be set up, or cannot go on. -/
inductive SimulationError where
  | scenario (error : ScenarioError)
  | directory (error : DirectoryError)
  /-- The configuration of a node has a fault. -/
  | node (id : NodeId) (fault : Fault)
  | past (error : PastEvent)
  | flow (error : FlowError)
  /-- The source of a flow is no node. -/
  | noSource (id : NodeId)
  /-- A packet cannot be taken. -/
  | submission (node : NodeId) (hint : String) (error : SubmitError)
  /-- A node received a frame and cannot go on. -/
  | reception (node : NodeId) (fault : Fault)
  /-- A buffer of a node gave no answer to a unit. -/
  | stopped (node : NodeId)
  /-- The counter of events is at its end. -/
  | tooManyEvents
  deriving DecidableEq

def SubmitError.message : SubmitError → String
  | .fault cause => cause.message
  | .numbersExhausted => "Sequence numbers exhausted"

namespace SimulationError

def message : SimulationError → String
  | .scenario error => error.message
  | .directory error => error.message
  | .node id _ => s!"Cannot build node {id.text}"
  | .past error => error.message
  | .flow error => error.message
  | .noSource id => s!"Flow source {id.text} has no multiplexer"
  | .submission id hint _ => s!"Node {id.text} failed to submit '{hint}' traffic"
  | .reception id _ => s!"Node {id.text} failed"
  | .stopped id => s!"Node {id.text} cannot count the segments of a packet"
  | .tooManyEvents => "Too many events"

def causes : SimulationError → List String
  | .scenario error => error.causes
  | .node _ fault => [fault.message]
  | .flow error => error.causes
  | .submission _ _ error => [error.message]
  | .reception _ fault => [fault.message]
  | .directory _ | .past _ | .noSource _ | .stopped _ | .tooManyEvents => []

end SimulationError

namespace Simulation

/-! ## Views -/

/-- The instant after which nothing happens any more. -/
def horizon (s : Simulation) : SimTime := .ofMillis s.scenario.run.durationMs

/-- The time that a frame is on its way, in microseconds. -/
def latency (s : Simulation) : Nat := s.scenario.run.latencyMs * 1000

/-- The first node that stopped, if one did. -/
def stopped? (s : Simulation) : Option NodeId := (s.stations.entries.find? fun x => x.2.plane.stopped).map (·.1)

/-- The clock, and the number that the next event gets. -/
def timers (s : Simulation) : Timers := ⟨s.calendar.now, s.calendar.nextId, []⟩

/-! ## Changes -/

/-- Enters an event, unless its instant has passed. -/
def schedule (s : Simulation) (time : SimTime) (event : Event) : Except SimulationError Simulation :=
  match s.calendar.schedule time event with
  | .ok (_, calendar) => .ok { s with calendar }
  | .error error => .error (.past error)

/-- The nodes that a frame on the air reaches first. -/
def firstStops (frame : Frame) : List NodeId :=
  match frame.envelope.path with
  | .multicast => frame.envelope.recipients
  | .direct | .infrastructure => [frame.envelope.nextHop]

/-- Puts a frame on its way. -/
def launch (s : Simulation) (frame : Frame) : Simulation :=
  let time := s.calendar.now.plusMicros s.latency
  { s with
    calendar := (firstStops frame).foldl (fun c node => c.enterSoon time (.arrival node frame)) s.calendar }

/-- Carries out what a node asks of the timekeeper. -/
def carryOut (node : NodeId) (calendar : Calendar Event) : TimerRequest → Calendar Event
  | .start _ time peer => calendar.enterSoon time (.drainCheck node peer)
  | .cancel id => (calendar.cancel id).2

/-- Takes over a node's state, and carries out its requests. -/
def keep (s : Simulation) (node : NodeId) (plane : DataPlane) (timers : Timers) : Simulation :=
  { s with
    stations := s.stations.modify node (fun station => { station with plane })
    calendar := timers.requests.foldl (carryOut node) s.calendar }

/-- Counts packets that a node received. -/
def record (s : Simulation) (node : NodeId) (sdus : List DeliveredSdu) : Simulation :=
  { s with
    stations := s.stations.modify node (fun station =>
      { station with reception := sdus.foldl Reception.add station.reception }) }

end Simulation
end Sidelink
