import Sidelink.Random.Stream
import Sidelink.Simulation.State

/-!
Setting a simulation up: a coherent scenario's nodes enter the directory and become stations, and the first packet
of each flow, the first opportunity to transmit and the planned switches enter the calendar.
-/
namespace Sidelink.Simulation

/-- What the directory knows of a node. -/
def recordOf (node : ScenarioNode) : NodeRecord where
  id := node.id
  kind := match node.role with
    | .baseStation => .baseStation
    | .mobile | .peerDirect => .terminal
  address := node.address
  serving := node.serving
  position := some node.position

/-- The directory of a scenario's nodes. -/
def directoryOf (nodes : List ScenarioNode) : Except DirectoryError Directory := do
  let directory ← nodes.foldlM (fun d node => d.register (recordOf node)) Directory.empty
  return nodes.foldl (fun d node => node.peers.foldl (fun d peer => d.connect node.id peer) d) directory

/-- The stations of a scenario's nodes, in the order of the scenario up to the first fault. -/
def stationsOf (settings : PlaneSettings) (nodes : List ScenarioNode) :
    Except SimulationError (SortedMap NodeId Station) :=
  nodes.foldlM (fun stations node =>
    match DataPlane.new node.id node.role settings with
    | .ok plane => .ok (stations.insert node.id ⟨plane, .empty⟩)
    | .error fault => .error (.node node.id fault)) .empty

/-- A whole millisecond within the first second, from a number between 0 and 1. -/
def randomStart (x : Float) : SimTime := .truncateToMillis (x * 1000000).toUInt64.toNat

/-- The instants of the flows' first packets. Random numbers are used up by those flows only that have no start. -/
def starts : List TrafficFlow → List Float → List SimTime
  | [], _ => []
  | flow :: rest, numbers =>
    match flow.startMs, numbers with
    | some ms, numbers => .ofMillis ms :: starts rest numbers
    | none, x :: numbers => randomStart x :: starts rest numbers
    | none, [] => 0 :: starts rest []

/-- Enters the first packets of flows, numbered from an index on. -/
def scheduleFlows (s : Simulation) : Nat → List SimTime → Except SimulationError Simulation
  | _, [] => .ok s
  | index, start :: rest => do scheduleFlows (← s.schedule start (.packet index)) (index + 1) rest

/-- Enters a planned switch for both of its nodes. -/
def scheduleSwitch (s : Simulation) (w : PlannedSwitch) : Except SimulationError Simulation := do
  let s ← s.schedule (.ofMillis w.atMs) (.pathSwitch w.first w.second w.path w.clear)
  s.schedule (.ofMillis w.atMs) (.pathSwitch w.second w.first w.path w.clear)

/-- A scenario that is ready to run. -/
def ofScenario (scenario : Scenario) : Except SimulationError Simulation := do
  if let some error := scenario.fault? then throw (.scenario error)
  let directory ← (directoryOf scenario.nodes).mapError .directory
  let stations ← stationsOf scenario.plane scenario.nodes
  let s : Simulation :=
    { scenario
      directory
      stations
      calendar := .empty
      tallies := scenario.flows.map (fun _ => FlowTally.empty)
      processed := 0 }
  let numbers := Random.numbers scenario.run.seed (scenario.flows.countP (·.startMs.isNone))
  let s ← s.scheduleFlows 0 (starts scenario.flows numbers)
  let s ← s.schedule 0 .opportunity
  scenario.switches.foldlM scheduleSwitch s

end Sidelink.Simulation
