import Sidelink.Plane.Settings
import Sidelink.Position
import Sidelink.Scenario.Flow

/-!
Scenarios: the nodes of a network, the flows between them and the switches that are planned, together with the
settings that all nodes share and those of the run. A scenario is coherent if everything in it that names a node
names one of its nodes, and its periods are positive; `fault?` tells the first thing that is wrong.
-/
namespace Sidelink

/-- The parameters of a run. -/
structure RunSettings where
  durationMs : Nat
  /-- The seed of the random starts of flows. -/
  seed : Nat
  /-- The time between two opportunities to transmit. -/
  intervalMs : Nat
  /-- How many frames a node may send at one opportunity. -/
  framesPerTurn : Nat
  /-- The time that a frame is on its way, for each hop. -/
  latencyMs : Nat
  deriving DecidableEq, Inhabited

/-- Ten seconds, with an opportunity every millisecond. -/
def RunSettings.default : RunSettings := ⟨10000, 1, 1, 4, 2⟩

/-- A node of a scenario. -/
structure ScenarioNode where
  id : NodeId
  role : Role
  address : Option Ipv4
  serving : Option NodeId
  position : Position
  /-- The nodes that it reaches directly, and that reach it. -/
  peers : List NodeId
  deriving BEq, Inhabited

/-- The traffic between two nodes is to switch to a path, seen from both of them. -/
structure PlannedSwitch where
  atMs : Nat
  first : NodeId
  second : NodeId
  path : Path
  /-- Whether queued data units are dropped instead of drained. -/
  clear : Bool
  deriving DecidableEq, Inhabited

structure Scenario where
  name : String
  run : RunSettings
  plane : PlaneSettings
  nodes : List ScenarioNode
  flows : List TrafficFlow
  switches : List PlannedSwitch
  logLevel : Option String
  deriving BEq, Inhabited

/-- What is wrong with a scenario. -/
inductive ScenarioError where
  | duplicateNode (id : NodeId)
  | unknownServing (node serving : NodeId)
  | unknownPeer (node peer : NodeId)
  | unknownSource (source : NodeId)
  | zeroPeriod (source : NodeId)
  | destination (error : DestinationError)
  | unknownSwitch (first second : NodeId)
  | zeroInterval
  deriving DecidableEq

namespace ScenarioError

def message : ScenarioError → String
  | .duplicateNode id => s!"Duplicate node id {id.text}"
  | .unknownServing node serving => s!"Node {node.text} served by unknown node {serving.text}"
  | .unknownPeer node peer => s!"Node {node.text} lists unknown direct peer {peer.text}"
  | .unknownSource source => s!"Flow from unknown node {source.text}"
  | .zeroPeriod source => s!"Flow from node {source.text} has a zero period"
  | .destination error => error.message
  | .unknownSwitch first second => s!"Mode switch between unknown nodes {first.text} and {second.text}"
  | .zeroInterval => "tti_ms must be positive"

def causes : ScenarioError → List String
  | .destination error => error.causes
  | _ => []

end ScenarioError

namespace Scenario

/-- The first id that an earlier one in a list repeats. -/
def firstDuplicate (seen : List NodeId) : List NodeId → Option NodeId
  | [] => none
  | id :: rest => if id ∈ seen then some id else firstDuplicate (id :: seen) rest

/-- A node that is named but not in the scenario: the serving node comes before the peers. -/
def nodeFault? (ids : List NodeId) (node : ScenarioNode) : Option ScenarioError :=
  let serving := (node.serving.filter (· ∉ ids)).map (.unknownServing node.id)
  let peer := (node.peers.find? (· ∉ ids)).map (.unknownPeer node.id)
  serving.or peer

def flowFault? (ids : List NodeId) (flow : TrafficFlow) : Option ScenarioError :=
  if flow.source ∉ ids then some (.unknownSource flow.source)
  else if flow.periodMs = 0 then some (.zeroPeriod flow.source)
  else
    match Destination.read flow.destination with
    | .error error => some (.destination error)
    | .ok _ => none

def switchFault? (ids : List NodeId) (s : PlannedSwitch) : Option ScenarioError :=
  if s.first ∉ ids || s.second ∉ ids then some (.unknownSwitch s.first s.second) else none

/-- The first thing that is wrong with a scenario: ids are looked at first, then the nodes, the flows, the switches
and the run, each in order. -/
def fault? (s : Scenario) : Option ScenarioError :=
  let ids := s.nodes.map (·.id)
  ((firstDuplicate [] ids).map .duplicateNode).or <|
    (s.nodes.findSome? (nodeFault? ids)).or <|
    (s.flows.findSome? (flowFault? ids)).or <|
    (s.switches.findSome? (switchFault? ids)).or <|
    if s.run.intervalMs = 0 then some .zeroInterval else none

end Scenario
end Sidelink
