import Sidelink.Simulation.State

/-!
Running a simulation: as long as the next event is not after the horizon, it happens. A packet is handed to its
source, which sends the next one a period later; at an opportunity every node transmits, in order of the ids; a frame
that arrives at one of its recipients is delivered, and a node that it is not for passes it on to the recipients, if
it came through the infrastructure. A run stops where a buffer of a node gives no answer to a unit. Runs are bounded by
the 64 bits of the event counter (`eventLimit`).
-/
namespace Sidelink.Simulation

/-! ## Events -/

/-- Hands the next packet of a flow to its source. -/
def sendPacket (s : Simulation) (index : Nat) (flow : TrafficFlow) : Except SimulationError Simulation := do
  let endpoints ← (flow.endpoints ((s.directory.record? flow.source).bind (·.address))).mapError .flow
  let headers := match endpoints with
    | .ip _ _ => Headers.udp
    | .token _ _ => Headers.bare
  match s.stations.get? flow.source with
  | none => throw (.noSource flow.source)
  | some station =>
    let packet : Packet := ⟨endpoints, headers, List.replicate flow.size 0⟩
    let submission := station.plane.submit s.directory s.timers packet flow.hint
    match submission.result with
    | .error error => throw (.submission flow.source flow.hint error)
    | .ok dispatch =>
      let s := s.keep flow.source submission.plane submission.timers
      let s := { s with tallies := s.tallies.modify index (·.add dispatch.outcome) }
      let next := s.calendar.now.plusMillis flow.periodMs
      let stop := (flow.stopMs.map SimTime.ofMillis).getD s.horizon
      if next ≤ stop then s.schedule next (.packet index) else return s

/-- Lets a node transmit. -/
def transmit (s : Simulation) (node : NodeId) : Simulation :=
  match s.stations.get? node with
  | none => s
  | some station =>
    let (frames, plane) := station.plane.transmit s.calendar.now s.scenario.run.framesPerTurn
    let s := frames.foldl launch s
    let (plane, timers) := plane.settle s.directory s.timers
    s.keep node plane timers

/-- Lets all nodes transmit, and enters the next opportunity. -/
def transmitAll (s : Simulation) : Except SimulationError Simulation :=
  let s := s.stations.keys.foldl transmit s
  s.schedule (s.calendar.now.plusMillis s.scenario.run.intervalMs) .opportunity

/-- Passes a frame on to its recipients, if it came through the infrastructure. -/
def relay (s : Simulation) (node : NodeId) (frame : Frame) : Except SimulationError Simulation :=
  match frame.envelope.path with
  | .infrastructure => do
    let time := s.calendar.now.plusMicros s.latency
    let s ← frame.envelope.recipients.foldlM (fun s recipient =>
      s.schedule time (.arrival recipient { frame with envelope := { frame.envelope with nextHop := recipient } })) s
    return { s with
      stations := s.stations.modify node (fun station =>
        { station with reception := { station.reception with relayed := station.reception.relayed + 1 } }) }
  | .direct | .multicast => .ok s

/-- Delivers a frame to one of its recipients. What a node cannot read is dropped. -/
def deliver (s : Simulation) (node : NodeId) (frame : Frame) : Except SimulationError Simulation :=
  match s.stations.get? node with
  | none => .ok s
  | some station =>
    match (station.plane.advance s.calendar.now).deliver frame with
    | (.ok sdu, plane) => .ok ((s.keep node plane s.timers).record node sdu.toList)
    | (.error fault, plane) =>
      if fault.isFatal then .error (.reception node fault) else .ok (s.keep node plane s.timers)

/-- What an event does. -/
def perform (s : Simulation) : Event → Except SimulationError Simulation
  | .packet index =>
    match s.scenario.flows[index]? with
    | some flow => s.sendPacket index flow
    | none => .ok s
  | .opportunity => s.transmitAll
  | .arrival node frame =>
    if node ∈ frame.envelope.recipients then s.deliver node frame else s.relay node frame
  | .drainCheck node peer =>
    match s.stations.get? node with
    | none => .ok s
    | some station =>
      let (plane, timers) := station.plane.drainCheck s.directory s.timers peer
      .ok (s.keep node plane timers)
  | .pathSwitch node peer path clear =>
    match s.stations.get? node with
    | none => .ok s
    | some station =>
      let (sdus, plane, timers) := station.plane.switchPath s.directory s.timers peer path clear
      .ok ((s.keep node plane timers).record node sdus)

/-- Lets an event happen. If a node stops, so does the run. -/
def handle (s : Simulation) (event : Event) : Except SimulationError Simulation := do
  let s ← s.perform event
  match s.stopped? with
  | none => return s
  | some node => throw (.stopped node)

/-! ## Runs -/

/-- The next event, if it is not after the horizon, and the simulation without it. -/
def next? (s : Simulation) : Option (Event × Simulation) :=
  match s.calendar.pop with
  | none => none
  | some (entry, calendar) =>
    if s.horizon < entry.time then none
    else some (entry.event, { s with calendar, processed := s.processed + 1 })

/-- Lets events happen, at most a number of them. The result is a finished simulation, or none if more events were
due. -/
def runFor : Nat → Simulation → Except SimulationError (Option Simulation)
  | 0, s => .ok (if s.next?.isNone then some s else none)
  | count + 1, s =>
    match s.next? with
    | none => .ok (some s)
    | some (event, s) => do runFor count (← s.handle event)

/-- How many events a run may have: as many as 64 bits can count. -/
def eventLimit : Nat := 18446744073709551615

/-- Runs a simulation to its end. -/
def run (s : Simulation) : Except SimulationError Simulation := do
  match ← s.runFor eventLimit with
  | some s => return s
  | none => throw .tooManyEvents

end Sidelink.Simulation
