import Sidelink.Proofs.Onward
import Sidelink.Simulation.Run

/-!
What an event does to a simulation. It keeps the simulation in order, and all that it does to the calendar is told by
what follows it (`Simulation.sequel`): these events are entered, drain checks are asked for one interval later or
withdrawn, and everything else goes on waiting (`Simulation.onward_handle`). A run is such events, one after the other,
to its end or to a failure (`Simulation.run_cases`).
-/
namespace Sidelink
open Simulation (Event)

/-! ## Steps that may fail -/

section Steps
variable {α β ε : Type}

theorem ok_of_bind {x : Except ε α} {f : α → Except ε β} {b : β} (done : x >>= f = .ok b) :
    ∃ a, x = .ok a ∧ f a = .ok b := by
  cases x with
  | error error => cases done
  | ok a => exact ⟨a, rfl, done⟩

theorem ok_of_map {x : Except ε α} {f : α → β} {b : β} (done : x.map f = .ok b) : ∃ a, x = .ok a ∧ f a = b := by
  cases x with
  | error error => cases done
  | ok a => exact ⟨a, rfl, Except.ok.inj done⟩

variable {step : β → α → Except ε β} {l : List α} {b c : β}

/-- What holds at the start, and with each step of one more element, holds of all elements in the end. -/
theorem holds_of_foldlM {P : List α → β → Prop} (start : P [] b)
    (establishes : ∀ {before x b c}, P before b → step b x = .ok c → P (before ++ [x]) c)
    (done : l.foldlM step b = .ok c) : P l c := by
  have onward (rest : List α) {before : List α} {b : β} (holds : P before b) (done : rest.foldlM step b = .ok c) :
      P (before ++ rest) c := by
    induction rest generalizing b before with
    | nil =>
      obtain rfl := Except.ok.inj done
      exact (List.append_nil before).symm ▸ holds
    | cons x rest ih =>
      rw [List.foldlM_cons] at done
      obtain ⟨next, first, later⟩ := ok_of_bind done
      exact List.append_cons before x rest ▸ ih (establishes holds first) later
  exact onward l start done

/-- The steps fail as one of them does. -/
theorem error_of_foldlM {error : ε} (failed : l.foldlM step b = .error error) : ∃ b x, step b x = .error error := by
  induction l generalizing b with
  | nil => cases failed
  | cons x rest ih =>
    rw [List.foldlM_cons] at failed
    cases first : step b x with
    | error e =>
      rw [first] at failed
      exact ⟨b, x, first.trans failed⟩
    | ok next =>
      rw [first] at failed
      exact ih failed

end Steps

/-- A frame as it is passed on to a node. -/
def Frame.via (f : Frame) (hop : NodeId) : Frame := { f with envelope := { f.envelope with nextHop := hop } }

/-- The packet that a flow sends, or why there is none. -/
def Directory.packetOf (d : Directory) (flow : TrafficFlow) : Except FlowError Packet :=
  (flow.endpoints ((d.record? flow.source).bind (·.address))).map fun endpoints =>
    let headers := match endpoints with
      | .ip _ _ => Headers.udp
      | .token _ _ => Headers.bare
    ⟨endpoints, headers, List.replicate flow.size 0⟩

namespace Simulation
variable {s t u : Simulation} {entered more : Multiset (SimTime × Event)}

/-! ## Frames that are sent -/

/-- When a frame arrives that is put on its way, never before now. -/
def arrivalTime (s : Simulation) : SimTime := max (s.calendar.now.plusMicros s.latency) s.calendar.now

/-- The events that follow a frame that is put on its way. -/
def headed (s : Simulation) (frame : Frame) : List (SimTime × Event) :=
  (firstStops frame).map fun node => (s.arrivalTime, .arrival node frame)

/-- The frames that a station transmits. -/
def transmitted (s : Simulation) (node : NodeId) : List Frame :=
  match s.stations.get? node with
  | none => []
  | some station => (station.plane.transmit s.calendar.now s.scenario.run.framesPerTurn).1

/-- The frames that stations transmit one after the other. -/
def transmittedAll (s : Simulation) : List NodeId → List Frame
  | [] => []
  | node :: rest => s.transmitted node ++ (s.transmit node).transmittedAll rest

theorem horizon_congr (same : t.scenario = s.scenario) : t.horizon = s.horizon := by rw [horizon, horizon, same]

theorem latency_congr (same : t.scenario = s.scenario) : t.latency = s.latency := by rw [latency, latency, same]

theorem arrivalTime_eq (onward : s.Onward entered t) : t.arrivalTime = s.arrivalTime := by
  rw [arrivalTime, arrivalTime, latency_congr onward.scenario, onward.now]

theorem onward_launch (sound : s.Sound) {frame : Frame}
    (known : ∀ recipient ∈ frame.envelope.recipients, s.directory.Knows recipient) :
    s.Onward ↑(s.headed frame) (s.launch frame) := by
  have stops (nodes : List NodeId) {entered : Multiset (SimTime × Event)} (t : Simulation)
      (onward : s.Onward entered t) :
      s.Onward (entered + ↑(nodes.map fun node => (s.arrivalTime, Event.arrival node frame)))
        { t with
          calendar := nodes.foldl (fun c node => c.enterSoon (s.calendar.now.plusMicros s.latency)
            (.arrival node frame)) t.calendar } := by
    induction nodes generalizing t entered with
    | nil => simpa using onward
    | cons node rest ih =>
      have next := onward_enterSoon onward.sound (s.calendar.now.plusMicros s.latency) (.arrival node frame)
        (by rintro ⟨_, _, ⟨⟩⟩) (onward.directory ▸ known)
      rw [onward.now] at next
      have later := ih _ (onward.trans next)
      rw [add_assoc, Multiset.singleton_add, Multiset.cons_coe] at later
      exact later
  have all := stops (firstStops frame) s (.refl sound)
  rw [zero_add] at all
  exact all

theorem onward_launchAll (sound : s.Sound) {frames : List Frame}
    (known : ∀ frame ∈ frames, ∀ recipient ∈ frame.envelope.recipients, s.directory.Knows recipient) :
    s.Onward ↑(frames.flatMap s.headed) (frames.foldl launch s) := by
  induction frames generalizing s with
  | nil => exact .refl sound
  | cons frame rest ih =>
    have first := onward_launch sound (known frame List.mem_cons_self)
    have later := ih first.sound fun f member => first.directory ▸ known f (List.mem_cons_of_mem _ member)
    have same : (s.launch frame).headed = s.headed := funext fun f => by simp only [headed, arrivalTime_eq first]
    rw [same] at later
    rw [List.flatMap_cons, ← Multiset.coe_add]
    exact first.trans later

/-- Putting frames on their way changes the calendar only, and not its clock. -/
theorem launchAll_spec (s : Simulation) (frames : List Frame) :
    ∃ calendar, frames.foldl launch s = { s with calendar } ∧ calendar.now = s.calendar.now := by
  induction frames generalizing s with
  | nil => exact ⟨s.calendar, rfl, rfl⟩
  | cons frame rest ih =>
    obtain ⟨calendar, launched, now⟩ := ih (s.launch frame)
    have first : (s.launch frame).calendar.now = s.calendar.now :=
      List.foldlRecOn (motive := fun c : Calendar Event => c.now = s.calendar.now) (firstStops frame) _ rfl
        fun _ now _ _ => now
    exact ⟨calendar, launched, now.trans first⟩

/-- A station that transmits deals with an opportunity, once its frames are on their way. -/
theorem transmit_of_station {node : NodeId} {station : Station} (found : s.stations.get? node = some station) :
    let launched := (s.transmitted node).foldl launch s
    let m : Moment := ⟨s.directory, launched.timers, .opportunity s.scenario.run.framesPerTurn⟩
    s.transmitted node = (station.plane.react m).sent ∧
      s.transmit node = launched.keep node (station.plane.react m).plane (station.plane.asked m) := by
  intro launched m
  have frames : s.transmitted node =
      (station.plane.transmit s.calendar.now s.scenario.run.framesPerTurn).1 := by rw [transmitted, found]
  obtain ⟨calendar, changed, now⟩ := s.launchAll_spec (s.transmitted node)
  have directory : launched.directory = s.directory := by rw [show launched = _ from changed]
  have now : m.timers.now = s.calendar.now := (congrArg (·.calendar.now) changed).trans now
  refine ⟨frames.trans (by rw [DataPlane.react, now]), ?_⟩
  simp only [transmit, found, DataPlane.react, DataPlane.asked, now]
  rw [← frames]
  exact congrArg (fun d => launched.keep node (DataPlane.settle _ d launched.timers).1
    (DataPlane.settle _ d launched.timers).2) directory

/-- A station transmits, and looks at its switches. -/
theorem onward_transmit (sound : s.Sound) (node : NodeId) :
    s.Onward ↑((s.transmitted node).flatMap s.headed) (s.transmit node) ∧
      ∀ frame ∈ s.transmitted node, frame.Addressed s.directory := by
  cases found : s.stations.get? node with
  | none =>
    simp only [transmitted, transmit, found]
    exact ⟨.refl sound, fun frame member => by cases member⟩
  | some station =>
    obtain ⟨sent, transmitted⟩ := transmit_of_station found
    obtain ⟨calendar, changed, -⟩ := s.launchAll_spec (s.transmitted node)
    have plane : s.plane? node = some station.plane := by rw [plane?, found]; rfl
    have addressed : ∀ frame ∈ s.transmitted node, frame.Addressed s.directory := fun frame member =>
      (DataPlane.addressed_react sound.closed (sound.addressed plane)).2 frame (sent ▸ member)
    have launched := onward_launchAll sound fun frame member => (addressed frame member).known
    have after : ((s.transmitted node).foldl launch s).plane? node = some station.plane := by
      rw [changed]
      exact plane
    have kept := onward_react launched.sound after (.opportunity s.scenario.run.framesPerTurn) (by simp) (by simp)
    rw [launched.directory] at kept
    rw [transmitted, ← add_zero (Multiset.ofList _)]
    exact ⟨launched.trans kept, addressed⟩

theorem onward_transmitFrom (sound : s.Sound) (nodes : List NodeId) :
    s.Onward ↑((s.transmittedAll nodes).flatMap s.headed) (nodes.foldl transmit s) ∧
      ∀ frame ∈ s.transmittedAll nodes, frame.Addressed s.directory := by
  induction nodes generalizing s with
  | nil => exact ⟨.refl sound, fun frame member => by cases member⟩
  | cons node rest ih =>
    obtain ⟨first, addressed⟩ := onward_transmit sound node
    obtain ⟨later, addressed'⟩ := ih first.sound
    have same : (s.transmit node).headed = s.headed := funext fun f => by simp only [headed, arrivalTime_eq first]
    rw [same] at later
    refine ⟨?_, fun frame member => ?_⟩
    · rw [transmittedAll, List.flatMap_append, ← Multiset.coe_add]
      exact first.trans later
    · rcases List.mem_append.1 member with here | there
      · exact addressed frame here
      · exact first.directory ▸ addressed' frame there

/-! ## What follows an event -/

/-- The next packet of a flow, unless the flow has stopped by then. -/
def nextPacket (s : Simulation) (index : Nat) (flow : TrafficFlow) : List (SimTime × Event) :=
  let next := s.calendar.now.plusMillis flow.periodMs
  if next ≤ (flow.stopMs.map SimTime.ofMillis).getD s.horizon then [(next, .packet index)] else []

theorem packet_of_nextPacket {index : Nat} {flow : TrafficFlow} {e : SimTime × Event}
    (member : e ∈ s.nextPacket index flow) : e = (s.calendar.now.plusMillis flow.periodMs, .packet index) := by
  simp only [nextPacket] at member
  split at member
  · exact List.mem_singleton.1 member
  · cases member

/-- The events that follow a frame which a node passes on. -/
def passedOn (s : Simulation) (frame : Frame) : List (SimTime × Event) :=
  match frame.envelope.path with
  | .infrastructure => frame.envelope.recipients.map fun recipient =>
    (s.calendar.now.plusMicros s.latency, .arrival recipient (frame.via recipient))
  | .direct | .multicast => []

/-- The events that follow an event, drain checks apart. -/
def sequel (s : Simulation) : Event → List (SimTime × Event)
  | .packet index => (s.scenario.flows[index]?.map (s.nextPacket index)).getD []
  | .opportunity =>
    (s.transmittedAll s.stations.keys).flatMap s.headed ++
      [(s.calendar.now.plusMillis s.scenario.run.intervalMs, .opportunity)]
  | .arrival node frame => if node ∈ frame.envelope.recipients then [] else s.passedOn frame
  | .drainCheck _ _ | .pathSwitch _ _ _ _ => []

/-- What follows an event, one by one. -/
inductive Follows (s : Simulation) : Event → SimTime × Event → Prop
  | packet {index : Nat} {flow : TrafficFlow} (member : flow ∈ s.scenario.flows) :
    s.Follows (.packet index) (s.calendar.now.plusMillis flow.periodMs, .packet index)
  | headed (node : NodeId) (frame : Frame) : s.Follows .opportunity (s.arrivalTime, .arrival node frame)
  | opportunity : s.Follows .opportunity (s.calendar.now.plusMillis s.scenario.run.intervalMs, .opportunity)
  | passedOn {node recipient : NodeId} {frame : Frame} (elsewhere : node ∉ frame.envelope.recipients)
    (member : recipient ∈ frame.envelope.recipients) :
    s.Follows (.arrival node frame) (s.calendar.now.plusMicros s.latency, .arrival recipient (frame.via recipient))

theorem follows_of_sequel {event : Event} {x : SimTime × Event} (member : x ∈ s.sequel event) : s.Follows event x := by
  cases event with
  | packet index =>
    simp only [sequel] at member
    cases found : s.scenario.flows[index]? with
    | none =>
      rw [found] at member
      cases member
    | some flow =>
      rw [found, Option.map_some, Option.getD_some] at member
      rw [packet_of_nextPacket member]
      exact .packet (List.mem_of_getElem? found)
  | opportunity =>
    rcases List.mem_append.1 member with arrival | next
    · obtain ⟨frame, -, headed⟩ := List.mem_flatMap.1 arrival
      obtain ⟨node, -, rfl⟩ := List.mem_map.1 headed
      exact .headed node frame
    · obtain rfl := List.mem_singleton.1 next
      exact .opportunity
  | arrival node frame =>
    simp only [sequel] at member
    split at member
    · cases member
    · rename_i elsewhere
      simp only [passedOn] at member
      split at member
      · obtain ⟨recipient, here, rfl⟩ := List.mem_map.1 member
        exact .passedOn elsewhere here
      all_goals cases member
  | drainCheck node peer | pathSwitch node peer path clear => cases member

/-- Enters events one after the other. -/
def scheduleAll (s : Simulation) (events : List (SimTime × Event)) : Except SimulationError Simulation :=
  events.foldlM (fun s e => s.schedule e.1 e.2) s

theorem scheduleAll_singleton (s : Simulation) (e : SimTime × Event) : s.scheduleAll [e] = s.schedule e.1 e.2 := by
  rw [scheduleAll, List.foldlM_cons]
  exact bind_pure (s.schedule e.1 e.2)

/-- Entering events changes the calendar only. -/
theorem calendar_of_scheduleAll {events : List (SimTime × Event)} (scheduled : s.scheduleAll events = .ok t) :
    ∃ calendar, t = { s with calendar } := by
  refine holds_of_foldlM (P := fun _ t => ∃ calendar, t = { s with calendar }) ⟨s.calendar, rfl⟩
    (fun {_ e t u} same step => ?_) scheduled
  obtain ⟨calendar, rfl⟩ := same
  unfold schedule at step
  split at step
  · exact ⟨_, (Except.ok.inj step).symm⟩
  · cases step

theorem onward_scheduleAll (sound : s.Sound) {events : List (SimTime × Event)} (ordinary : ∀ e ∈ events, ¬ e.2.IsCheck)
    (isFor : ∀ e ∈ events, e.2.IsFor s.directory)
    (scheduled : s.scheduleAll events = .ok t) : s.Onward ↑events t := by
  induction events generalizing s with
  | nil =>
    obtain rfl := Except.ok.inj scheduled
    exact .refl sound
  | cons e rest ih =>
    rw [scheduleAll, List.foldlM_cons] at scheduled
    obtain ⟨next, first, later⟩ := ok_of_bind scheduled
    have head := onward_schedule sound (ordinary e List.mem_cons_self) (isFor e List.mem_cons_self) first
    have tail := ih head.sound (fun f member => ordinary f (List.mem_cons_of_mem _ member))
      (fun f member => head.directory ▸ isFor f (List.mem_cons_of_mem _ member)) later
    rw [← Multiset.cons_coe, ← Multiset.singleton_add]
    exact head.trans tail

theorem onward_transmitAll (sound : s.Sound) (done : s.transmitAll = .ok t) : s.Onward ↑(s.sequel .opportunity) t := by
  obtain ⟨transmitted, -⟩ := onward_transmitFrom sound s.stations.keys
  have entered : (s.stations.keys.foldl transmit s).schedule _ .opportunity = .ok t := done
  have next := onward_schedule transmitted.sound (by rintro ⟨_, _, ⟨⟩⟩) (by exact trivial) entered
  rw [transmitted.now, transmitted.scenario] at next
  rw [sequel, ← Multiset.coe_add, Multiset.coe_singleton]
  exact transmitted.trans next

theorem plane?_modify (s : Simulation) (node : NodeId) {f : Station → Station}
    (same : ∀ station, (f station).plane = station.plane) (other : NodeId) :
    ({ s with stations := s.stations.modify node f } : Simulation).plane? other = s.plane? other := by
  simp only [plane?, SortedMap.get?_modify]
  split
  · rw [Option.map_map]
    exact congrArg (Option.map · _) (funext same)
  · rfl

theorem onward_modify (sound : s.Sound) (node : NodeId) {f : Station → Station}
    (same : ∀ station, (f station).plane = station.plane) :
    s.Onward 0 { s with stations := s.stations.modify node f } :=
  onward_of_same sound rfl rfl rfl (plane?_modify s node same)

theorem plane?_record (s : Simulation) (node : NodeId) (sdus : List DeliveredSdu) (other : NodeId) :
    (s.record node sdus).plane? other = s.plane? other := by
  rw [record, plane?_modify]
  exact fun _ => rfl

theorem onward_record (sound : s.Sound) (node : NodeId) (sdus : List DeliveredSdu) : s.Onward 0 (s.record node sdus) :=
  onward_modify sound node fun _ => rfl

theorem relay_of_infrastructure (s : Simulation) (node : NodeId) {frame : Frame}
    (path : frame.envelope.path = .infrastructure) :
    s.relay node frame = (s.scheduleAll (s.passedOn frame)).map fun t =>
      { t with
        stations := t.stations.modify node fun station =>
          { station with reception := { station.reception with relayed := station.reception.relayed + 1 } } } := by
  obtain ⟨bytes, origin, nextHop, recipients, lcid, mode, _⟩ := frame
  obtain rfl := path
  simp only [relay, passedOn, scheduleAll, List.foldlM_map]
  rfl

theorem onward_relay (sound : s.Sound) {node : NodeId} {frame : Frame}
    (known : ∀ recipient ∈ frame.envelope.recipients, s.directory.Knows recipient)
    (done : s.relay node frame = .ok t) : s.Onward ↑(s.passedOn frame) t := by
  by_cases path : frame.envelope.path = .infrastructure
  · rw [relay_of_infrastructure s node path] at done
    obtain ⟨u, passed, rfl⟩ := ok_of_map done
    have arrivals {e : SimTime × Event} (member : e ∈ s.passedOn frame) :
        ∃ recipient, e.2 = .arrival recipient (frame.via recipient) := by
      rw [passedOn, path] at member
      obtain ⟨recipient, -, rfl⟩ := List.mem_map.1 member
      exact ⟨recipient, rfl⟩
    have entered := onward_scheduleAll sound
      (fun e member => by
        obtain ⟨recipient, is⟩ := arrivals member
        rintro ⟨_, _, check⟩
        cases is.symm.trans check)
      (fun e member => by
        obtain ⟨recipient, is⟩ := arrivals member
        rw [is]
        exact known) passed
    rw [← add_zero (Multiset.ofList _)]
    exact entered.trans (onward_modify entered.sound node fun _ => rfl)
  · have nothing : s.passedOn frame = [] ∧ s.relay node frame = .ok s := by
      unfold passedOn relay
      cases is : frame.envelope.path with
      | infrastructure => exact absurd is path
      | direct | multicast => exact ⟨rfl, rfl⟩
    rw [nothing.1]
    obtain rfl := Except.ok.inj (nothing.2.symm.trans done)
    exact .refl sound

theorem plane?_of_station {node : NodeId} {station : Station} (found : s.stations.get? node = some station) :
    s.plane? node = some station.plane := by
  rw [plane?, found]
  rfl

theorem onward_deliver (sound : s.Sound) {node : NodeId} {frame : Frame} (done : s.deliver node frame = .ok t) :
    s.Onward 0 t := by
  unfold deliver at done
  cases found : s.stations.get? node with
  | none =>
    rw [found] at done
    obtain rfl := Except.ok.inj done
    exact .refl sound
  | some station =>
    have plane := plane?_of_station found
    have vigilant := sound.watches node _ plane
    have alike := (DataPlane.alike_advance station.plane s.calendar.now).trans
      (DataPlane.inbound_deliver (station.plane.advance s.calendar.now) frame).alike
    have switches := (DataPlane.switches_deliver (station.plane.advance s.calendar.now) frame).trans
      (DataPlane.switches_advance station.plane s.calendar.now)
    have kept := vigilant.kept s.calendar.now
    rw [sound.pace plane] at kept
    have taken : s.Onward 0 (s.keep node ((station.plane.advance s.calendar.now).deliver frame).2 s.timers) :=
      onward_keep sound.toFramed (fun other _ => sound.watches other) plane (alike.node.trans vigilant.own)
        (switches ▸ kept) (DataPlane.addressed_of_alike alike sound.closed (sound.addressed plane))
    simp only [found] at done
    generalize (station.plane.advance s.calendar.now).deliver frame = answer at done taken
    obtain ⟨result, q⟩ := answer
    cases result with
    | ok sdu =>
      obtain rfl := Except.ok.inj done
      exact taken.trans (onward_record taken.sound node sdu.toList)
    | error fault =>
      simp only at done
      split at done
      · cases done
      · obtain rfl := Except.ok.inj done
        exact taken

theorem onward_switchPath (sound : s.Sound) {node peer : NodeId} {path : Path} {clear : Bool} {station : Station}
    (found : s.stations.get? node = some station) :
    let (sdus, plane, timers) := station.plane.switchPath s.directory s.timers peer path clear
    s.Onward 0 ((s.keep node plane timers).record node sdus) := by
  have kept := onward_react sound (plane?_of_station found) (.pathSwitch peer path clear) (by simp) (by simp)
  exact kept.trans (onward_record kept.sound node _)

theorem nextPacket_of_onward (onward : s.Onward entered t) (index : Nat) (flow : TrafficFlow) :
    t.nextPacket index flow = s.nextPacket index flow := by
  simp only [nextPacket, onward.now, horizon_congr onward.scenario]

theorem onward_tallies (sound : s.Sound) (tallies : List FlowTally) : s.Onward 0 { s with tallies } :=
  onward_of_same sound rfl rfl rfl fun _ => rfl

theorem scheduleAll_nextPacket (s : Simulation) (index : Nat) (flow : TrafficFlow) :
    s.scheduleAll (s.nextPacket index flow) =
      let next := s.calendar.now.plusMillis flow.periodMs
      if next ≤ (flow.stopMs.map SimTime.ofMillis).getD s.horizon then s.schedule next (.packet index) else .ok s := by
  simp only [nextPacket]
  split
  · exact scheduleAll_singleton _ _
  · rfl

/-- What becomes of the next packet of a flow: it cannot be made or is not taken, or its source deals with it and the
packet after it is entered. -/
inductive Sending (s : Simulation) (index : Nat) (flow : TrafficFlow) : Except SimulationError Simulation → Prop
  | unmade {error : FlowError} (unmade : s.directory.packetOf flow = .error error) :
    Sending s index flow (.error (.flow error))
  | sourceless {packet : Packet} (made : s.directory.packetOf flow = .ok packet)
    (missing : s.stations.get? flow.source = none) : Sending s index flow (.error (.noSource flow.source))
  | refused {packet : Packet} {station : Station} {error : SubmitError} (made : s.directory.packetOf flow = .ok packet)
    (found : s.stations.get? flow.source = some station)
    (refused : (station.plane.submit s.directory s.timers packet flow.hint).result = .error error) :
    Sending s index flow (.error (.submission flow.source flow.hint error))
  | taken {packet : Packet} {station : Station} {kept : Simulation} (made : s.directory.packetOf flow = .ok packet)
    (found : s.stations.get? flow.source = some station) (tallies : List FlowTally)
    (keeps : kept =
      let m : Moment := ⟨s.directory, s.timers, .packet packet flow.hint⟩
      { s.keep flow.source (station.plane.react m).plane (station.plane.asked m) with tallies }) :
    Sending s index flow (kept.scheduleAll (kept.nextPacket index flow))

theorem sending (s : Simulation) (index : Nat) (flow : TrafficFlow) :
    s.Sending index flow (s.sendPacket index flow) := by
  simp only [sendPacket, bind, Except.bind]
  cases read : flow.endpoints ((s.directory.record? flow.source).bind (·.address)) with
  | error error => exact .unmade (by rw [Directory.packetOf, read]; rfl)
  | ok endpoints =>
    simp only [Except.mapError]
    generalize packetIs : Packet.mk endpoints _ _ = packet
    have made : s.directory.packetOf flow = .ok packet := by
      rw [Directory.packetOf, read, ← packetIs]
      rfl
    cases found : s.stations.get? flow.source with
    | none => exact .sourceless made found
    | some station =>
      simp only
      cases result : (station.plane.submit s.directory s.timers packet flow.hint).result with
      | error error => exact .refused made found result
      | ok dispatch =>
        have taken : s.Sending index flow _ :=
          .taken made found (s.tallies.modify index (·.add dispatch.outcome)) rfl
        rw [scheduleAll_nextPacket] at taken
        exact taken

/-- When a packet is sent, its source deals with it, and nothing else changes but the calendar and a count. -/
theorem sendPacket_eq_ok {index : Nat} {flow : TrafficFlow} (done : s.sendPacket index flow = .ok t) :
    ∃ packet station tallies calendar, s.directory.packetOf flow = .ok packet ∧
      s.stations.get? flow.source = some station ∧
        let m : Moment := ⟨s.directory, s.timers, .packet packet flow.hint⟩
        t = { s.keep flow.source (station.plane.react m).plane s.timers with tallies, calendar } := by
  have sending := s.sending index flow
  rw [done] at sending
  generalize resultIs : Except.ok t = result at sending
  cases sending with
  | unmade | sourceless | refused => cases resultIs
  | @taken packet station kept made found tallies keeps =>
    obtain ⟨calendar, entered⟩ := calendar_of_scheduleAll resultIs.symm
    exact ⟨packet, station, tallies, calendar, made, found, by rw [entered, keeps]; rfl⟩

/-- A packet is refused, or its source deals with it and the next packet is entered. -/
theorem sendPacket_spec (sound : s.Sound) (index : Nat) (flow : TrafficFlow) :
    (∃ error, s.sendPacket index flow = .error error ∧ ∀ past, error ≠ .past past) ∨
      ∃ kept, s.Onward 0 kept ∧ s.sendPacket index flow = kept.scheduleAll (s.nextPacket index flow) := by
  have sending := s.sending index flow
  generalize s.sendPacket index flow = result at sending ⊢
  cases sending with
  | unmade | sourceless | refused => exact Or.inl ⟨_, rfl, by simp⟩
  | @taken packet station kept made found tallies keeps =>
    have reacted := onward_react sound (plane?_of_station found) (.packet packet flow.hint) (by simp) (by simp)
    have counted := reacted.trans (onward_tallies reacted.sound tallies)
    rw [keeps]
    exact Or.inr ⟨_, counted, by rw [← nextPacket_of_onward counted]⟩

theorem onward_sendPacket (sound : s.Sound) {index : Nat} {flow : TrafficFlow}
    (done : s.sendPacket index flow = .ok t) : s.Onward ↑(s.nextPacket index flow) t := by
  rcases sendPacket_spec sound index flow with ⟨error, failed, -⟩ | ⟨kept, counted, sent⟩
  · rw [failed] at done
    cases done
  · rw [sent] at done
    have entered := onward_scheduleAll counted.sound
      (fun e member => by
        rintro ⟨_, _, check⟩
        rw [packet_of_nextPacket member] at check
        cases check)
      (fun e member => by
        rw [packet_of_nextPacket member]
        trivial) done
    rw [← zero_add (Multiset.ofList _)]
    exact counted.trans entered

/-! ## The next event -/

/-- Taking the next event out of the calendar moves the clock to its instant. -/
theorem next?_eq_some {event : Event} (next : s.next? = some (event, t)) :
    ∃ entry calendar, s.calendar.pop = some (entry, calendar) ∧ entry.event = event ∧ entry.time ≤ s.horizon ∧
      t = { s with calendar, processed := s.processed + 1 } := by
  unfold next? at next
  cases popped : s.calendar.pop with
  | none =>
    rw [popped] at next
    cases next
  | some answer =>
    obtain ⟨entry, calendar⟩ := answer
    rw [popped] at next
    simp only at next
    split at next
    · cases next
    · rename_i within
      obtain ⟨rfl, rfl⟩ := Prod.mk.inj (Option.some.inj next)
      exact ⟨entry, calendar, rfl, rfl, Nat.not_lt.1 within, rfl⟩

/-- When no event is left to happen, all that is due is due after the horizon. -/
theorem late_of_ended (sound : s.Sound) (ended : s.next? = none) {x : SimTime × Event} (due : x ∈ s.calendar.dues) :
    s.horizon < x.1 := by
  unfold next? at ended
  cases popped : s.calendar.pop with
  | none =>
    rw [Calendar.dues_of_pop_none sound.timely popped] at due
    exact absurd due (Multiset.notMem_zero x)
  | some answer =>
    rw [popped] at ended
    simp only at ended
    split at ended
    · rename_i late
      exact Nat.lt_of_lt_of_le late (Calendar.time_le_of_pop sound.timely popped due)
    · cases ended

/-- What is known of a simulation once its next event was taken out. -/
structure Taken (s : Simulation) (event : Event) (t : Simulation) : Prop where
  framed : t.Framed
  scenario : t.scenario = s.scenario
  directory : t.directory = s.directory
  stations : t.stations = s.stations
  dues : s.calendar.dues = (t.calendar.now, event) ::ₘ t.calendar.dues
  clock : s.calendar.now ≤ t.calendar.now
  within : t.calendar.now ≤ s.horizon
  isFor : event.IsFor t.directory

theorem Taken.horizon {event : Event} (taken : s.Taken event t) : t.horizon = s.horizon := horizon_congr taken.scenario

theorem Taken.reached {event : Event} (taken : s.Taken event t) : t.calendar.now ≤ t.horizon := by
  rw [taken.horizon]
  exact taken.within

theorem taken_of_next? (sound : s.Sound) {event : Event} (next : s.next? = some (event, t)) : s.Taken event t := by
  obtain ⟨entry, calendar, popped, rfl, within, rfl⟩ := next?_eq_some next
  have timely := sound.timely
  have dues := Calendar.dues_pop timely.valid popped
  have now := Calendar.now_pop popped
  refine ⟨⟨Calendar.timely_pop timely popped, sound.closed, sound.stationed, sound.pace, sound.ahead, sound.addressed,
    ?_⟩, rfl, rfl, rfl, now ▸ dues, ?_, ?_, ?_⟩
  · exact fun due => sound.arrivals (dues ▸ Multiset.mem_cons_of_mem due)
  · exact now ▸ Calendar.now_le_of_pop timely popped
  · exact now ▸ within
  · cases event : entry.event with
    | arrival node frame =>
      have due : (entry.time, .arrival node frame) ∈ s.calendar.dues := by
        rw [dues, event]
        exact Multiset.mem_cons_self _ _
      exact sound.arrivals due
    | packet flow | opportunity | drainCheck node peer | pathSwitch node peer path clear => trivial

/-- Taking an event out that is no check of a node leaves the node's checks as they are. -/
theorem watches_of_next? (sound : s.Sound) {event : Event} (next : s.next? = some (event, t)) {node : NodeId}
    (other : ∀ peer, event ≠ .drainCheck node peer) : t.Watches node := by
  obtain ⟨entry, calendar, popped, rfl, -, rfl⟩ := next?_eq_some next
  exact fun p found => (sound.watches node p found).of_pop popped other

/-- A simulation stays in order when its next event, no drain check, is taken out. -/
theorem sound_of_next? (sound : s.Sound) {event : Event} (next : s.next? = some (event, t))
    (ordinary : ¬ event.IsCheck) : t.Sound :=
  ⟨(taken_of_next? sound next).framed, fun node =>
    watches_of_next? sound next fun peer is => ordinary ⟨node, peer, is⟩⟩

/-- A drain check that is due is carried out. -/
theorem onward_drainCheck (sound : s.Sound) {node peer : NodeId} (next : s.next? = some (.drainCheck node peer, t))
    {station : Station} (found : t.stations.get? node = some station) :
    let (plane, timers) := station.plane.drainCheck t.directory t.timers peer
    t.Onward 0 (t.keep node plane timers) := by
  have taken := taken_of_next? sound next
  have others (other : NodeId) (different : other ≠ node) : t.Watches other :=
    watches_of_next? sound next fun _ same => different (Event.drainCheck.inj same).1.symm
  have plane := plane?_of_station found
  obtain ⟨entry, calendar, popped, event, -, rfl⟩ := next?_eq_some next
  have vigilant := sound.watches node _ plane
  have kept := vigilant.kept_due popped event s.directory calendar.now
  simp only [sound.pace plane] at kept
  let m : Moment := ⟨s.directory, ⟨calendar.now, calendar.nextId, []⟩, .drainCheck peer⟩
  have own : (station.plane.react m).plane.node = node := (DataPlane.fixed_react station.plane m).1.trans vigilant.own
  have addressed := (DataPlane.addressed_react (m := m) sound.closed (sound.addressed plane)).1
  exact onward_keep taken.framed others plane own kept addressed

/-- An event happens where it can be performed and no node stops. -/
theorem handle_eq_ok_iff {event : Event} :
    s.handle event = .ok t ↔ s.perform event = .ok t ∧ t.stopped? = none := by
  unfold handle
  cases s.perform event with
  | error error => simp [bind, Except.bind]
  | ok u =>
    cases stops : u.stopped? with
    | none =>
      simp only [bind, Except.bind, stops, pure, Except.pure, Except.ok.injEq]
      exact ⟨fun same => ⟨same, same ▸ stops⟩, And.left⟩
    | some node =>
      refine iff_of_false (by simp [bind, Except.bind, stops, throw, throwThe, MonadExceptOf.throw]) ?_
      rintro ⟨same, none⟩
      rw [← Except.ok.inj same, stops] at none
      cases none

/-- An event fails where it cannot be performed, or a node stops. -/
theorem handle_eq_error_iff {event : Event} {error : SimulationError} :
    s.handle event = .error error ↔ s.perform event = .error error ∨
      ∃ t node, s.perform event = .ok t ∧ t.stopped? = some node ∧ error = .stopped node := by
  unfold handle
  cases s.perform event with
  | error error => simp [bind, Except.bind]
  | ok u =>
    cases stops : u.stopped? <;>
      simp [bind, Except.bind, stops, pure, Except.pure, throw, throwThe, MonadExceptOf.throw, eq_comm]

/-- An event keeps a simulation in order, and what it enters is what follows it. -/
theorem onward_handle (sound : s.Sound) {event : Event} (next : s.next? = some (event, t))
    (done : t.handle event = .ok u) : t.Onward ↑(t.sequel event) u := by
  obtain ⟨done, -⟩ := handle_eq_ok_iff.1 done
  have taken := taken_of_next? sound next
  have calm := sound_of_next? sound next
  cases event with
  | packet index =>
    have sound := calm (by rintro ⟨_, _, ⟨⟩⟩)
    simp only [perform] at done
    simp only [sequel]
    cases found : t.scenario.flows[index]? with
    | none =>
      rw [found] at done
      obtain rfl := Except.ok.inj done
      exact .refl sound
    | some flow =>
      rw [found] at done
      exact onward_sendPacket sound done
  | opportunity => exact onward_transmitAll (calm (by rintro ⟨_, _, ⟨⟩⟩)) done
  | arrival node frame =>
    have sound := calm (by rintro ⟨_, _, ⟨⟩⟩)
    simp only [perform] at done
    simp only [sequel]
    split at done
    · rename_i here
      rw [if_pos here]
      exact onward_deliver sound done
    · rename_i elsewhere
      rw [if_neg elsewhere]
      exact onward_relay sound taken.isFor done
  | pathSwitch node peer path clear =>
    have sound := calm (by rintro ⟨_, _, ⟨⟩⟩)
    simp only [perform] at done
    split at done
    · obtain rfl := Except.ok.inj done
      exact .refl sound
    · rename_i station found
      obtain rfl := Except.ok.inj done
      exact onward_switchPath sound found
  | drainCheck node peer =>
    simp only [perform] at done
    split at done
    · -- a node without a station has no switches, so its checks need not be looked after
      rename_i gone
      obtain rfl := Except.ok.inj done
      refine .refl ⟨taken.framed, fun other => ?_⟩
      by_cases own : other = node
      · intro p found
        rw [own, plane?, gone] at found
        cases found
      · exact watches_of_next? sound next fun _ same => own (Event.drainCheck.inj same).1.symm
    · rename_i station found
      obtain rfl := Except.ok.inj done
      exact onward_drainCheck sound next found

/-! ## Runs -/

variable {event : Event}

/-- Whether an event is the next of a simulation, and leads to another simulation. -/
def Happens (s : Simulation) (event : Event) (u : Simulation) : Prop :=
  ∃ t, s.next? = some (event, t) ∧ t.handle event = .ok u

theorem Happens.keeps (happens : s.Happens event u) (sound : s.Sound) :
    u.Sound ∧ u.scenario = s.scenario ∧ u.directory = s.directory := by
  obtain ⟨t, next, done⟩ := happens
  have taken := taken_of_next? sound next
  have onward := onward_handle sound next done
  exact ⟨onward.sound, onward.scenario.trans taken.scenario, onward.directory.trans taken.directory⟩

theorem runFor_of_none (next : s.next? = none) (count : Nat) : s.runFor count = .ok (some s) := by
  cases count <;> simp [runFor, next]

theorem runFor_of_error {error : SimulationError} (next : s.next? = some (event, t))
    (failed : t.handle event = .error error) (count : Nat) : s.runFor (count + 1) = .error error := by
  simp [runFor, next, failed, bind, Except.bind]

theorem runFor_of_happens (happens : s.Happens event u) (count : Nat) : s.runFor (count + 1) = u.runFor count := by
  obtain ⟨t, next, done⟩ := happens
  simp [runFor, next, done, bind, Except.bind]

/-- A simulation has come to its end, goes on with an event, or fails. -/
theorem run_cases (s : Simulation) :
    s.next? = none ∨ (∃ event u, s.Happens event u) ∨
      ∃ event t error, s.next? = some (event, t) ∧ t.handle event = .error error := by
  cases next : s.next? with
  | none => exact Or.inl rfl
  | some answer =>
    obtain ⟨event, t⟩ := answer
    cases done : t.handle event with
    | ok u => exact Or.inr (Or.inl ⟨event, u, t, next, done⟩)
    | error error => exact Or.inr (Or.inr ⟨event, t, error, rfl, done⟩)

/-- What holds where no event is left to happen, and of a run if it holds of the rest after one event, holds of all runs
that come to their end. -/
theorem finished_induction {motive : Nat → Simulation → Prop}
    (ended : ∀ {count s}, s.next? = none → motive count s)
    (happens : ∀ {count s event t u}, s.next? = some (event, t) → t.handle event = .ok u → motive count u →
      motive (count + 1) s)
    {count : Nat} (finished : s.runFor count = .ok (some t)) : motive count s := by
  induction count generalizing s with
  | zero =>
    cases next : s.next? with
    | none => exact ended next
    | some answer => simp [runFor, next] at finished
  | succ count ih =>
    rcases s.run_cases with last | ⟨event, u, t', next, done⟩ | ⟨event, t', error, next, failed⟩
    · exact ended last
    · exact happens next done (ih (runFor_of_happens ⟨t', next, done⟩ count ▸ finished))
    · rw [runFor_of_error next failed] at finished
      cases finished

end Simulation
end Sidelink
