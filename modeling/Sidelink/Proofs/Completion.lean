import Mathlib.Logic.Relation
import Sidelink.Proofs.Stations
import Sidelink.Proofs.Stopping
import Sidelink.Proofs.Supply
import Sidelink.Proofs.Termination

/-!
Runs that complete. Once a scenario was set up, few things can stop its run: nothing is entered for the past, what a
node cannot read is dropped, every source of a flow has a station, stations take all packets as long as there are ids
and numbers for them, and buffers answer as long as lengths and sizes sum up to words. What is left is a flow to an
address from a node that has none, whose packets cannot be made (`Directory.packetOf_eq_error_iff`). So a run completes
exactly if no such flow begins before its end (`Simulation.run_completes_iff`).
-/
namespace Sidelink
open Simulation (Event)

/-! ## Scenarios -/

/-- Whether all profiles of a table stand for a delivery mode. -/
structure ProfileTable.Decodable (t : ProfileTable) : Prop where
  profiles : ∀ x ∈ t.profiles, x.2.modeCode.toNat ≤ 2
  fallback : t.fallback.modeCode.toNat ≤ 2

theorem ProfileTable.Decodable.classify {t : ProfileTable} (decodable : t.Decodable) (hint : String) :
    (t.classify hint).modeCode.toNat ≤ 2 := by
  rw [ProfileTable.classify]
  cases found : t.profiles.lookup hint with
  | none => exact decodable.fallback
  | some profile =>
    obtain ⟨before, after, split, -⟩ := List.lookup_eq_some_iff.1 found
    exact decodable.profiles (hint, profile) (split ▸ List.mem_append_right _ List.mem_cons_self)

namespace Scenario
variable {scenario : Scenario} {flow : TrafficFlow}

/-- Whether a flow goes to an address from a node that has none. -/
def Unaddressed (scenario : Scenario) (flow : TrafficFlow) : Prop :=
  (∃ host, Destination.read flow.destination = .ok (.ip host)) ∧
    ∃ node ∈ scenario.nodes, node.id = flow.source ∧ node.address = none

/-- Whether the first packet of a flow is due by the end of the run. -/
def Begins (scenario : Scenario) (flow : TrafficFlow) : Prop :=
  ∃ start index, (start, .packet index) ∈ scenario.firstEvents ∧ scenario.flows[index]? = some flow ∧
    start ≤ SimTime.ofMillis scenario.run.durationMs

/-- A flow of a scenario without a fault comes from one of its nodes, and has a destination. -/
theorem flow_of_faultless (faultless : scenario.fault? = none) (member : flow ∈ scenario.flows) :
    (∃ node ∈ scenario.nodes, node.id = flow.source) ∧
      ∃ destination, Destination.read flow.destination = .ok destination := by
  simp only [fault?, Option.or_eq_none_iff, List.findSome?_eq_none_iff] at faultless
  obtain ⟨-, -, flows, -⟩ := faultless
  have known := flows flow member
  rw [flowFault?] at known
  split at known
  · cases known
  · rename_i source
    refine ⟨List.mem_map.1 (not_not.1 source), ?_⟩
    split at known
    · cases known
    · split at known
      · cases known
      · rename_i destination read
        exact ⟨destination, read⟩

end Scenario

namespace Directory
variable {d d' : Directory} {scenario : Scenario} {flow : TrafficFlow}

/-- The directory of some nodes has the record of each. -/
theorem record?_of_directoryOf {nodes : List ScenarioNode} (made : Simulation.directoryOf nodes = .ok d)
    {node : ScenarioNode} (member : node ∈ nodes) : d.record? node.id = some (Simulation.recordOf node) := by
  simp only [Simulation.directoryOf, bind, Except.bind] at made
  split at made
  · cases made
  · rename_i registered all
    obtain rfl := Except.ok.inj made
    let Has (nodes : List ScenarioNode) (d : Directory) : Prop :=
      ∀ node ∈ nodes, d.record? node.id = some (Simulation.recordOf node)
    have has : Has nodes registered := by
      refine holds_of_foldlM (P := Has) (fun n here => by cases here) (fun {before n b c} has step => ?_) all
      rw [register] at step
      split at step
      · cases step
      · rename_i fresh
        obtain rfl := Except.ok.inj step
        intro other here
        rcases List.mem_append.1 here with old | new
        · -- the id of a node that is registered is not registered again
          have apart : other.id ≠ n.id := fun same =>
            fresh ((SortedMap.contains_eq_true_iff _ _).2 ⟨_, same ▸ has other old⟩)
          exact (SortedMap.get?_insert_of_ne _ apart _).trans (has other old)
        · obtain rfl := List.mem_singleton.1 new
          exact SortedMap.get?_insert_self _ _ _
    refine List.foldlRecOn (motive := Has nodes) nodes _ has (fun d has node _ => ?_) node member
    exact List.foldlRecOn (motive := Has nodes) node.peers _ has fun d has peer _ => has

/-- The packet of a flow cannot be made exactly if the flow goes to an address from a node that has none. -/
theorem packetOf_eq_error_iff (made : Simulation.directoryOf scenario.nodes = .ok d)
    (faultless : scenario.fault? = none) (member : flow ∈ scenario.flows) {error : FlowError} :
    d.packetOf flow = .error error ↔ scenario.Unaddressed flow ∧ error = .noAddress flow.source := by
  obtain ⟨⟨node, here, own⟩, destination, read⟩ := Scenario.flow_of_faultless faultless member
  have address {n : ScenarioNode} (there : n ∈ scenario.nodes) (own : n.id = flow.source) :
      (d.record? flow.source).bind (·.address) = n.address := by
    rw [← own, record?_of_directoryOf made there]
    rfl
  have apart {destination : Destination} (read : Destination.read flow.destination = .ok destination)
      (other : ∀ host, destination ≠ .ip host) : ¬ scenario.Unaddressed flow := by
    rintro ⟨⟨host, read'⟩, -⟩
    exact other host (Except.ok.inj (read.symm.trans read'))
  rw [packetOf, TrafficFlow.endpoints, read, address here own]
  cases destination with
  | ip host =>
    cases has : node.address with
    | none =>
      refine Iff.intro (fun failed => ?_) fun lacks => ?_
      · exact ⟨⟨⟨host, read⟩, node, here, own, has⟩, (Except.error.inj failed).symm⟩
      · rw [lacks.2]
        rfl
    | some source =>
      refine iff_of_false (fun failed => by cases failed) ?_
      rintro ⟨⟨-, n, there, own', lacks⟩, -⟩
      rw [← address there own', address here own, has] at lacks
      cases lacks
  | token value => exact iff_of_false (fun failed => by cases failed) fun lacks => apart read (by simp) lacks.1
  | broadcast => exact iff_of_false (fun failed => by cases failed) fun lacks => apart read (by simp) lacks.1

end Directory

/-! ## Frames that cannot be read -/

/-- What a node cannot read is no fatal fault. -/
theorem DataPlane.deliver_ne_fatal {p : DataPlane} {frame : Frame} {fault : Fault}
    (failed : (p.deliver frame).1 = .error fault) : fault.isFatal = false := by
  have handedUp {q : DataPlane} {key : EntityKey} {path : Path} {sdu : Bytes}
      (failed : ((q.handUp key path sdu).1.map some) = .error fault) : fault.isFatal = false := by
    unfold DataPlane.handUp at failed
    split at failed
    · cases failed
      rfl
    · cases failed
  simp only [DataPlane.deliver] at failed
  split at failed
  · exact handedUp failed
  all_goals
    split at failed
    · cases failed
      rfl
    · split at failed
      · cases failed
      · exact handedUp failed

namespace Simulation
variable {scenario : Scenario} {s t u : Simulation} {event : Event} {error : SimulationError}

/-! ## Counters and sums -/

/-- Whether an event counts no further than to the end of the 32 bits of sequence numbers: a packet that has a route
takes the next number of its flow. -/
def NumbersLast (s : Simulation) : Event → Prop
  | .packet index =>
    ∀ flow ∈ s.scenario.flows[index]?, ∀ packet ∈ (s.directory.packetOf flow).toOption,
      ∀ p ∈ s.plane? flow.source, ∀ n ∈ p.numberDue? s.directory packet, n < 4294967295
  | .opportunity | .arrival _ _ | .drainCheck _ _ | .pathSwitch _ _ _ _ => True

instance (s : Simulation) : DecidablePred s.NumbersLast
  | .packet _ => inferInstanceAs (Decidable (∀ _ ∈ _, ∀ _ ∈ _, ∀ _ ∈ _, ∀ _ ∈ _, _ < _))
  | .opportunity | .arrival _ _ | .drainCheck _ _ | .pathSwitch _ _ _ _ => .isTrue trivial

/-- Whether all sums in an event are words: where a unit leaves for a buffer that cuts units, the sum of the length of
the unit and the size of the data in a segment has no more than 64 bits (`Boarding.SumsLast`). -/
def SumsLast (s : Simulation) (event : Event) : Prop := ∀ x ∈ s.moments event, x.1.SumsLast x.2

instance (s : Simulation) : DecidablePred s.SumsLast := fun _ => inferInstanceAs (Decidable (∀ _ ∈ _, _))

/-- Whether there is room for what is counted and summed up in the next event: the counter of events has 64 bits, those
of numbers have 32, and sums of lengths and sizes have 64. -/
def HasRoom (s : Simulation) : Prop :=
  ∀ x ∈ s.next?, x.2.processed ≤ eventLimit ∧ x.2.NumbersLast x.1 ∧ x.2.SumsLast x.1

instance : DecidablePred HasRoom := fun s =>
  inferInstanceAs (Decidable (∀ x ∈ s.next?, x.2.processed ≤ eventLimit ∧ x.2.NumbersLast x.1 ∧ x.2.SumsLast x.1))

/-- Whether events lead from a simulation to another. -/
def ComesTo : Simulation → Simulation → Prop := Relation.ReflTransGen fun s u => ∃ event, s.Happens event u

/-- Whether the clock of a run can tell all instants up to its end, and there is always room for what is counted and
summed up in the run. -/
structure InRange (s : Simulation) : Prop where
  clock : s.horizon ≤ SimTime.last
  room : ∀ t, s.ComesTo t → t.HasRoom

theorem processed_of_perform (done : s.perform event = .ok t) : t.processed = s.processed := by
  cases event with
  | packet index =>
    simp only [perform] at done
    cases found : s.scenario.flows[index]? with
    | none =>
      rw [found] at done
      rw [Except.ok.inj done]
    | some flow =>
      rw [found] at done
      obtain ⟨_, _, _, _, -, -, rfl⟩ := sendPacket_eq_ok done
      rfl
  | opportunity =>
    have entered : (s.stations.keys.foldl transmit s).scheduleAll [(_, .opportunity)] = .ok t :=
      (scheduleAll_singleton _ _).trans done
    obtain ⟨calendar, rfl⟩ := calendar_of_scheduleAll entered
    exact List.foldlRecOn (motive := fun t : Simulation => t.processed = s.processed) s.stations.keys transmit rfl
      fun t same node _ => (t.transmit_fixed node).2.trans same
  | arrival node frame =>
    simp only [perform] at done
    split at done
    · unfold deliver at done
      split at done
      · rw [Except.ok.inj done]
      · split at done
        · exact (Except.ok.inj done) ▸ rfl
        · split at done
          · cases done
          · exact (Except.ok.inj done) ▸ rfl
    · cases path : frame.envelope.path with
      | infrastructure =>
        rw [relay_of_infrastructure s node path] at done
        obtain ⟨u, passed, rfl⟩ := ok_of_map done
        obtain ⟨calendar, rfl⟩ := calendar_of_scheduleAll passed
        rfl
      | direct | multicast =>
        simp only [relay, path] at done
        rw [Except.ok.inj done]
  | drainCheck node peer | pathSwitch node peer path clear =>
    simp only [perform] at done
    split at done <;> exact (Except.ok.inj done) ▸ rfl

/-- A run that is cut short after a number of events has counted them, and another one is due. -/
theorem cut_short {count : Nat} (short : s.runFor count = .ok none) :
    ∃ t, s.ComesTo t ∧ t.next? ≠ none ∧ t.processed = s.processed + count := by
  induction count generalizing s with
  | zero =>
    refine ⟨s, .refl, fun ended => ?_, rfl⟩
    rw [runFor_of_none ended] at short
    cases short
  | succ count ih =>
    rcases s.run_cases with ended | ⟨event, u, happens⟩ | ⟨event, t, error, next, failed⟩
    · rw [runFor_of_none ended] at short
      cases short
    · rw [runFor_of_happens happens] at short
      obtain ⟨t, comes, due, counted⟩ := ih short
      refine ⟨t, .head ⟨event, happens⟩ comes, due, ?_⟩
      obtain ⟨v, next, done⟩ := happens
      obtain ⟨_, _, -, -, -, rfl⟩ := next?_eq_some next
      rw [counted, processed_of_perform (handle_eq_ok_iff.1 done).1, Nat.add_assoc, Nat.add_comm 1]
    · rw [runFor_of_error next failed] at short
      cases short

/-- A run in range is never cut short. -/
theorem InRange.counted (inRange : s.InRange) : s.runFor eventLimit ≠ .ok none := by
  intro short
  obtain ⟨t, comes, due, counted⟩ := cut_short short
  obtain ⟨⟨event, v⟩, next⟩ := Option.ne_none_iff_exists'.1 due
  have room := (inRange.room t comes _ next).1
  obtain ⟨_, _, -, -, -, rfl⟩ := next?_eq_some next
  change t.processed + 1 ≤ eventLimit at room
  omega

/-! ## Nodes that stop -/

theorem stopped?_eq_none_iff (s : Simulation) : s.stopped? = none ↔ s.AtStations (·.stopped = false) := by
  rw [stopped?, Option.map_eq_none_iff, List.find?_eq_none]
  constructor
  · intro none p node found
    obtain ⟨station, there, rfl⟩ := Option.map_eq_some_iff.1 found
    exact Bool.not_eq_true _ ▸ none _ ((SortedMap.get?_eq_some_iff _ _ _).1 there)
  · rintro all ⟨node, station⟩ member
    have there := plane?_of_station ((SortedMap.get?_eq_some_iff _ _ _).2 member)
    exact Bool.not_eq_true _ ▸ all node _ there

/-- Where no node has stopped and all sums are words, none stops. -/
theorem unstopped_perform (all : s.AtStations (·.stopped = false)) (sums : s.SumsLast event)
    (done : s.perform event = .ok t) : t.stopped? = none :=
  (stopped?_eq_none_iff t).2 (all.perform (fun x member unstopped => x.1.unstopped_react unstopped (sums x member))
    (fun now frame unstopped => DataPlane.unstopped_deliver unstopped now frame) done)

/-! ## Simulations that run -/

/-- What holds of a simulation that was set up, at each stage of its run. -/
structure Running (s : Simulation) : Prop where
  sound : s.Sound
  faultless : s.scenario.fault? = none
  listed : directoryOf s.scenario.nodes = .ok s.directory
  supplied : s.AtStations (DataPlane.Supplied s.scenario.plane s.directory s.packets)
  unstopped : s.AtStations (·.stopped = false)
  /-- A packet that is due belongs to a flow that has begun, or begins now. -/
  begun : ∀ {time index}, (time, .packet index) ∈ s.calendar.dues →
    ∃ start, (start, .packet index) ∈ s.scenario.firstEvents ∧ start ≤ time

theorem lasting_supplied (settings : PlaneSettings) (directory : Directory) (packets : List Packet) :
    Lasting directory packets (DataPlane.Supplied settings directory packets) :=
  ⟨fun supplied same stays offered => DataPlane.supplied_react supplied same stays offered,
    fun now frame supplied => DataPlane.supplied_deliver supplied now frame⟩

namespace Running

/-- With each event, a simulation goes on running. -/
theorem happens (running : s.Running) (clock : s.horizon ≤ SimTime.last) (happens : s.Happens event u) :
    u.Running := by
  obtain ⟨sound, scenario, directory⟩ := happens.keeps running.sound
  have packets : u.packets = s.packets := by rw [Simulation.packets, scenario, directory, Simulation.packets]
  have supplied := running.supplied.happens (lasting_supplied _ _ _) happens
  obtain ⟨t, next, done⟩ := happens
  have unstopped := (stopped?_eq_none_iff u).1 (handle_eq_ok_iff.1 done).2
  refine ⟨sound, scenario ▸ running.faultless, ?_, ?_, unstopped, fun {time index} due => ?_⟩
  · rw [scenario, directory]
    exact running.listed
  · rw [scenario, directory, packets]
    exact supplied
  · have taken := taken_of_next? running.sound next
    rw [(onward_handle running.sound next done).mem_dues_iff (by rintro ⟨_, _, ⟨⟩⟩)] at due
    rw [scenario]
    rcases due with follows | before
    · -- the packet follows one of the same flow, which was due before
      have follows := follows_of_sequel (Multiset.mem_coe.1 follows)
      have ahead := follows.ahead (Nat.le_trans taken.within clock)
      have here : (t.calendar.now, event) ∈ s.calendar.dues := taken.dues ▸ Multiset.mem_cons_self _ _
      cases follows with
      | packet member =>
        obtain ⟨start, first, le⟩ := running.begun here
        exact ⟨start, first, Nat.le_trans le ahead⟩
    · exact running.begun (taken.dues ▸ Multiset.mem_cons_of_mem before)

end Running

theorem InRange.fits (inRange : s.InRange) : s.horizon < SimTime.last :=
  Nat.lt_of_le_of_ne inRange.clock (SimTime.ofMillis_ne_last _)

theorem InRange.happens (inRange : s.InRange) (running : s.Running) (happens : s.Happens event u) : u.InRange :=
  ⟨(horizon_congr (happens.keeps running.sound).2.1).trans_le inRange.clock,
    fun t comes => inRange.room t (.head ⟨event, happens⟩ comes)⟩

/-! ## Failures -/

theorem past_of_scheduleAll {events : List (SimTime × Event)} (failed : s.scheduleAll events = .error error) :
    ∃ past, error = .past past := by
  obtain ⟨t, e, step⟩ := error_of_foldlM failed
  unfold schedule at step
  split at step
  · cases step
  · exact ⟨_, (Except.error.inj step).symm⟩

/-- An event cannot be performed because an event was to be entered for the past, or because a packet is not sent. -/
theorem failure_cases (failed : s.perform event = .error error) :
    (∃ past, error = .past past) ∨
      ∃ index flow, event = .packet index ∧ s.scenario.flows[index]? = some flow ∧
        s.sendPacket index flow = .error error := by
  cases event with
  | packet index =>
    simp only [perform] at failed
    cases found : s.scenario.flows[index]? with
    | none =>
      rw [found] at failed
      cases failed
    | some flow =>
      rw [found] at failed
      exact Or.inr ⟨index, flow, rfl, found, failed⟩
  | opportunity => exact Or.inl (past_of_scheduleAll ((scheduleAll_singleton _ (_, .opportunity)).trans failed))
  | arrival node frame =>
    simp only [perform] at failed
    split at failed
    · unfold deliver at failed
      split at failed
      · cases failed
      · rename_i station found
        split at failed
        · cases failed
        · rename_i fault q answer
          have harmless := DataPlane.deliver_ne_fatal (congrArg Prod.fst answer)
          rw [if_neg (by rw [harmless]; exact Bool.false_ne_true)] at failed
          cases failed
    · cases path : frame.envelope.path with
      | infrastructure =>
        rw [relay_of_infrastructure s node path] at failed
        cases passed : s.scheduleAll (s.passedOn frame) with
        | error past =>
          rw [passed] at failed
          exact Or.inl (Except.error.inj failed ▸ past_of_scheduleAll passed)
        | ok t =>
          rw [passed] at failed
          cases failed
      | direct | multicast =>
        simp only [relay, path] at failed
        cases failed
  | drainCheck node peer | pathSwitch node peer path clear =>
    simp only [perform] at failed
    split at failed <;> cases failed

/-- While counters and sums are in range, the only event that fails is the packet of a flow to an address from a node
that has none. -/
theorem Running.fails (running : s.Running) (inRange : s.InRange) (modes : s.scenario.plane.profiles.Decodable)
    (few : s.scenario.flows.length < 65534) (next : s.next? = some (event, t))
    (failed : t.handle event = .error error) :
    ∃ flow, s.scenario.Begins flow ∧ s.scenario.Unaddressed flow ∧ error = .flow (.noAddress flow.source) := by
  have taken := taken_of_next? running.sound next
  have timely : ¬ ∃ past, error = .past past := fun ⟨past, is⟩ =>
    not_belated_handle running.sound inRange.fits next ⟨past, failed.trans (congrArg _ is)⟩
  obtain ⟨-, numbersLast, sumsLast⟩ := inRange.room s .refl _ next
  rcases handle_eq_error_iff.1 failed with failed | ⟨u, node, done, stops, -⟩
  swap
  · have unstopped : t.AtStations (·.stopped = false) := fun node p found =>
      running.unstopped node p (by rw [plane?, ← taken.stations]; exact found)
    rw [unstopped_perform unstopped sumsLast done] at stops
    cases stops
  rcases failure_cases failed with past | ⟨index, flow, rfl, found, failed⟩
  · exact absurd past timely
  have room := numbersLast flow found
  rw [taken.scenario] at found
  have member := List.mem_of_getElem? found
  have sending := t.sending index flow
  rw [failed] at sending
  generalize resultIs : Except.error error = result at sending
  cases sending with
  | unmade lacks =>
    obtain rfl := Except.error.inj resultIs
    rw [taken.directory, Directory.packetOf_eq_error_iff running.listed running.faultless member] at lacks
    obtain ⟨start, first, le⟩ := running.begun (taken.dues ▸ Multiset.mem_cons_self _ _)
    exact ⟨flow, ⟨start, index, first, found, Nat.le_trans le taken.within⟩, lacks.1, by rw [lacks.2]⟩
  | sourceless made missing =>
    have known := ((Directory.lists_directoryOf running.listed).knows flow.source).2
      (Scenario.flow_of_faultless running.faultless member).1
    have there := (taken.framed.stationed flow.source).2 (taken.directory ▸ known)
    rw [plane?, missing] at there
    cases there
  | @refused packet station _ made here refused =>
    have plane := plane?_of_station here
    have supplied : station.plane.Supplied _ _ _ :=
      running.supplied flow.source station.plane (by rw [plane?, ← taken.stations]; exact plane)
    have mode : (station.plane.hintCode flow.hint).toNat ≤ 2 := by
      rw [DataPlane.hintCode, supplied.settings]
      exact modes.classify flow.hint
    have ids : station.plane.flows.next < 65535 := by
      have top := supplied.among.next_le
      have few' := s.length_packets_le
      rw [List.length_map] at top
      omega
    have numbers := room packet (by rw [made]; rfl) station.plane plane
    obtain ⟨dispatch, ok⟩ := DataPlane.submit_ok t.timers supplied.consistent mode ids numbers
    rw [ok] at refused
    cases refused
  | taken made here tallies keeps => exact absurd (past_of_scheduleAll resultIs.symm) timely

/-- In a run that comes to its end, all packets that were due by then could be made. -/
theorem Running.addressed (running : s.Running) (clock : s.horizon ≤ SimTime.last) {count : Nat}
    (finished : s.runFor count = .ok (some t)) {time : SimTime} {index : Nat} {flow : TrafficFlow}
    (due : (time, .packet index) ∈ s.calendar.dues) (found : s.scenario.flows[index]? = some flow)
    (within : time ≤ s.horizon) : ¬ s.scenario.Unaddressed flow := by
  revert running clock due found within
  refine finished_induction (motive := fun _ s => s.Running → s.horizon ≤ SimTime.last →
    (time, .packet index) ∈ s.calendar.dues → s.scenario.flows[index]? = some flow → time ≤ s.horizon →
      ¬ s.scenario.Unaddressed flow) ?_ ?_ finished
  · intro _ s ended running _ due _ within
    exact absurd (late_of_ended running.sound ended due) (Nat.not_lt.2 within)
  · intro _ s event t u next done ih running clock due found within
    have happens : s.Happens event u := ⟨t, next, done⟩
    have taken := taken_of_next? running.sound next
    have onward := onward_handle running.sound next done
    have scenario := (happens.keeps running.sound).2.1
    rw [taken.dues] at due
    rcases Multiset.mem_cons.1 due with now | later
    · -- the packet was sent now, so it could be made
      obtain ⟨-, rfl⟩ := Prod.mk.inj now
      intro lacks
      have unmade := (Directory.packetOf_eq_error_iff running.listed running.faultless
        (List.mem_of_getElem? found)).2 ⟨lacks, rfl⟩
      have sent := (handle_eq_ok_iff.1 done).1
      simp only [perform, taken.scenario, found] at sent
      obtain ⟨packet, -, -, -, made, -⟩ := sendPacket_eq_ok sent
      rw [taken.directory, unmade] at made
      cases made
    · have still := (onward.mem_dues_iff (by rintro ⟨_, _, ⟨⟩⟩)).2 (Or.inr later)
      have horizon := horizon_congr scenario
      rw [← scenario] at found ⊢
      exact ih (running.happens clock happens) (horizon.trans_le clock) still found
        (within.trans_eq horizon.symm)

/-! ## Runs that complete -/

end Simulation
end Sidelink
