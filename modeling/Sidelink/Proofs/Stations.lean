import Sidelink.Proofs.Landings

/-!
What lasts at the stations of a simulation. In an event, stations deal with packets of the flows, with opportunities,
frames, drain checks and switches, each on its turn (`Simulation.moments`), and never depart. So a property that a node
keeps through each of these is kept by all stations (`Simulation.AtStations.perform`), with each event of a run
(`Simulation.AtStations.happens`).
-/
namespace Sidelink
open Simulation (Event)

/-- Whether a node keeps a property whatever happens to it, as long as it takes certain packets only, finds the same
directory and does not depart. -/
structure Lasting (directory : Directory) (packets : List Packet) (P : DataPlane → Prop) : Prop where
  react : ∀ {p : DataPlane} {m : Moment}, P p → m.directory = directory → m.stimulus ≠ .departed →
    (∀ packet hint, m.stimulus = .packet packet hint → packet ∈ packets) → P (p.react m).plane
  deliver : ∀ {p : DataPlane} (now : SimTime) (frame : Frame), P p → P ((p.advance now).deliver frame).2

namespace Simulation
variable {s t u : Simulation} {event : Event} {P : DataPlane → Prop}

/-- The packets that the flows of a simulation send. -/
def packets (s : Simulation) : List Packet :=
  s.scenario.flows.filterMap fun flow => (s.directory.packetOf flow).toOption

theorem mem_packets {flow : TrafficFlow} {packet : Packet} (member : flow ∈ s.scenario.flows)
    (made : s.directory.packetOf flow = .ok packet) : packet ∈ s.packets :=
  List.mem_filterMap.2 ⟨flow, member, by rw [made]; rfl⟩

theorem length_packets_le (s : Simulation) : s.packets.length ≤ s.scenario.flows.length := List.length_filterMap_le _ _

/-! ## What stations deal with -/

/-- What stations deal with when they transmit one after the other, each as it is on its turn. -/
def turns (s : Simulation) : List NodeId → List (DataPlane × Moment)
  | [] => []
  | node :: rest =>
    ((s.plane? node).toList.map fun p =>
        (p, ⟨s.directory, ((s.transmitted node).foldl launch s).timers, .opportunity s.scenario.run.framesPerTurn⟩)) ++
      (s.transmit node).turns rest

/-- What stations deal with in an event, each as it is on its turn. Frames that they are handed are left out. -/
def moments (s : Simulation) : Event → List (DataPlane × Moment)
  | .packet index =>
    match s.scenario.flows[index]? with
    | none => []
    | some flow =>
      match s.directory.packetOf flow, s.plane? flow.source with
      | .ok packet, some p => [(p, ⟨s.directory, s.timers, .packet packet flow.hint⟩)]
      | _, _ => []
  | .opportunity => s.turns s.stations.keys
  | .arrival _ _ => []
  | .drainCheck node peer => (s.plane? node).toList.map fun p => (p, ⟨s.directory, s.timers, .drainCheck peer⟩)
  | .pathSwitch node peer path clear =>
    (s.plane? node).toList.map fun p => (p, ⟨s.directory, s.timers, .pathSwitch peer path clear⟩)

theorem transmit_fixed (s : Simulation) (node : NodeId) :
    (s.transmit node).directory = s.directory ∧ (s.transmit node).processed = s.processed := by
  cases found : s.stations.get? node with
  | none => simp only [transmit, found, and_self]
  | some station =>
    obtain ⟨calendar, changed, -⟩ := s.launchAll_spec (s.transmitted node)
    rw [(transmit_of_station found).2, changed]
    exact ⟨rfl, rfl⟩

theorem mem_turns {nodes : List NodeId} {x : DataPlane × Moment} (member : x ∈ s.turns nodes) :
    x.2.directory = s.directory ∧ ∃ limit, x.2.stimulus = .opportunity limit := by
  induction nodes generalizing s with
  | nil => cases member
  | cons node rest ih =>
    rcases List.mem_append.1 member with own | later
    · obtain ⟨p, -, rfl⟩ := List.mem_map.1 own
      exact ⟨rfl, _, rfl⟩
    · obtain ⟨directory, opportunity⟩ := ih later
      exact ⟨directory.trans (s.transmit_fixed node).1, opportunity⟩

/-- Stations find the directory of the simulation, do not depart, and take packets of the flows only. -/
theorem mem_moments {x : DataPlane × Moment} (member : x ∈ s.moments event) :
    x.2.directory = s.directory ∧ x.2.stimulus ≠ .departed ∧
      ∀ packet hint, x.2.stimulus = .packet packet hint → packet ∈ s.packets := by
  cases event with
  | packet index =>
    simp only [moments] at member
    cases found : s.scenario.flows[index]? with
    | none =>
      rw [found] at member
      cases member
    | some flow =>
      rw [found] at member
      simp only at member
      split at member
      · rename_i packet p made here
        obtain rfl := List.mem_singleton.1 member
        refine ⟨rfl, Stimulus.noConfusion, fun other hint is => ?_⟩
        exact (Stimulus.packet.inj is).1 ▸ mem_packets (List.mem_of_getElem? found) made
      · cases member
  | opportunity =>
    obtain ⟨directory, limit, is⟩ := mem_turns member
    exact ⟨directory, by simp [is], by simp [is]⟩
  | arrival node frame => cases member
  | drainCheck node peer | pathSwitch node peer path clear =>
    obtain ⟨p, -, rfl⟩ := List.mem_map.1 member
    exact ⟨rfl, by simp, by simp⟩

/-! ## What all stations keep -/

/-- Whether all stations have a property. -/
def AtStations (s : Simulation) (P : DataPlane → Prop) : Prop := ∀ node p, s.plane? node = some p → P p

namespace AtStations
variable {node : NodeId} {station : Station}

theorem congr (all : s.AtStations P) (same : t.plane? = s.plane?) : t.AtStations P :=
  fun node p found => all node p (same ▸ found)

theorem keep (all : s.AtStations P) {q : DataPlane} (holds : P q) (node : NodeId) (timers : Timers) :
    (s.keep node q timers).AtStations P := by
  intro other p found
  rw [plane?_keep] at found
  split at found
  · obtain ⟨_, _, rfl⟩ := Option.map_eq_some_iff.1 found
    exact holds
  · exact all other p found

/-- Stations that transmit deal with an opportunity, one after the other. -/
theorem transmitFrom {nodes : List NodeId} (kept : ∀ x ∈ s.turns nodes, P x.1 → P (x.1.react x.2).plane)
    (all : s.AtStations P) : (nodes.foldl transmit s).AtStations P := by
  induction nodes generalizing s with
  | nil => exact all
  | cons node rest ih =>
    rw [List.foldl_cons]
    refine ih (fun x member => kept x (List.mem_append_right _ member)) ?_
    cases found : s.stations.get? node with
    | none => simpa only [transmit, found] using all
    | some station =>
      have plane := plane?_of_station found
      obtain ⟨calendar, changed, -⟩ := s.launchAll_spec (s.transmitted node)
      have launched : ((s.transmitted node).foldl launch s).AtStations P := all.congr (by rw [changed]; rfl)
      rw [(transmit_of_station found).2]
      refine launched.keep (kept (station.plane, _) (List.mem_append_left _ ?_) (all node _ plane)) node _
      rw [plane]
      exact List.mem_singleton_self _

/-- With an event, all stations keep what they keep on their turns and when they are handed frames. -/
theorem perform (kept : ∀ x ∈ s.moments event, P x.1 → P (x.1.react x.2).plane)
    (handed : ∀ {p : DataPlane} (now : SimTime) (frame : Frame), P p → P ((p.advance now).deliver frame).2)
    (all : s.AtStations P) (done : s.perform event = .ok t) : t.AtStations P := by
  cases event with
  | packet index =>
    simp only [Simulation.perform] at done
    cases found : s.scenario.flows[index]? with
    | none =>
      rw [found] at done
      exact Except.ok.inj done ▸ all
    | some flow =>
      rw [found] at done
      obtain ⟨packet, station, tallies, calendar, made, here, rfl⟩ := sendPacket_eq_ok done
      have plane := plane?_of_station here
      let m : Moment := ⟨s.directory, s.timers, .packet packet flow.hint⟩
      have turn : (station.plane, m) ∈ s.moments (.packet index) := by simp [moments, found, made, plane, m]
      exact (all.keep (kept _ turn (all _ _ plane)) flow.source s.timers).congr rfl
  | opportunity =>
    have entered : (s.stations.keys.foldl transmit s).scheduleAll [(_, .opportunity)] = .ok t :=
      (scheduleAll_singleton _ _).trans done
    exact (transmitFrom kept all).congr (plane?_of_scheduleAll entered)
  | arrival node frame =>
    intro other p found
    rw [plane?_of_arrival done] at found
    split at found
    · obtain ⟨q, before, rfl⟩ := Option.map_eq_some_iff.1 found
      exact handed _ frame (all other q before)
    · exact all other p found
  | drainCheck node peer =>
    simp only [Simulation.perform] at done
    split at done
    · exact Except.ok.inj done ▸ all
    · rename_i station found
      have plane := plane?_of_station found
      let m : Moment := ⟨s.directory, s.timers, .drainCheck peer⟩
      have turn : (station.plane, m) ∈ s.moments (.drainCheck node peer) := by simp [moments, plane, m]
      exact Except.ok.inj done ▸ all.keep (kept _ turn (all node _ plane)) node _
  | pathSwitch node peer path clear =>
    simp only [Simulation.perform] at done
    split at done
    · exact Except.ok.inj done ▸ all
    · rename_i station found
      have plane := plane?_of_station found
      let m : Moment := ⟨s.directory, s.timers, .pathSwitch peer path clear⟩
      have turn : (station.plane, m) ∈ s.moments (.pathSwitch node peer path clear) := by simp [moments, plane, m]
      have switched := all.keep (kept _ turn (all node _ plane)) node
      exact Except.ok.inj done ▸ (switched _).congr (funext (plane?_record _ node _))

/-- With each event of a run, all stations keep what lasts. -/
theorem happens (lasting : Lasting s.directory s.packets P) (all : s.AtStations P) (happens : s.Happens event u) :
    u.AtStations P := by
  obtain ⟨t, next, done⟩ := happens
  have here : Lasting t.directory t.packets P ∧ t.AtStations P := by
    obtain ⟨_, _, -, -, -, rfl⟩ := next?_eq_some next
    exact ⟨lasting, all⟩
  refine perform (fun x member holds => ?_) here.1.deliver here.2 (handle_eq_ok_iff.1 done).1
  obtain ⟨same, stays, offered⟩ := mem_moments member
  exact here.1.react holds same stays offered

end AtStations
end Simulation
end Sidelink
