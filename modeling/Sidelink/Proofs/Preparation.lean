import Sidelink.Proofs.Happenings
import Sidelink.Simulation.Setup

/-!
How a simulation begins. A coherent scenario names none but its own nodes, so their directory is closed, and every node
gets a station (`Directory.Lists`, `Stations`). The events that it begins with are entered one after the other
(`Simulation.ofScenario_eq`). Hence a simulation that was set up is in order, and what is due in it are these events
(`Simulation.Ready`).
-/
namespace Sidelink
open Simulation (Event)

/-! ## Coherent scenarios -/

theorem PlaneSettings.drainInterval_ne_zero {settings : PlaneSettings} (faultless : settings.fault? = none) :
    settings.drainInterval ≠ 0 := by
  intro zero
  simp only [fault?, Option.or_eq_none_iff, zero, if_true] at faultless
  obtain ⟨-, -, last⟩ := faultless
  split at last <;> cases last

namespace Scenario

/-- What a scenario without a fault keeps to. -/
structure Coherent (scenario : Scenario) : Prop where
  serving : ∀ node ∈ scenario.nodes, ∀ serving, node.serving = some serving → ∃ n ∈ scenario.nodes, n.id = serving
  periods : ∀ flow ∈ scenario.flows, flow.periodMs ≠ 0
  interval : scenario.run.intervalMs ≠ 0

theorem coherent_of_faultless {scenario : Scenario} (faultless : scenario.fault? = none) : scenario.Coherent := by
  simp only [fault?, Option.or_eq_none_iff, List.findSome?_eq_none_iff] at faultless
  obtain ⟨-, nodes, flows, -, interval⟩ := faultless
  refine ⟨fun node member serving serves => ?_, fun flow member period => ?_, fun zero => by simp [zero] at interval⟩
  · obtain ⟨known, -⟩ := Option.or_eq_none_iff.1 (nodes node member)
    by_contra unknown
    have absent : serving ∉ scenario.nodes.map (·.id) := fun here => unknown (List.mem_map.1 here)
    rw [serves, Option.filter_some, if_pos (decide_eq_true absent)] at known
    cases known
  · have faultless := flows flow member
    rw [flowFault?] at faultless
    simp only [period, if_true] at faultless
    split at faultless <;> cases faultless

/-- The first packets of flows, numbered from an index on. -/
def packetsFrom (index : Nat) : List SimTime → List (SimTime × Event)
  | [] => []
  | start :: rest => (start, .packet index) :: packetsFrom (index + 1) rest

/-- A planned switch happens at both of its nodes. -/
def switchEvents (w : PlannedSwitch) : List (SimTime × Event) :=
  [(.ofMillis w.atMs, .pathSwitch w.first w.second w.path w.clear),
    (.ofMillis w.atMs, .pathSwitch w.second w.first w.path w.clear)]

/-- The events that a scenario begins with. -/
def firstEvents (scenario : Scenario) : List (SimTime × Event) :=
  let numbers := Random.numbers scenario.run.seed (scenario.flows.countP (·.startMs.isNone))
  packetsFrom 0 (Simulation.starts scenario.flows numbers) ++
    (0, .opportunity) :: scenario.switches.flatMap switchEvents

theorem mem_packetsFrom {index : Nat} {starts : List SimTime} {x : SimTime × Event}
    (member : x ∈ packetsFrom index starts) : ∃ flow, x.2 = .packet flow := by
  induction starts generalizing index with
  | nil => cases member
  | cons start rest ih =>
    rcases List.mem_cons.1 member with rfl | later
    · exact ⟨index, rfl⟩
    · exact ih later

theorem mem_firstEvents {scenario : Scenario} {x : SimTime × Event} (member : x ∈ scenario.firstEvents) :
    (∃ flow, x.2 = .packet flow) ∨ x.2 = .opportunity ∨
      ∃ node peer path clear, x.2 = .pathSwitch node peer path clear := by
  rcases List.mem_append.1 member with packet | other
  · exact Or.inl (mem_packetsFrom packet)
  · rcases List.mem_cons.1 other with rfl | switch
    · exact Or.inr (Or.inl rfl)
    · obtain ⟨w, -, here⟩ := List.mem_flatMap.1 switch
      rcases List.mem_pair.1 here with rfl | rfl
      · exact Or.inr (Or.inr ⟨_, _, _, _, rfl⟩)
      · exact Or.inr (Or.inr ⟨_, _, _, _, rfl⟩)

theorem opportunity_mem_firstEvents (scenario : Scenario) : (0, .opportunity) ∈ scenario.firstEvents :=
  List.mem_append_right _ List.mem_cons_self

end Scenario

/-! ## Directories and stations -/

namespace Directory
variable {d d' : Directory} {nodes : List ScenarioNode}

/-- Whether a directory lists the nodes of a scenario, and names no other but as a serving node. -/
structure Lists (d : Directory) (nodes : List ScenarioNode) : Prop where
  knows : ∀ id, d.Knows id ↔ ∃ node ∈ nodes, node.id = id
  owners : ∀ {host id}, d.owners.get? host = some id → d.Knows id
  serving : ∀ {id serving}, d.serving? id = some serving → ∃ node ∈ nodes, node.serving = some serving

theorem lists_empty : empty.Lists [] :=
  ⟨fun id => ⟨fun known => (by cases known), fun ⟨_, member, _⟩ => (by cases member)⟩, fun found => (by cases found),
    fun found => by cases found⟩

theorem Lists.register (lists : d.Lists nodes) {node : ScenarioNode}
    (registered : d.register (Simulation.recordOf node) = .ok d') : d'.Lists (nodes ++ [node]) := by
  rw [Directory.register] at registered
  split at registered
  · cases registered
  · obtain rfl := Except.ok.inj registered
    have knows (id : NodeId) : (d.nodes.insert node.id (Simulation.recordOf node)).contains id = true ↔
        id = node.id ∨ d.Knows id := SortedMap.contains_insert _ _ _ _
    refine ⟨fun id => (knows id).trans ?_, fun {host id} found => (knows id).2 ?_, fun {id serving} found => ?_⟩
    · rw [lists.knows]
      simp only [List.mem_append, List.mem_singleton, or_and_right, exists_or, exists_eq_left]
      exact or_comm.trans (or_congr_right eq_comm)
    · simp only [Simulation.recordOf] at found
      cases address : node.address with
      | none =>
        rw [address] at found
        exact Or.inr (lists.owners found)
      | some ip =>
        rw [address] at found
        by_cases same : host = ip
        · rw [same, SortedMap.get?_insert_self] at found
          exact Or.inl (Option.some.inj found).symm
        · rw [SortedMap.get?_insert_of_ne _ same] at found
          exact Or.inr (lists.owners found)
    · change ((d.nodes.insert node.id (Simulation.recordOf node)).get? id).bind (·.serving) = some serving at found
      by_cases same : id = node.id
      · rw [same, SortedMap.get?_insert_self] at found
        exact ⟨node, List.mem_append_right _ List.mem_cons_self, found⟩
      · rw [SortedMap.get?_insert_of_ne _ same] at found
        obtain ⟨n, member, serves⟩ := lists.serving found
        exact ⟨n, List.mem_append_left _ member, serves⟩

theorem Lists.congr (lists : d.Lists nodes) (same : d'.nodes = d.nodes) (owners : d'.owners = d.owners) :
    d'.Lists nodes := by
  obtain ⟨knows, named, serving⟩ := lists
  simp only [Knows, serving?, ← same, ← owners] at knows named serving
  exact ⟨knows, named, serving⟩

theorem lists_directoryOf (made : Simulation.directoryOf nodes = .ok d) : d.Lists nodes := by
  simp only [Simulation.directoryOf, bind, Except.bind] at made
  split at made
  · cases made
  · rename_i registered all
    obtain rfl := Except.ok.inj made
    have lists : registered.Lists nodes := holds_of_foldlM (P := fun nodes d => d.Lists nodes) lists_empty
      (fun lists registered => lists.register registered) all
    refine List.foldlRecOn (motive := fun d => Lists d nodes) nodes _ lists fun d lists node _ => ?_
    exact List.foldlRecOn (motive := fun d => Lists d nodes) node.peers _ lists fun d lists peer _ =>
      lists.congr rfl rfl

theorem Lists.closed {scenario : Scenario} (lists : d.Lists scenario.nodes) (coherent : scenario.Coherent) :
    d.Closed := by
  refine ⟨lists.owners, fun found => ?_⟩
  obtain ⟨node, member, serves⟩ := lists.serving found
  exact (lists.knows _).2 (coherent.serving node member _ serves)

end Directory

namespace Simulation

/-- Whether there are new stations for some nodes, and no others. -/
structure Stations (settings : PlaneSettings) (nodes : List ScenarioNode) (stations : SortedMap NodeId Station) :
    Prop where
  exist : ∀ id, stations.contains id = true ↔ ∃ node ∈ nodes, node.id = id
  new : ∀ {id station}, stations.get? id = some station → ∃ role, DataPlane.new id role settings = .ok station.plane

theorem stations_of_stationsOf {settings : PlaneSettings} {nodes : List ScenarioNode}
    {stations : SortedMap NodeId Station} (made : stationsOf settings nodes = .ok stations) :
    Stations settings nodes stations := by
  refine holds_of_foldlM (P := Stations settings) ?_ (fun {before node m m'} holds step => ?_) made
  · exact ⟨fun id => ⟨fun known => (by cases known), fun ⟨_, member, _⟩ => (by cases member)⟩,
      fun found => by cases found⟩
  · split at step
    · rename_i plane made
      obtain rfl := Except.ok.inj step
      refine ⟨fun id => (SortedMap.contains_insert _ _ _ _).trans ?_, fun {id station} found => ?_⟩
      · rw [holds.exist]
        simp only [List.mem_append, List.mem_singleton, or_and_right, exists_or, exists_eq_left]
        exact or_comm.trans (or_congr_right eq_comm)
      · by_cases same : id = node.id
        · rw [same, SortedMap.get?_insert_self] at found
          exact same ▸ ⟨node.role, Option.some.inj found ▸ made⟩
        · rw [SortedMap.get?_insert_of_ne _ same] at found
          exact holds.new found
    · cases step

/-! ## Simulations that are set up -/

variable {scenario : Scenario} {s : Simulation}

/-- The simulation of a scenario before any event was entered. -/
def bare (scenario : Scenario) : Except SimulationError Simulation := do
  if let some error := scenario.fault? then throw (.scenario error)
  let directory ← (directoryOf scenario.nodes).mapError .directory
  let stations ← stationsOf scenario.plane scenario.nodes
  return {
    scenario
    directory
    stations
    calendar := .empty
    tallies := scenario.flows.map (fun _ => FlowTally.empty)
    processed := 0 }

theorem scheduleFlows_eq (s : Simulation) (index : Nat) (starts : List SimTime) :
    s.scheduleFlows index starts = s.scheduleAll (Scenario.packetsFrom index starts) := by
  induction starts generalizing s index with
  | nil => rfl
  | cons start rest ih =>
    simp only [scheduleFlows, Scenario.packetsFrom, scheduleAll, List.foldlM_cons]
    exact bind_congr fun t => ih t (index + 1)

theorem scheduleSwitches_eq (s : Simulation) (switches : List PlannedSwitch) :
    switches.foldlM scheduleSwitch s = s.scheduleAll (switches.flatMap Scenario.switchEvents) := by
  induction switches generalizing s with
  | nil => rfl
  | cons w rest ih =>
    simp only [List.foldlM_cons, List.flatMap_cons, scheduleAll, List.foldlM_append, scheduleSwitch,
      Scenario.switchEvents, List.foldlM_nil, bind_pure]
    exact bind_congr ih

/-- Setting a simulation up is entering events. -/
theorem ofScenario_eq (scenario : Scenario) :
    ofScenario scenario = bare scenario >>= fun s => s.scheduleAll scenario.firstEvents := by
  have entered (s : Simulation) : s.scheduleAll scenario.firstEvents = _ := List.foldlM_append
  rw [funext entered]
  simp only [ofScenario, bare]
  cases scenario.fault? with
  | some error => rfl
  | none =>
    cases directoryOf scenario.nodes with
    | error error => rfl
    | ok directory =>
      simp only [bind, Except.bind]
      cases stationsOf scenario.plane scenario.nodes with
      | error error => rfl
      | ok stations =>
        simp only [scheduleFlows_eq, scheduleSwitches_eq]
        rfl

theorem stationsOf_eq_error {settings : PlaneSettings} {nodes : List ScenarioNode} {error : SimulationError}
    (failed : stationsOf settings nodes = .error error) : ∃ id fault, error = .node id fault := by
  obtain ⟨stations, node, failed⟩ := error_of_foldlM failed
  split at failed
  · cases failed
  · exact ⟨_, _, (Except.error.inj failed).symm⟩

/-- A scenario is refused, or it has no fault, and its nodes have a directory and stations. -/
theorem bare_cases (scenario : Scenario) :
    (∃ error, bare scenario = .error error ∧ ∀ past, error ≠ .past past) ∨
      ∃ directory stations, scenario.fault? = none ∧ directoryOf scenario.nodes = .ok directory ∧
        stationsOf scenario.plane scenario.nodes = .ok stations ∧
        bare scenario = .ok ⟨scenario, directory, stations, .empty, scenario.flows.map fun _ => .empty, 0⟩ := by
  unfold bare
  cases scenario.fault? with
  | some error => exact Or.inl ⟨.scenario error, rfl, by simp⟩
  | none =>
    cases directoryOf scenario.nodes with
    | error error => exact Or.inl ⟨.directory error, rfl, by simp⟩
    | ok directory =>
      cases built : stationsOf scenario.plane scenario.nodes with
      | error error =>
        obtain ⟨id, fault, rfl⟩ := stationsOf_eq_error built
        exact Or.inl ⟨.node id fault, rfl, by simp⟩
      | ok stations => exact Or.inr ⟨directory, stations, rfl, rfl, rfl, rfl⟩

theorem bare_eq_ok (made : bare scenario = .ok s) :
    ∃ directory stations, scenario.fault? = none ∧ directoryOf scenario.nodes = .ok directory ∧
      stationsOf scenario.plane scenario.nodes = .ok stations ∧
      s = ⟨scenario, directory, stations, .empty, scenario.flows.map fun _ => .empty, 0⟩ := by
  rcases bare_cases scenario with ⟨error, failed, -⟩ | ⟨directory, stations, faultless, lists, built, done⟩
  · cases failed.symm.trans made
  · exact ⟨directory, stations, faultless, lists, built, Except.ok.inj (made.symm.trans done)⟩

theorem coherent_bare (made : bare scenario = .ok s) : scenario.Coherent := by
  obtain ⟨_, _, faultless, -⟩ := bare_eq_ok made
  exact Scenario.coherent_of_faultless faultless

/-- A simulation in which nothing is due yet is in order. -/
theorem sound_bare (made : bare scenario = .ok s) : s.Sound := by
  have coherent := coherent_bare made
  obtain ⟨directory, stations, -, lists, built, rfl⟩ := bare_eq_ok made
  have lists := Directory.lists_directoryOf lists
  have built := stations_of_stationsOf built
  have new {node : NodeId} {p : DataPlane} (found : (stations.get? node).map Station.plane = some p) :
      ∃ role, DataPlane.new node role scenario.plane = .ok p := by
    obtain ⟨station, there, rfl⟩ := Option.map_eq_some_iff.1 found
    exact built.new there
  refine ⟨⟨Calendar.timely_empty, lists.closed coherent, fun node => ?_, fun {node p} found => ?_,
    fun {node} known => ?_, fun {node p} found => ?_, fun due => by cases due⟩, fun node p found => ?_⟩
  · rw [plane?, Option.isSome_map]
    exact (built.exist node).trans (lists.knows node).symm
  · obtain ⟨role, made⟩ := new found
    obtain ⟨-, rfl⟩ := DataPlane.eq_of_new made
    rfl
  · have exist := (built.exist node).2 ((lists.knows node).1 known)
    obtain ⟨station, found⟩ := (SortedMap.contains_eq_true_iff _ _).1 exist
    obtain ⟨role, made⟩ := built.new found
    exact PlaneSettings.drainInterval_ne_zero (DataPlane.eq_of_new made).1
  · obtain ⟨role, made⟩ := new found
    exact DataPlane.addressed_new directory made
  · obtain ⟨role, made⟩ := new found
    exact Attended.vigilant_new made

/-- A simulation that is ready to run. -/
structure Ready (scenario : Scenario) (s : Simulation) : Prop where
  sound : s.Sound
  coherent : scenario.Coherent
  now : s.calendar.now = 0
  dues : ∀ x, ¬ x.2.IsCheck → (x ∈ s.calendar.dues ↔ x ∈ scenario.firstEvents)
  scenario : s.scenario = scenario

theorem ready_ofScenario (made : ofScenario scenario = .ok s) : s.Ready scenario := by
  rw [ofScenario_eq] at made
  obtain ⟨t, empty, entered⟩ := ok_of_bind made
  have onward := onward_scheduleAll (sound_bare empty)
    (fun e member => by
      rintro ⟨_, _, check⟩
      rcases Scenario.mem_firstEvents member with ⟨_, is⟩ | is | ⟨_, _, _, _, is⟩ <;> cases is.symm.trans check)
    (fun e member => by
      rcases Scenario.mem_firstEvents member with ⟨_, is⟩ | is | ⟨_, _, _, _, is⟩ <;> exact is ▸ trivial) entered
  have coherent := coherent_bare empty
  obtain ⟨_, _, -, -, -, rfl⟩ := bare_eq_ok empty
  refine ⟨onward.sound, coherent, onward.now, fun x ordinary => ?_, onward.scenario⟩
  rw [onward.mem_dues_iff ordinary, Multiset.mem_coe, Calendar.dues_empty]
  exact or_iff_left (Multiset.notMem_zero x)

end Simulation

/-! ## Three nodes -/

/-- A base station and two nodes that it serves. The first of the two sends packets to the other, at first directly and
after a switch through the base station; the other sends a packet to everybody. -/
def Scenario.trio : Scenario where
  name := "trio"
  run := ⟨4, 1, 1, 4, 1⟩
  plane := .default
  nodes := [⟨⟨1⟩, .baseStation, none, none, .origin, []⟩, ⟨⟨2⟩, .peerDirect, none, some ⟨1⟩, .origin, [⟨3⟩]⟩,
    ⟨⟨3⟩, .peerDirect, none, some ⟨1⟩, ⟨3, 4, 0⟩, []⟩]
  flows := [⟨⟨2⟩, "token:3", "voice", 2, 4, 9, 9, some 0, none⟩,
    ⟨⟨3⟩, "broadcast", "safety-beacon", 4, 4, 9, 9, some 0, none⟩]
  switches := [⟨1, ⟨2⟩, ⟨3⟩, .infrastructure, false⟩]
  logLevel := none

/-- What can be told of a run of the three nodes that comes to its end. -/
def Scenario.inTrio {α : Type} (count : Nat) (tell : Simulation → α) : Option α :=
  match Simulation.ofScenario .trio with
  | .ok s =>
    match s.runFor count with
    | .ok (some _) => some (tell s)
    | .ok none | .error _ => none
  | .error _ => none

theorem Scenario.inTrio_eq_some {α : Type} {count : Nat} {tell : Simulation → α} {told : α}
    (ran : inTrio count tell = some told) :
    ∃ s t, Simulation.ofScenario .trio = .ok s ∧ s.runFor count = .ok (some t) ∧ tell s = told := by
  unfold inTrio at ran
  split at ran
  · rename_i s made
    split at ran
    · rename_i t finished
      exact ⟨s, t, made, finished, Option.some.inj ran⟩
    all_goals cases ran
  · cases ran

end Sidelink
