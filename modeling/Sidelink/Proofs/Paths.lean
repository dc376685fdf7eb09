import Sidelink.Proofs.Origins

/-!
The paths of frames. A unit for a peer leaves on the path that the peer is on at that point, for the next hop that this
path implies, but a buffer keeps the path of the unit that it was made for. Frames carry the path of their buffer, so
they are on the path of their unit exactly if no unit finds a buffer that was made on another path for the same next hop
(`DataPlane.paths_current_iff`). This cannot happen where no switch asks for the multicast path and the nodes that serve
a node are not among the peers that it reaches.
-/
namespace Sidelink

/-! ## Paths of peers -/

namespace PathSwitches
variable {ok : Path → Prop} {s t : PathSwitches}

/-- Whether all peers are on some paths only, and switch to no others. -/
structure Within (ok : Path → Prop) (s : PathSwitches) : Prop where
  current : ∀ peer, ok (s.currentPath peer)
  target : ∀ {peer target check}, s.phase peer = .switching target check → ok target

theorem Within.congr (within : s.Within ok) (paths : t.paths = s.paths) (phases : ∀ peer, t.phase peer = s.phase peer) :
    t.Within ok where
  current := fun peer => by
    rw [currentPath, paths]
    exact within.current peer
  target := fun {peer target check} switching => within.target ((phases peer).symm.trans switching)

theorem Within.setPhase (within : s.Within ok) (peer : NodeId) {target : Path} (allowed : ok target)
    (check : Option EventId) : (s.setPhase peer (.switching target check)).Within ok where
  current := within.current
  target := fun {other target' check'} switching => by
    rw [phase_insert (s := s) rfl] at switching
    split at switching
    · cases switching
      exact allowed
    · exact within.target switching

variable (links : PeerLinks) (buffers : TransmitBuffers) (timers : Timers) (peer : NodeId)

theorem Within.complete (within : s.Within ok) {path : Path} (allowed : ok path) :
    (s.complete links buffers timers peer path).switches.Within ok where
  current := fun other => by
    by_cases same : other = peer
    · subst same
      simpa [PathSwitches.complete, currentPath] using allowed
    · simpa [PathSwitches.complete, currentPath, SortedMap.get?_insert_of_ne _ same] using within.current other
  target := fun {other target' check'} switching => by
    rw [phase_insert (s := s) rfl] at switching
    split at switching
    · cases switching
    · exact within.target switching

/-- Whether a step of a switch ends on some paths only. -/
structure StepWithin (ok : Path → Prop) (step : SwitchStep) : Prop where
  switches : step.switches.Within ok
  done : ∀ done, step.completion = some done → ok done.path

theorem StepWithin.complete (within : s.Within ok) {path : Path} (allowed : ok path) :
    StepWithin ok (s.complete links buffers timers peer path) where
  switches := within.complete links buffers timers peer allowed
  done := fun done ended => by
    cases ended
    exact allowed

theorem stepWithin_reevaluate (within : s.Within ok) : StepWithin ok (s.reevaluate links buffers timers peer) := by
  have looked := looked_reevaluate s links buffers timers peer
  generalize s.reevaluate links buffers timers peer = step at looked
  cases looked with
  | calm still => exact ⟨within, fun done ended => by cases ended⟩
  | waits switching draining => exact ⟨within, fun done ended => by cases ended⟩
  | asks switching draining => exact ⟨within.setPhase peer (within.target switching) _, fun done ended => by cases ended⟩
  | ends switching drained => exact .complete links buffers _ peer within (within.target switching)

theorem stepWithin_checkFired (within : s.Within ok) : StepWithin ok (s.checkFired links buffers timers peer) := by
  rcases s.checkFired_eq links buffers timers peer with ⟨-, same⟩ | ⟨target, check, switching, looks⟩
  · rw [same]
    exact ⟨within, fun done ended => by cases ended⟩
  · rw [looks]
    exact stepWithin_reevaluate links buffers timers peer (within.setPhase peer (within.target switching) none)

theorem stepWithin_start (within : s.Within ok) {path : Path} (allowed : ok path) (clear : Bool) :
    StepWithin ok (s.start links buffers timers peer path clear) := by
  have begun : (s.begun peer path).Within ok := (within.setPhase peer allowed none).congr rfl fun other => rfl
  rw [start_eq]
  cases clear with
  | true =>
    simp only [if_true]
    refine .complete links _ _ peer ?_ allowed
    exact begun.congr rfl fun other => rfl
  | false => exact stepWithin_reevaluate links _ _ peer begun

end PathSwitches

namespace DataPlane
variable {ok : Path → Prop} {p q : DataPlane} {directory : Directory} {timers : Timers}

theorem within_ended (p : DataPlane) (directory : Directory) {step : SwitchStep}
    (within : PathSwitches.StepWithin ok step) :
    (p.applyStep directory step).1.switches.Within ok ∧ ∀ e ∈ p.ended directory step, ok e.done.path := by
  refine ⟨by rw [switches_applyStep]; exact within.switches, fun e member => ?_⟩
  obtain ⟨done, ended, rfl⟩ := List.mem_map.1 member
  exact within.done done (Option.mem_toList.1 ended)

theorem within_endingsOf (within : p.switches.Within ok) (directory : Directory) (timers : Timers)
    (peers : List NodeId) :
    (peers.foldl (fun (p, timers) peer => p.reevaluate directory timers peer) (p, timers)).1.switches.Within ok ∧
      ∀ e ∈ p.endingsOf directory timers peers, ok e.done.path := by
  induction peers generalizing p timers with
  | nil => exact ⟨within, fun e member => by cases member⟩
  | cons peer rest ih =>
    obtain ⟨first, ended⟩ := within_ended p directory
      (PathSwitches.stepWithin_reevaluate p.links p.buffers timers peer within)
    obtain ⟨after, later⟩ := ih first (p.reevaluate directory timers peer).2
    simp only [endingsOf, List.mem_append, List.foldl_cons]
    exact ⟨after, fun e member => member.elim (ended e) (later e)⟩

theorem within_sendOn (within : p.switches.Within ok) (directory : Directory) (timers : Timers) (route : Route)
    (unit : DeferredSdu) : (p.sendOn directory timers route unit).2.1.switches.Within ok := by
  unfold sendOn
  cases route.peer with
  | none =>
    simp only [switches_offer p route.nextHop route.path unit]
    exact within
  | some peer =>
    obtain ⟨looked, -⟩ := within_endingsOf within directory timers [peer]
    simp only [List.foldl_cons, List.foldl_nil] at looked
    simp only [sendToPeer]
    generalize (p.reevaluate directory timers peer).1 = q at looked
    have deferred : (q.switches.defer peer unit).2.Within ok := by
      unfold PathSwitches.defer
      split
      · exact looked
      · rename_i state found
        split
        · exact looked.congr rfl fun other => rfl
        · exact looked.congr rfl fun other => PathSwitches.phase_waited found _ other
    split
    · split <;> exact deferred
    · split
      · exact looked
      · rename_i hop _
        let linked : DataPlane := { q with links := q.links.add peer ⟨hop, unit.lcid⟩ }
        have same := switches_offer linked hop (q.switches.currentPath peer) unit
        simp only
        rw [same]
        exact looked

theorem path_of_leavingAll {peer : NodeId} {path : Path} {nextHop : Option NodeId} {units : List DeferredSdu}
    {x : Boarding} (member : x ∈ p.leavingAll directory peer path nextHop units) : x.path = path := by
  induction units generalizing p with
  | nil => cases member
  | cons d rest ih =>
    rw [leavingAll, List.mem_append] at member
    rcases member with own | later
    · obtain ⟨hop, -, rfl⟩ := List.mem_map.1 own
      rfl
    · exact ih later

theorem within_leaving (within : p.switches.Within ok) {route : Route} {unit : DeferredSdu} {x : Boarding}
    (member : x ∈ p.leaving directory timers route unit) {peer : NodeId} (way : x.way = .toPeer peer) : ok x.path := by
  unfold leaving at member
  cases peerIs : route.peer with
  | none =>
    rw [peerIs] at member
    obtain rfl := List.mem_singleton.1 member
    cases way
  | some own =>
    obtain ⟨looked, -⟩ := within_endingsOf within directory timers [own]
    simp only [List.foldl_cons, List.foldl_nil] at looked
    rw [peerIs] at member
    simp only at member
    generalize (p.reevaluate directory timers own).1 = q at looked member
    split at member
    · cases member
    · obtain ⟨hop, -, rfl⟩ := List.mem_map.1 member
      exact looked.current own

end DataPlane

/-- Whether no switch to other than some paths is asked for. -/
def Stimulus.Asks (ok : Path → Prop) : Stimulus → Prop
  | .pathSwitch _ path _ => ok path
  | _ => True

namespace DataPlane
variable {ok : Path → Prop} {p : DataPlane}

theorem within_react (direct : ok .direct) (within : p.switches.Within ok) {m : Moment} (asks : m.stimulus.Asks ok) :
    (p.react m).plane.switches.Within ok ∧ ∀ x ∈ p.boardingsAt m, ∀ peer, x.way = .toPeer peer → ok x.path := by
  have released {es : List Ending} (allowed : ∀ e ∈ es, ok e.done.path) :
      ∀ x ∈ es.flatMap Ending.leaving, ∀ peer, x.way = .toPeer peer → ok x.path := by
    intro x member peer _
    obtain ⟨e, ends, here⟩ := List.mem_flatMap.1 member
    rw [path_of_leavingAll here]
    exact allowed e ends
  obtain ⟨directory, timers, stimulus⟩ := m
  have advanced : (p.advance timers.now).switches.Within ok := by rw [switches_advance]; exact within
  cases stimulus with
  | packet packet hint =>
    simp only [react, boardingsAt, endingsAt, leavingAt]
    rcases submit_spec p directory timers packet hint with
      ⟨missing, unnumbered⟩ | ⟨q, route, unit, found, numbered, sent⟩
    · rw [missing, unnumbered.switches]
      exact ⟨within, fun x member => by cases member⟩
    · have start : q.switches.Within ok := numbered.switches ▸ within
      rw [found, sent]
      refine ⟨within_sendOn start directory timers route unit, fun x member peer way => ?_⟩
      rcases List.mem_append.1 member with waited | own
      · exact released (within_endingsOf start directory timers _).2 x waited peer way
      · exact within_leaving start own way
  | control payload =>
    refine ⟨?_, fun x member peer way => ?_⟩
    · simp only [react, (switches_submitControl p directory timers payload).1]
      exact within
    · obtain ⟨-, -, serving, other⟩ := mem_leavingControl member
      cases way.symm.trans other
  | opportunity limit =>
    have start : (p.transmit timers.now limit).2.switches.Within ok := by rw [switches_transmit]; exact within
    obtain ⟨after, ended⟩ :=
      within_endingsOf start directory timers (p.transmit timers.now limit).2.switches.switchingPeers
    simp only [boardingsAt, endingsAt, leavingAt, List.append_nil]
    exact ⟨after, released ended⟩
  | drainCheck peer =>
    obtain ⟨after, ended⟩ := within_ended (p.advance timers.now) directory
      (PathSwitches.stepWithin_checkFired (p.advance timers.now).links (p.advance timers.now).buffers timers peer
        advanced)
    simp only [boardingsAt, endingsAt, leavingAt, List.append_nil]
    exact ⟨after, released ended⟩
  | pathSwitch peer path clear =>
    obtain ⟨after, ended⟩ := within_ended (p.advance timers.now) directory
      (PathSwitches.stepWithin_start (p.advance timers.now).links (p.advance timers.now).buffers timers peer advanced
        asks clear)
    simp only [boardingsAt, endingsAt, leavingAt, List.append_nil, react, switchPath, switches_replaceReceivers]
    exact ⟨after, released ended⟩
  | peerDeparted peer => exact ⟨within, fun x member => by cases member⟩
  | departed => exact ⟨⟨fun peer => direct, fun switching => by cases switching⟩, fun x member => by cases member⟩
  | arrival frame =>
    simp only [react, switches_deliver]
    exact ⟨within, fun x member => by cases member⟩

/-- A unit for a peer leaves on the direct path or on one that a switch of the run asked for. -/
theorem within_run (direct : ok .direct) (within : p.switches.Within ok) {ms : List Moment}
    (asks : ∀ m ∈ ms, m.stimulus.Asks ok) :
    ∀ x ∈ p.boardings ms, ∀ peer, x.way = .toPeer peer → ok x.path := by
  induction ms generalizing p with
  | nil => exact fun x member => by cases member
  | cons m rest ih =>
    obtain ⟨after, now⟩ := within_react direct within (asks m List.mem_cons_self)
    intro x member peer way
    rcases List.mem_append.1 member with here | later
    · exact now x here peer way
    · exact ih after (fun n known => asks n (List.mem_cons_of_mem _ known)) x later peer way

end DataPlane

/-! ## Where units go -/

/-- The ways of packets from a node that reaches peers directly. -/
inductive Way.Of (d : Directory) (node : NodeId) : Way → Prop
  | peer {peer : NodeId} (reaches : d.reaches node peer = true) : Way.Of d node (.toPeer peer)
  | served {serving : NodeId} (serves : d.serving? node = some serving) : Way.Of d node (.toHop serving .infrastructure)
  | group : Way.Of d node (.toHop node .multicast)

theorem Way.of_way? {d : Directory} {node : NodeId} {endpoints : Endpoints} {way : Way}
    (goes : d.way? node .peerDirect endpoints = some way) : way.Of d node := by
  have served (goes : (d.serving? node).map (fun serving => Way.toHop serving .infrastructure) = some way) :
      way.Of d node := by
    obtain ⟨serving, serves, rfl⟩ := Option.map_eq_some_iff.1 goes
    exact .served serves
  simp only [Directory.way?] at goes
  split at goes
  · cases goes
    exact .group
  · obtain ⟨destination, -, goes⟩ := Option.bind_eq_some_iff.1 goes
    split at goes
    · rename_i near
      cases goes
      exact .peer near
    · exact served goes

/-- Whether the nodes that serve a node are neither the node itself nor among those that it reaches, at any two moments,
and the node does not reach itself. -/
structure ServedApart (node : NodeId) (ms : List Moment) : Prop where
  others : ∀ m ∈ ms, ∀ serving, m.directory.serving? node = some serving → serving ≠ node
  unreached : ∀ m ∈ ms, ∀ serving, m.directory.serving? node = some serving →
    ∀ n ∈ ms, n.directory.reaches node serving = false
  alone : ∀ m ∈ ms, m.directory.reaches node node = false

/-- How the next hop of a unit follows from its path. -/
inductive Boarding.Goes (node : NodeId) (ms : List Moment) (x : Boarding) : Prop
  | direct {m : Moment} (member : m ∈ ms) (path : x.path = .direct) (reaches : m.directory.reaches node x.hop = true)
  | served {m : Moment} (member : m ∈ ms) (path : x.path = .infrastructure)
      (serving : m.directory.serving? node = some x.hop)
  | group (path : x.path = .multicast) (hop : x.hop = node)

/-- Two units for the same next hop go on the same path. -/
theorem Boarding.Goes.path_eq {node : NodeId} {ms : List Moment} {x y : Boarding} (apart : ServedApart node ms)
    (first : x.Goes node ms) (second : y.Goes node ms) (same : y.hop = x.hop) : y.path = x.path := by
  have unserved {m n : Moment} {hop : NodeId} (member : m ∈ ms) (other : n ∈ ms)
      (reaches : m.directory.reaches node hop = true) (serving : n.directory.serving? node = some hop) : False :=
    Bool.eq_false_iff.1 (apart.unreached n other hop serving m member) reaches
  have alone {m : Moment} {hop : NodeId} (member : m ∈ ms) (reaches : m.directory.reaches node hop = true)
      (own : hop = node) : False := Bool.eq_false_iff.1 (apart.alone m member) (own ▸ reaches)
  cases first with
  | direct member path reaches =>
    cases second with
    | direct _ path' _ => exact path'.trans path.symm
    | served member' _ serving => exact (unserved member member' reaches (same ▸ serving)).elim
    | group _ hop => exact (alone member reaches (same.symm.trans hop)).elim
  | served member path serving =>
    cases second with
    | direct member' _ reaches => exact (unserved member' member reaches (same ▸ serving)).elim
    | served _ path' _ => exact path'.trans path.symm
    | group _ hop => exact (apart.others _ member _ serving (same.symm.trans hop)).elim
  | group path hop =>
    cases second with
    | direct member' _ reaches => exact (alone member' reaches (same.trans hop)).elim
    | served member' _ serving => exact (apart.others _ member' _ serving (same.trans hop)).elim
    | group path' _ => exact path'.trans path.symm

namespace DataPlane
variable {p : DataPlane} {node : NodeId} {role : Role} {settings : PlaneSettings}

theorem within_new {ok : Path → Prop} (direct : ok .direct) (made : new node role settings = .ok p) :
    p.switches.Within ok := by
  obtain ⟨-, rfl⟩ := eq_of_new made
  exact ⟨fun peer => direct, fun switching => by cases switching⟩

/-- What leaves for a peer is not control traffic, and the node is one that reaches peers directly. -/
theorem traffic_of_toPeer (made : new node role settings = .ok p) {ms : List Moment} {x : Boarding}
    (member : x ∈ p.boardings ms) {peer : NodeId} (way : x.way = .toPeer peer) :
    x.unit.lcid ≠ .control ∧ role = .peerDirect := by
  cases (origin_run member).2 with
  | waited way waits =>
    rw [idle_new made] at waits
    cases waits
  | control there submitted unit other => cases way.symm.trans other
  | @packet n numbered unit same =>
    refine ⟨unit ▸ traffic_of_numberings (sound_new made) numbered, ?_⟩
    obtain ⟨⟨m, -, goes⟩, -⟩ := mem_numberings numbered
    rw [same, way, role_new made] at goes
    exact Directory.peerDirect_of_toPeer goes

/-- A node that reaches peers directly sends the units of packets where their paths lead, if no peer is to switch to the
multicast path. -/
theorem goes_of_boarding (made : new node .peerDirect settings = .ok p) {ms : List Moment}
    (asks : ∀ m ∈ ms, m.stimulus.Asks (· ≠ .multicast)) {x : Boarding} (member : x ∈ p.boardings ms)
    (traffic : x.unit.lcid ≠ .control) : x.Goes node ms := by
  obtain ⟨n, numbered, -, way⟩ := numbered_of_boarding made member traffic
  obtain ⟨⟨m, there, goes⟩, -⟩ := mem_numberings numbered
  obtain ⟨⟨m', here, led⟩, -⟩ := origin_run member
  rw [way, node_new made, role_new made] at goes
  have leads := led.leads
  cases wayIs : x.way with
  | toHop hop path =>
    rw [wayIs] at goes leads
    obtain ⟨hopIs, pathIs⟩ := leads
    cases Way.of_way? goes with
    | served serving => exact .served there pathIs.symm (hopIs ▸ serving)
    | group => exact .group pathIs.symm hopIs.symm
  | toPeer peer =>
    rw [wayIs] at goes leads
    cases Way.of_way? goes with | peer reaches =>
    obtain ⟨-, -, next⟩ := leads
    have notGroup : x.path ≠ .multicast := within_run (by decide) (within_new (by decide) made) asks x member peer wayIs
    cases path : x.path with
    | multicast => exact absurd path notGroup
    | direct =>
      rw [path] at next
      exact .direct there path (Option.some.inj next ▸ reaches)
    | infrastructure =>
      rw [path, RoutingView.nextHop?, view, led.node, node_new made, led.directory] at next
      exact .served here path next

/-! ## Buffers of other paths -/

/-- Whether a unit finds a buffer that was made for a unit on another path, and the buffer takes it. -/
structure Diverts (p : DataPlane) (ms : List Moment) (x : Boarding) : Prop where
  taken : x.admitted ≠ []
  other : ∃ y ∈ p.boardings ms, y.Founds ∧ y.key = x.key ∧ x.plane.nature x.key = some y.nature ∧ y.path ≠ x.path

/-- Whether all that buffers take of units for peers is sent on the paths of these units. -/
def Straight (p : DataPlane) (ms : List Moment) : Prop :=
  ∀ x ∈ p.boardings ms, ∀ peer, x.way = .toPeer peer → ∀ a ∈ x.admitted, a.path = x.path

theorem straight_iff (made : new node role settings = .ok p) (ms : List Moment) :
    p.Straight ms ↔ ∀ x ∈ p.boardings ms, ∀ peer, x.way = .toPeer peer → ¬ p.Diverts ms x := by
  constructor
  · rintro straight x boards peer way ⟨taken, y, -, founds, key, finds, other⟩
    obtain ⟨a, member⟩ := List.exists_mem_of_ne_nil _ taken
    have own := straight x boards peer way a member
    obtain ⟨-, z, -, makes, rfl | found⟩ := maker_of_admitted made boards member
    · have founds : z.plane.nature z.key = none := makes.founds
      rw [finds] at founds
      cases founds
    · have same : y.nature = (a.mode, a.path) := Option.some.inj (finds.symm.trans found)
      exact other ((congrArg Prod.snd same).trans own)
  · intro undiverted x boards peer way a member
    obtain ⟨-, y, there, makes, rfl | found⟩ := maker_of_admitted made boards member
    · exact (congrArg Prod.snd makes.nature).symm
    · have agrees : y.path = x.path := Classical.byContradiction fun other =>
        undiverted x boards peer way
          ⟨List.ne_nil_of_mem member, y, there, makes.founds, makes.key, makes.nature ▸ found, other⟩
      exact (congrArg Prod.snd makes.nature).symm.trans agrees

/-- Units stay on their paths if no peer is to switch to the multicast path and the nodes that serve a node are apart
from those that it reaches. -/
theorem straight_of_apart (made : new node role settings = .ok p) {ms : List Moment}
    (asks : ∀ m ∈ ms, m.stimulus.Asks (· ≠ .multicast)) (apart : ServedApart node ms) : p.Straight ms := by
  refine (straight_iff made ms).2 fun x boards peer way ⟨_, y, there, _, key, _, other⟩ => ?_
  obtain ⟨traffic, rfl⟩ := traffic_of_toPeer made boards way
  obtain ⟨hop, lcid⟩ := EntityKey.mk.inj key
  have goes := goes_of_boarding made asks boards traffic
  have goes' := goes_of_boarding made asks there (lcid ▸ traffic)
  exact other (goes.path_eq apart goes' hop)

/-- Frames carry what buffers took. A unit for a peer leaves on the path that its peer is on at that point, for the next
hop that this path implies, and its frames are for that next hop. They are on that path too exactly if no unit finds a
buffer that was made on another path. So it is if no peer is to switch to the multicast path and the nodes that serve the
node are apart from those that it reaches. -/
theorem paths_current_iff (made : new node role settings = .ok p) (ms : List Moment) :
    (∀ key, ((p.sent ms).filter (·.key = key)).Sublist
      ((((p.boardings ms).flatMap Boarding.admitted).filter (·.key = key)).flatMap
        (Admission.frames node settings.link))) ∧
      (∀ x ∈ p.boardings ms, ∀ peer, x.way = .toPeer peer →
        x.path = x.plane.switches.currentPath peer ∧ (x.plane.view x.directory).nextHop? peer x.path = some x.hop ∧
          ∀ a ∈ x.admitted, a.key.node = x.hop) ∧
      (p.Straight ms ↔ ∀ x ∈ p.boardings ms, ∀ peer, x.way = .toPeer peer → ¬ p.Diverts ms x) ∧
      ((∀ m ∈ ms, m.stimulus.Asks (· ≠ .multicast)) → ServedApart node ms → p.Straight ms) := by
  refine ⟨fun key => ?_, fun x boards peer way => ?_, straight_iff made ms, straight_of_apart made⟩
  · obtain ⟨effects, ⟨-, admitted, sent⟩, sound⟩ := sound_run made ms
    have order := (List.sublist_append_left _ _).trans (sound.served.order key)
    rw [sentAt, admittedAt, sent, admitted, admitted_eq] at order
    exact order
  · obtain ⟨⟨m, -, led⟩, -⟩ := origin_run boards
    have leads := led.leads
    rw [way] at leads
    obtain ⟨-, current, next⟩ := leads
    refine ⟨current, next, fun a member => ?_⟩
    rw [(maker_of_admitted made boards member).1]
    rfl

/-- The second node is served by a third. The first sends to the second directly, then through the third, then directly
again. -/
def detour : List Moment :=
  [.packet .hello "voice", .opportunity 4, .pathSwitch ⟨2⟩ .infrastructure false, .packet .hello "voice", .opportunity 4,
    .pathSwitch ⟨2⟩ .direct false, .packet .hello "voice", .opportunity 4].map fun stimulus =>
      ⟨laterDirectory, ⟨0, 0, []⟩, stimulus⟩

theorem paths_current_iff_at_detour :
    new ⟨1⟩ .peerDirect .default = .ok (fresh 1) ∧ (∀ m ∈ detour, m.stimulus.Asks (· ≠ .multicast)) ∧
      ServedApart ⟨1⟩ detour ∧
      ((fresh 1).boardings detour).map (fun x => (x.hop, x.path)) =
        [(⟨2⟩, .direct), (⟨3⟩, .infrastructure), (⟨2⟩, .direct)] ∧
      ((fresh 1).sent detour).map (fun f => (f.envelope.nextHop, f.envelope.path)) =
        [(⟨2⟩, .direct), (⟨3⟩, .infrastructure), (⟨2⟩, .direct)] ∧
      (fresh 1).Straight detour := by
  have asks : ∀ m ∈ detour, m.stimulus.Asks (· ≠ .multicast) := by
    simp [detour, Stimulus.Asks]
  have around : ∀ m ∈ detour, m.directory = laterDirectory := by
    rintro m member
    obtain ⟨stimulus, -, rfl⟩ := List.mem_map.1 member
    rfl
  have served {m : Moment} (member : m ∈ detour) {serving : NodeId} (serves : m.directory.serving? ⟨1⟩ = some serving) :
      serving = ⟨3⟩ := by
    rw [around m member] at serves
    exact (Option.some.inj serves).symm
  have apart : ServedApart ⟨1⟩ detour := by
    refine ⟨fun m member serving serves => ?_, fun m member serving serves n other => ?_, fun m member => ?_⟩
    · rw [served member serves]
      decide
    · rw [served member serves, around n other]
      decide +kernel
    · rw [around m member]
      decide +kernel
  exact ⟨new_fresh.1, asks, apart, by decide +kernel, by decide +kernel,
    (paths_current_iff new_fresh.1 detour).2.2.2 asks apart⟩

/-- The directory of two nodes, of which the second serves the first. -/
def relayDirectory : Directory := ((Directory.pair.serve ⟨1⟩ ⟨2⟩).toOption).getD default

/-- The first node sends a packet to the second, begins to switch its path, sends a packet that waits for the switch, and
sends all that it has, at two moments. -/
def switchTo (d : Directory) (path : Path) : List Moment :=
  [.packet .hello "voice", .pathSwitch ⟨2⟩ path false, .packet .hello "voice", .opportunity 4, .opportunity 4].map
    fun stimulus => ⟨d, ⟨0, 0, []⟩, stimulus⟩

/-- The second packet leaves when the switch to another path is done, and is sent on the path of the first packet: where
the second node serves the first one and the infrastructure leads to it, and where the multicast path does. -/
theorem path_kept_at_switch :
    let served := switchTo relayDirectory .infrastructure
    let group := switchTo .pair .multicast
    new ⟨1⟩ .peerDirect .default = .ok (fresh 1) ∧
      ((fresh 1).boardings served).map (fun x => (x.unit.sn, x.hop, x.plane.switches.currentPath ⟨2⟩)) =
        [(0, ⟨2⟩, .direct), (1, ⟨2⟩, .infrastructure)] ∧
      ((fresh 1).sent served).map (·.bytes) =
        (PlaneSettings.default.link.pdus .unacknowledged 0 (Packet.hello.unit .default 0) ++
          PlaneSettings.default.link.pdus .unacknowledged 1 (Packet.hello.unit .default 1)) ∧
      ((fresh 1).sent served).map (·.envelope.path) = [.direct, .direct] ∧
      ((fresh 1).boardings group).map (fun x => (x.unit.sn, x.hop, x.plane.switches.currentPath ⟨2⟩)) =
        [(0, ⟨2⟩, .direct), (1, ⟨2⟩, .multicast)] ∧
      ((fresh 1).sent group).map (·.envelope.path) = [.direct, .direct] ∧
      ¬ (fresh 1).Straight served ∧ ¬ (fresh 1).Straight group := by
  intro served group
  let told (x : Boarding) := (x.way, x.path, x.admitted.map (·.path))
  have apart {ms : List Moment} (path : Path) (other : path ≠ .direct)
      (second : (.toPeer ⟨2⟩, path, [.direct]) ∈ ((fresh 1).boardings ms).map told) : ¬ (fresh 1).Straight ms := by
    intro straight
    obtain ⟨x, boards, tells⟩ := List.mem_map.1 second
    obtain ⟨way, rfl, taken⟩ : x.way = .toPeer ⟨2⟩ ∧ x.path = path ∧ x.admitted.map (·.path) = [.direct] := by
      simpa only [told, Prod.mk.injEq] using tells
    obtain ⟨a, member, direct⟩ := List.mem_map.1 (taken ▸ List.mem_singleton.2 rfl)
    exact other ((straight x boards ⟨2⟩ way a member).symm.trans direct)
  exact ⟨new_fresh.1, by decide +kernel, by decide +kernel, by decide +kernel, by decide +kernel, by decide +kernel,
    apart .infrastructure (by decide) (by decide +kernel), apart .multicast (by decide) (by decide +kernel)⟩

end DataPlane
end Sidelink
