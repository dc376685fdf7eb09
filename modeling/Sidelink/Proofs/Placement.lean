import Sidelink.Proofs.Routes
import Sidelink.Proofs.Units

/-!
Where the frames of a connection wait, as long as the directory stays the same. A connection then belongs to one way
(`DataPlane.Takes`), its buffers hold exactly while the peer of that way switches, and otherwise only the buffer of
the peer's current path has anything to send (`Placed`). So at most one buffer of a connection is not empty, and the
frames of the connection leave in the order in which their units were taken (`InLine`), which is the order of their
numbers (`DataPlane.sent_in_order`).
-/
namespace Sidelink

/-! ## The way of a connection -/

/-- The way of packets between some endpoints. It does not depend on the path that a peer is on. -/
def Directory.way? (d : Directory) (node : NodeId) (role : Role) (endpoints : Endpoints) : Option Way :=
  let serving := (d.serving? node).map fun serving => Way.toHop serving .infrastructure
  match role with
  | .mobile => serving
  | .baseStation => (d.resolve? endpoints.address).map fun destination =>
    .toHop (match d.serving? destination with
      | some relay => if relay ≠ node then relay else destination
      | none => destination) .infrastructure
  | .peerDirect =>
    if endpoints.isGroup then some (.toHop node .multicast)
    else (d.resolve? endpoints.address).bind fun destination =>
      if d.reaches node destination then some (.toPeer destination) else serving

/-- Only a node that reaches peers directly sends packets to a peer. -/
theorem Directory.peerDirect_of_toPeer {d : Directory} {node peer : NodeId} {role : Role} {endpoints : Endpoints}
    (goes : d.way? node role endpoints = some (.toPeer peer)) : role = .peerDirect := by
  cases role with
  | mobile => simp [Directory.way?] at goes
  | baseStation => simp [Directory.way?] at goes
  | peerDirect => rfl

namespace RoutingView
variable {v : RoutingView} {packet : Packet} {route : Route}

/-- Every route of a packet goes the way of its endpoints. -/
theorem way_of_route {role : Role} (routed : v.route role packet = .ok route) :
    v.directory.way? v.node role packet.endpoints = some route.way := by
  obtain ⟨direction, handles⟩ := exists_handles routed
  cases handles with
  | served serves => simp [Directory.way?, Route.way, serves]
  | @down destination known =>
    rw [destination?] at known
    cases serves : v.directory.serving? destination with
    | none => simp [Directory.way?, Route.way, known, serves]
    | some relay =>
      by_cases own : relay = v.node <;> simp [Directory.way?, Route.way, known, serves, own, Option.filter_some]
  | group many => simp [Directory.way?, Route.way, many]
  | peer single known near leads =>
    rw [destination?] at known
    simp [Directory.way?, Route.way, single, known, near]
  | distant single known far serves =>
    rw [destination?] at known
    simp [Directory.way?, Route.way, single, known, far, serves]

end RoutingView

namespace DataPlane
variable {p q : DataPlane} {directory : Directory}

/-- Whether the packets of a connection go a way. Control traffic goes to the serving node. -/
def Takes (p : DataPlane) (directory : Directory) (l : Lcid) (way : Way) : Prop :=
  (l = .control ∧ ∃ hop path, way = .toHop hop path) ∨
    ∃ endpoints direction, p.flows.lookup? (.ofEndpoints endpoints direction) = some l ∧
      directory.way? p.node p.role endpoints = some way

theorem takes_unique (valid : p.flows.Valid) {l : Lcid} (traffic : l ≠ .control) {way way' : Way}
    (one : p.Takes directory l way) (other : p.Takes directory l way') : way = way' := by
  rcases one with ⟨control, -⟩ | ⟨endpoints, direction, found, goes⟩
  · exact absurd control traffic
  · rcases other with ⟨control, -⟩ | ⟨endpoints', direction', found', goes'⟩
    · exact absurd control traffic
    · rw [FlowKey.endpoints_inj (valid.apart found found')] at goes
      exact Option.some.inj (goes.symm.trans goes')

theorem traffic_of_takes (valid : p.flows.Valid) {l : Lcid} {peer : NodeId}
    (takes : p.Takes directory l (.toPeer peer)) : l ≠ .control := by
  rcases takes with ⟨-, hop, path, same⟩ | ⟨endpoints, direction, found, -⟩
  · cases same
  · exact FlowTable.not_control_of_lookup? valid found

/-- The way to a peer is the only way of its connections. -/
theorem takes_toPeer (valid : p.flows.Valid) {l : Lcid} {peer : NodeId} {way : Way}
    (takes : p.Takes directory l (.toPeer peer)) (other : p.Takes directory l way) : way = .toPeer peer :=
  takes_unique valid (traffic_of_takes valid takes) other takes

theorem Takes.mono {l : Lcid} {way : Way} (takes : p.Takes directory l way) (node : q.node = p.node)
    (role : q.role = p.role) (kept : ∀ {key l}, p.flows.lookup? key = some l → q.flows.lookup? key = some l) :
    q.Takes directory l way := by
  refine takes.imp_right ?_
  rintro ⟨endpoints, direction, found, goes⟩
  exact ⟨endpoints, direction, kept found, by rw [node, role]; exact goes⟩

end DataPlane

/-! ## Where units wait -/

/-- Whether everything that is under way is where it belongs. -/
structure Placed (directory : Directory) (s : Stage) : Prop where
  tasks : ∀ task ∈ s.tasks, s.plane.Takes directory task.unit.lcid task.way
  waiting : ∀ peer, ∀ unit ∈ s.deferred peer, s.plane.Takes directory unit.lcid (.toPeer peer)
  links : ∀ {peer k}, s.plane.links.Joins peer k → s.plane.Takes directory k.lcid (.toPeer peer)
  buffers : ∀ {k b}, s.plane.buffers.get? k = some b →
    (∃ peer, s.plane.links.Joins peer k) ∨ ∃ path, s.plane.Takes directory k.lcid (.toHop k.node path)
  /-- Buffers hold while the peer that they carry traffic to switches, and at no other time. -/
  holding : ∀ {k b}, s.plane.buffers.get? k = some b →
    (b.holding = true ↔ ∃ peer, s.plane.links.Joins peer k ∧ s.plane.switches.isSwitching peer = true)
  /-- While a peer does not switch, frames for it wait on its current path only. -/
  place : ∀ {peer k b}, s.plane.links.Joins peer k → s.plane.switches.isSwitching peer = false →
    s.plane.buffers.get? k = some b → b.queue ≠ [] →
      (s.plane.view directory).nextHop? peer (s.plane.switches.currentPath peer) = some k.node

theorem nextHop?_congr {p q : DataPlane} (directory : Directory) (node : q.node = p.node) (peer : NodeId)
    (path : Path) : (q.view directory).nextHop? peer path = (p.view directory).nextHop? peer path := by
  cases path <;> simp only [RoutingView.nextHop?, DataPlane.view, node]

namespace Placed
variable {directory : Directory} {a b : Stage}

/-- A change that leaves buffers, links and switches alone. -/
theorem of_same (placed : Placed directory a) (node : b.plane.node = a.plane.node) (role : b.plane.role = a.plane.role)
    (kept : ∀ {key l}, a.plane.flows.lookup? key = some l → b.plane.flows.lookup? key = some l)
    (buffers : b.plane.buffers = a.plane.buffers) (links : b.plane.links = a.plane.links)
    (switching : ∀ peer, b.plane.switches.isSwitching peer = a.plane.switches.isSwitching peer)
    (paths : b.plane.switches.paths = a.plane.switches.paths)
    (tasks : ∀ task ∈ b.tasks, task ∈ a.tasks ∨ b.plane.Takes directory task.unit.lcid task.way)
    (waiting : ∀ peer, ∀ unit ∈ b.deferred peer,
      unit ∈ a.deferred peer ∨ a.plane.Takes directory unit.lcid (.toPeer peer)) : Placed directory b where
  tasks := fun task member => by
    rcases tasks task member with old | new
    · exact (placed.tasks task old).mono node role kept
    · exact new
  waiting := fun peer unit member => by
    rcases waiting peer unit member with old | new
    · exact (placed.waiting peer unit old).mono node role kept
    · exact new.mono node role kept
  links := fun joined => by
    rw [links] at joined
    exact (placed.links joined).mono node role kept
  buffers := fun found => by
    rw [buffers] at found
    rw [links]
    refine (placed.buffers found).imp_right ?_
    rintro ⟨path, takes⟩
    exact ⟨path, takes.mono node role kept⟩
  holding := fun found => by
    rw [buffers] at found
    simp only [links, switching]
    exact placed.holding found
  place := fun {peer k b'} joined still found some_queue => by
    rw [links] at joined
    rw [switching] at still
    rw [buffers] at found
    have path : b.plane.switches.currentPath peer = a.plane.switches.currentPath peer := by
      rw [PathSwitches.currentPath, paths, PathSwitches.currentPath]
    rw [nextHop?_congr directory node, path]
    exact placed.place joined still found some_queue

variable {p : DataPlane} {tasks : List Task}

theorem of_offer {task : Task} {hop : NodeId} {path : Path} (valid : p.flows.Valid)
    (placed : Placed directory ⟨p, task :: tasks⟩) (leads : p.Leads directory hop path task.way) :
    Placed directory ⟨(p.join task.way ⟨hop, task.unit.lcid⟩).stored hop path task.unit, tasks⟩ := by
  have takes : p.Takes directory task.unit.lcid task.way := placed.tasks task List.mem_cons_self
  -- The new link is one to the peer of the way, and that peer does not switch.
  have joins {peer : NodeId} {k : EntityKey} :
      (p.join task.way ⟨hop, task.unit.lcid⟩).links.Joins peer k ↔
        (task.way = .toPeer peer ∧ k = ⟨hop, task.unit.lcid⟩) ∨ p.links.Joins peer k := by
    cases way : task.way with
    | toPeer other =>
      simp only [DataPlane.join, PeerLinks.joins_add, Way.toPeer.injEq]
      rw [eq_comm (a := peer)]
    | toHop hop' path' => simp [DataPlane.join]
  have still {peer : NodeId} (way : task.way = .toPeer peer) : p.switches.isSwitching peer = false := by
    rw [way] at leads
    exact leads.1
  have owner {peer : NodeId} (joined : p.links.Joins peer ⟨hop, task.unit.lcid⟩) : task.way = .toPeer peer :=
    DataPlane.takes_toPeer valid (placed.links joined) takes
  refine ⟨fun t member => placed.tasks t (List.mem_cons_of_mem _ member), placed.waiting, ?_, ?_, ?_, ?_⟩
  · intro peer k joined
    rcases joins.1 joined with ⟨way, rfl⟩ | old
    · exact way ▸ takes
    · exact placed.links old
  · intro k b found
    by_cases same : k = ⟨hop, task.unit.lcid⟩
    · subst same
      cases way : task.way with
      | toPeer peer =>
        rw [way] at joins
        exact Or.inl ⟨peer, joins.2 (Or.inl ⟨rfl, rfl⟩)⟩
      | toHop hop' path' =>
        rw [way] at leads takes
        exact Or.inr ⟨path', leads.1 ▸ takes⟩
    · have before : p.buffers.get? k = some b := (SortedMap.get?_insert_of_ne _ same _).symm.trans found
      refine (placed.buffers before).imp_left ?_
      rintro ⟨peer, joined⟩
      exact ⟨peer, joins.2 (Or.inr joined)⟩
  · intro k b found
    by_cases same : k = ⟨hop, task.unit.lcid⟩
    · subst same
      have is : b.holding = (p.bufferFor hop path task.unit).holding := by
        rw [DataPlane.stored, SortedMap.get?_insert_self] at found
        rw [← Option.some.inj found]
        exact (DataPlane.offer_unchanged _ _ _ _).2.2.2
      have quiet : ¬ ∃ peer, p.links.Joins peer ⟨hop, task.unit.lcid⟩ ∧ p.switches.isSwitching peer = true := by
        rintro ⟨peer, joined, switching⟩
        exact Bool.noConfusion ((still (owner joined)).symm.trans switching)
      have free : (p.bufferFor hop path task.unit).holding = false := by
        rw [DataPlane.bufferFor]
        cases known : p.buffers.get? ⟨hop, task.unit.lcid⟩ with
        | none => rfl
        | some b => exact Bool.not_eq_true _ ▸ fun holds => quiet ((placed.holding known).1 holds)
      rw [is, free]
      refine ⟨fun h => Bool.noConfusion h, ?_⟩
      rintro ⟨peer, joined, switching⟩
      rcases joins.1 joined with ⟨way, -⟩ | old
      · exact Bool.noConfusion ((still way).symm.trans switching)
      · exact absurd ⟨peer, old, switching⟩ quiet
    · have before : p.buffers.get? k = some b := (SortedMap.get?_insert_of_ne _ same _).symm.trans found
      refine (placed.holding before).trans (exists_congr fun peer => and_congr_left fun _ => ?_)
      refine ⟨fun old => joins.2 (Or.inr old), fun joined => ?_⟩
      rcases joins.1 joined with ⟨-, here⟩ | old
      · exact absurd here same
      · exact old
  · intro peer k b joined quiet found some_queue
    by_cases same : k = ⟨hop, task.unit.lcid⟩
    · subst same
      have way : task.way = .toPeer peer := (joins.1 joined).elim And.left owner
      rw [way] at leads
      obtain ⟨-, rfl, goes⟩ := leads
      exact goes
    · have before : p.buffers.get? k = some b := (SortedMap.get?_insert_of_ne _ same _).symm.trans found
      rcases joins.1 joined with ⟨-, here⟩ | old
      · exact absurd here same
      · exact placed.place old quiet before some_queue

/-- A switch of a peer that begins or is done: the peer's buffers hold just as long as it switches, and they are empty
when it is done. -/
theorem of_switch {peer : NodeId} {more : List Task} (placed : Placed directory ⟨p, tasks⟩)
    (f : TransmitBuffer → TransmitBuffer) (switches : PathSwitches) (valid : p.flows.Valid)
    (holds : ∀ b, (f b).holding = switches.isSwitching peer)
    (queue : ∀ b, (f b).queue = b.queue)
    (drained : switches.isSwitching peer = false →
      ∀ {k b}, p.links.Joins peer k → p.buffers.get? k = some b → b.queue = [])
    (switching : ∀ other, other ≠ peer → switches.isSwitching other = p.switches.isSwitching other)
    (paths : ∀ other, other ≠ peer → switches.currentPath other = p.switches.currentPath other)
    (after : ∀ task ∈ more, p.Takes directory task.unit.lcid task.way)
    (waiting : ∀ other, ∀ unit ∈ switches.deferred other, p.Takes directory unit.lcid (.toPeer other)) :
    Placed directory ⟨{ p with switches }.onBuffers (p.links.keys peer) f, more⟩ := by
  have buffer {k : EntityKey} {b : TransmitBuffer}
      (found : ({ p with switches }.onBuffers (p.links.keys peer) f).buffers.get? k = some b) :
      ∃ b', p.buffers.get? k = some b' ∧ b.queue = b'.queue ∧
        b.holding = if k ∈ p.links.keys peer then switches.isSwitching peer else b'.holding := by
    rw [DataPlane.onBuffers, TransmitBuffers.get?_onKeys] at found
    obtain ⟨b', before, rfl⟩ := Option.map_eq_some_iff.1 found
    refine ⟨b', before, ?_, ?_⟩
    · split
      · exact queue b'
      · rfl
    · split
      · exact holds b'
      · rfl
  refine ⟨after, waiting, placed.links, ?_, ?_, ?_⟩
  · intro k b found
    obtain ⟨b', before, -⟩ := buffer found
    exact placed.buffers before
  · intro k b found
    obtain ⟨b', before, -, is⟩ := buffer found
    rw [is]
    by_cases own : p.links.Joins peer k
    · rw [if_pos ((PeerLinks.mem_keys_iff _ _ _).2 own)]
      constructor
      · exact fun busy => ⟨peer, own, busy⟩
      · rintro ⟨other, joined, busy⟩
        -- A buffer carries traffic to one peer only.
        obtain rfl := Way.toPeer.inj (DataPlane.takes_toPeer valid (placed.links own) (placed.links joined))
        exact busy
    · rw [if_neg fun member => own ((PeerLinks.mem_keys_iff _ _ _).1 member), placed.holding before]
      refine exists_congr fun other => and_congr_right fun joined => ?_
      have different : other ≠ peer := fun same => own (same ▸ joined)
      exact iff_of_eq (congrArg (· = true) (switching other different).symm)
  · intro other k b joined still found some_queue
    obtain ⟨b', before, same, -⟩ := buffer found
    rw [same] at some_queue
    by_cases own : other = peer
    · subst own
      exact absurd (drained still joined before) some_queue
    · have calm : p.switches.isSwitching other = false := (switching other own).symm.trans still
      have path : switches.currentPath other = p.switches.currentPath other := paths other own
      exact path ▸ placed.place joined calm before some_queue

/-- A change that takes frames from buffers, or buffers with their links. -/
theorem of_fewer {q : DataPlane} (placed : Placed directory ⟨p, tasks⟩) (node : q.node = p.node)
    (role : q.role = p.role) (flows : q.flows = p.flows) (switches : q.switches = p.switches)
    (buffers : ∀ {k b}, q.buffers.get? k = some b →
      ∃ b', p.buffers.get? k = some b' ∧ b.holding = b'.holding ∧ (b'.queue = [] → b.queue = []))
    (links : ∀ {peer k}, q.links.Joins peer k → p.links.Joins peer k)
    (kept : ∀ {peer k b}, q.buffers.get? k = some b → p.links.Joins peer k → q.links.Joins peer k) :
    Placed directory ⟨q, tasks⟩ := by
  have takes {l : Lcid} {way : Way} (before : p.Takes directory l way) : q.Takes directory l way :=
    before.mono node role fun found => flows ▸ found
  refine ⟨fun task member => takes (placed.tasks task member), ?_, fun joined => takes (placed.links (links joined)),
    ?_, ?_, ?_⟩
  · intro peer unit member
    rw [Stage.deferred, switches] at member
    exact takes (placed.waiting peer unit member)
  · intro k b found
    obtain ⟨b', before, -⟩ := buffers found
    rcases placed.buffers before with ⟨peer, joined⟩ | ⟨path, way⟩
    · exact Or.inl ⟨peer, kept found joined⟩
    · exact Or.inr ⟨path, takes way⟩
  · intro k b found
    obtain ⟨b', before, same, -⟩ := buffers found
    rw [same, switches, placed.holding before]
    exact exists_congr fun peer => and_congr_left fun _ => ⟨kept found, links⟩
  · intro peer k b joined still found some_queue
    obtain ⟨b', before, -, empties⟩ := buffers found
    rw [switches] at still ⊢
    rw [nextHop?_congr directory node]
    exact placed.place (links joined) still before fun empty => some_queue (empties empty)

end Placed

/-- A buffer of a peer that switches is empty if nothing drains. -/
theorem Placed.empty_of_drained {directory : Directory} {s : Stage} (placed : Placed directory s) {peer : NodeId}
    (switching : s.plane.switches.isSwitching peer = true)
    (drained : TransmitBuffers.anyDraining s.plane.buffers (s.plane.links.keys peer) = false) {k : EntityKey}
    {b : TransmitBuffer} (joined : s.plane.links.Joins peer k) (found : s.plane.buffers.get? k = some b) :
    b.queue = [] := by
  have holds := (placed.holding found).2 ⟨peer, joined, switching⟩
  have calm : ¬ b.isDraining = true := fun drains =>
    Bool.noConfusion (drained.symm.trans ((TransmitBuffers.anyDraining_eq_true_iff _ _).2
      ⟨k, (PeerLinks.mem_keys_iff _ _ _).2 joined, b, found, drains⟩))
  simpa [TransmitBuffer.isDraining, holds] using calm

theorem Change.placed {directory : Directory} {a b : Stage} {es : List Effect} (change : Change directory a es b)
    (valid : a.plane.flows.Valid) (placed : Placed directory a) : Placed directory b := by
  cases change with
  | @quiet p q tasks alike =>
    have lookup {key : FlowKey} {l : Lcid} (found : p.flows.lookup? key = some l) : q.flows.lookup? key = some l := by
      rw [FlowTable.lookup?, alike.lcids]
      exact found
    refine placed.of_same alike.node alike.role lookup alike.buffers alike.links
      (PathSwitches.isSwitching_congr alike.peers) alike.paths (fun task member => Or.inl member) ?_
    intro peer unit member
    rw [Stage.deferred, PathSwitches.deferred_congr alike.peers] at member
    exact Or.inl member
  | issue mode routed created numbered =>
    obtain ⟨-, rfl⟩ := DataPlane.number_eq_some_iff.1 numbered
    refine placed.of_same rfl rfl (FlowTable.lookup?_mono created) rfl rfl (fun peer => rfl) rfl ?_
      (fun peer unit member => Or.inl member)
    intro task member
    rcases List.mem_append.1 member with old | new
    · exact Or.inl old
    · rw [List.mem_singleton.1 new]
      exact Or.inr (Or.inr ⟨_, _, FlowTable.lookup?_create created, RoutingView.way_of_route routed⟩)
  | issueControl sdu served numbered =>
    obtain ⟨-, rfl⟩ := DataPlane.number_eq_some_iff.1 numbered
    refine placed.of_same rfl rfl id rfl rfl (fun peer => rfl) rfl ?_ (fun peer unit member => Or.inl member)
    intro task member
    rcases List.mem_append.1 member with old | new
    · exact Or.inl old
    · rw [List.mem_singleton.1 new]
      exact Or.inr (Or.inl ⟨rfl, _, _, rfl⟩)
  | offer leads => exact placed.of_offer valid leads
  | lose =>
    exact placed.of_same rfl rfl id rfl rfl (fun peer => rfl) rfl
      (fun task member => Or.inl (List.mem_cons_of_mem _ member)) (fun peer unit member => Or.inl member)
  | @wait p peer unit state switching found =>
    refine placed.of_same rfl rfl id rfl rfl
      (fun other => PathSwitches.isSwitching_of_phase (PathSwitches.phase_waited found _ other)) rfl
      (fun task member => by cases member) ?_
    intro other unit' member
    have here : unit' ∈ (p.switches.setEntry peer { state with deferred := state.deferred ++ [unit] }).deferred other :=
      member
    rw [PathSwitches.deferred_waited found] at here
    split at here
    · rename_i same
      rw [same]
      rcases List.mem_append.1 here with old | new
      · exact Or.inl old
      · rw [List.mem_singleton.1 new]
        exact Or.inr (placed.tasks _ List.mem_cons_self)
    · exact Or.inl here
  | @hold p tasks peer target =>
    have busy := PathSwitches.isSwitching_setPhase p.switches peer target none
    refine placed.of_switch TransmitBuffer.hold (p.switches.setPhase peer (.switching target none)) valid
      (fun b => busy.symm) (fun b => rfl) (fun calm => Bool.noConfusion (busy.symm.trans calm))
      (fun other different => PathSwitches.isSwitching_insert rfl different) (fun other _ => rfl) placed.tasks ?_
    intro other unit member
    rw [PathSwitches.deferred_setPhase] at member
    exact placed.waiting other unit member
  | @recheck p tasks peer target check check' switching =>
    have before : p.switches.isSwitching peer = true :=
      (PathSwitches.isSwitching_eq_true_iff _ _).2 ⟨target, check, switching⟩
    refine placed.of_same rfl rfl id rfl rfl (fun other => ?_) rfl (fun task member => Or.inl member) ?_
    · by_cases same : other = peer
      · rw [same]
        exact (PathSwitches.isSwitching_setPhase p.switches peer target check').trans before.symm
      · exact PathSwitches.isSwitching_insert rfl same
    · intro other unit member
      rw [Stage.deferred, PathSwitches.deferred_setPhase] at member
      exact Or.inl member
  | @discard p tasks peer =>
    refine placed.of_fewer rfl rfl rfl rfl ?_ id (fun _ joined => joined)
    intro k b found
    rw [DataPlane.onBuffers, TransmitBuffers.get?_onKeys] at found
    obtain ⟨b', before, rfl⟩ := Option.map_eq_some_iff.1 found
    refine ⟨b', before, ?_, fun empty => ?_⟩
    · split <;> rfl
    · split
      · rfl
      · exact empty
  | @complete p tasks peer target check switching drained =>
    have busy : p.switches.isSwitching peer = true :=
      (PathSwitches.isSwitching_eq_true_iff _ _).2 ⟨target, check, switching⟩
    have done : (p.switched peer target).switches.isSwitching peer = false := by
      simp [DataPlane.switched, PathSwitches.isSwitching, PathSwitches.phase]
    refine placed.of_switch TransmitBuffer.resume (p.switched peer target).switches valid (fun b => done.symm)
      (fun b => rfl) (fun _ => placed.empty_of_drained busy drained)
      (fun other different => PathSwitches.isSwitching_insert rfl different) ?_ ?_ ?_
    · intro other different
      simp only [PathSwitches.currentPath, DataPlane.switched, SortedMap.get?_insert_of_ne _ different]
    · intro task member
      rcases List.mem_append.1 member with new | old
      · obtain ⟨unit, waited, rfl⟩ := List.mem_map.1 new
        exact placed.waiting peer unit waited
      · exact placed.tasks task old
    · intro other unit member
      rw [PathSwitches.deferred_insert (s := p.switches) rfl] at member
      split at member
      · cases member
      · exact placed.waiting other unit member
  | @serve p tasks key buffer pdu rest found queued =>
    refine placed.of_fewer rfl rfl rfl rfl ?_ id (fun _ joined => joined)
    intro k b here
    by_cases same : k = key
    · rw [same, SortedMap.get?_insert_self] at here
      rw [same, ← Option.some.inj here]
      refine ⟨buffer, found, rfl, fun empty => ?_⟩
      rw [queued] at empty
      cases empty
    · rw [SortedMap.get?_insert_of_ne _ same] at here
      exact ⟨b, here, rfl, id⟩
  | @leave p peer =>
    refine placed.of_fewer rfl rfl rfl rfl ?_ ?_ ?_
    · intro k b found
      rcases DataPlane.get?_peerDeparted p peer k with same | gone
      · rw [same] at found
        exact ⟨b, found, rfl, id⟩
      · rw [gone] at found
        cases found
    · exact fun joined => ((PeerLinks.joins_retain _ _ _ _).1 joined).1
    · exact fun found joined =>
        (PeerLinks.joins_retain _ _ _ _).2 ⟨joined, (SortedMap.contains_eq_true_iff _ _).2 ⟨_, found⟩⟩
  | clear =>
    refine ⟨fun task member => (by cases member), fun peer unit member => (by cases member), ?_, ?_, ?_, ?_⟩
    · exact fun joined => absurd joined (PeerLinks.not_joins_empty _ _)
    · exact fun found => by cases found
    · exact fun found => by cases found
    · exact fun joined => absurd joined (PeerLinks.not_joins_empty _ _)

/-! ## Lines -/

/-- The frames of a connection that were sent. -/
def sentOn (l : Lcid) (effects : List Effect) : List Frame := (sentOf effects).filter (·.envelope.lcid = l)

/-- The units of a connection that buffers took. -/
def admittedOn (l : Lcid) (effects : List Effect) : List Admission := (admittedOf effects).filter (·.key.lcid = l)

theorem sentOn_append (l : Lcid) (es fs : List Effect) : sentOn l (es ++ fs) = sentOn l es ++ sentOn l fs := by
  rw [sentOn, sentOf_append, List.filter_append]
  rfl

theorem admittedOn_append (l : Lcid) (es fs : List Effect) :
    admittedOn l (es ++ fs) = admittedOn l es ++ admittedOn l fs := by
  rw [admittedOn, admittedOf_append, List.filter_append]
  rfl

/-- Whether all frames of a connection that wait do so in the buffer of one next hop. -/
def DataPlane.WaitsAt (p : DataPlane) (l : Lcid) (hop : NodeId) : Prop :=
  ∀ other, other ≠ hop → p.waiting ⟨other, l⟩ = []

/-- Whether the frames of a connection leave in the order in which their units were taken, through the buffer of one
next hop at a time: those that were sent come before those that wait, and where nothing was dropped these are all. -/
def InLine (node : NodeId) (link : LinkSettings) (l : Lcid) (hs : List Effect) (p : DataPlane) (hop : NodeId) : Prop :=
  p.WaitsAt l hop ∧
    (sentOn l hs ++ p.waiting ⟨hop, l⟩).Sublist ((admittedOn l hs).flatMap (Admission.frames node link)) ∧
    (.dropped ∉ hs → sentOn l hs ++ p.waiting ⟨hop, l⟩ = (admittedOn l hs).flatMap (Admission.frames node link))

namespace InLine
variable {node : NodeId} {link : LinkSettings} {l : Lcid} {hs es : List Effect} {p : DataPlane} {hop : NodeId}

/-- Where nothing waits, the next hop can be any. -/
theorem rebase (line : InLine node link l hs p hop) {hop' : NodeId} (waits : p.WaitsAt l hop') :
    InLine node link l hs p hop' := by
  by_cases same : hop' = hop
  · rw [same]
    exact line
  · obtain ⟨waits', order, lossless⟩ := line
    have nothing : p.waiting ⟨hop, l⟩ = p.waiting ⟨hop', l⟩ := (waits hop (Ne.symm same)).trans (waits' hop' same).symm
    rw [nothing] at order lossless
    exact ⟨waits, order, lossless⟩

/-- A change that sends and takes units of the connection at one buffer only. -/
theorem change {directory : Directory} {a b : Stage} (change : Change directory a es b) (node_eq : a.plane.node = node)
    (link_eq : a.plane.settings.link = link) (cuts : a.plane.Cuts) (line : InLine node link l hs a.plane hop)
    (sends : ∀ f ∈ sentOf es, f.envelope.lcid = l → f.key = ⟨hop, l⟩)
    (takes : ∀ x ∈ admittedOf es, x.key.lcid = l → x.key = ⟨hop, l⟩) : InLine node link l (hs ++ es) b.plane hop := by
  have sentHere : sentOn l es = sentAt ⟨hop, l⟩ es := by
    refine List.filter_congr fun f member => decide_eq_decide.2 ⟨sends f member, fun same => ?_⟩
    exact congrArg EntityKey.lcid same
  have takenHere : (admittedOn l es).flatMap (Admission.frames node link) = admittedAt node link ⟨hop, l⟩ es := by
    refine congrArg (List.flatMap _) (List.filter_congr fun x member => decide_eq_decide.2
      ⟨takes x member, fun same => ?_⟩)
    exact congrArg EntityKey.lcid same
  have elsewhere {other : NodeId} (different : other ≠ hop) :
      sentAt ⟨other, l⟩ es = [] ∧ admittedAt node link ⟨other, l⟩ es = [] := by
    have apart : (⟨other, l⟩ : EntityKey) ≠ ⟨hop, l⟩ := fun same => different (congrArg EntityKey.node same)
    constructor
    · refine List.filter_eq_nil_iff.2 fun f member same => apart ?_
      rw [← of_decide_eq_true same]
      exact sends f member (congrArg EntityKey.lcid (of_decide_eq_true same))
    · rw [admittedAt, List.filter_eq_nil_iff.2 fun x member same => apart ?_]
      · rfl
      · rw [← of_decide_eq_true same]
        exact takes x member (congrArg EntityKey.lcid (of_decide_eq_true same))
  have law (key : EntityKey) := change.conserves cuts key
  rw [node_eq, link_eq] at law
  obtain ⟨waits, order, lossless⟩ := line
  refine ⟨fun other different => ?_, ?_, fun kept => ?_⟩
  · obtain ⟨unsent, untaken⟩ := elsewhere different
    rcases law ⟨other, l⟩ with conserved | ⟨-, gone⟩
    · rw [waits other different, unsent, untaken] at conserved
      exact conserved.symm
    · exact gone
  · rw [sentOn_append, admittedOn_append, List.flatMap_append, sentHere, takenHere]
    rcases law ⟨hop, l⟩ with conserved | ⟨rfl, gone⟩
    · rw [List.append_assoc, ← conserved, ← List.append_assoc]
      exact order.append (List.Sublist.refl _)
    · rw [gone, List.append_nil]
      exact ((List.sublist_append_left _ _).trans order).append (List.Sublist.refl [])
  · rw [List.mem_append, not_or] at kept
    rw [sentOn_append, admittedOn_append, List.flatMap_append, sentHere, takenHere]
    rcases law ⟨hop, l⟩ with conserved | ⟨rfl, -⟩
    · rw [List.append_assoc, ← conserved, ← List.append_assoc, lossless kept.1]
    · exact absurd List.mem_cons_self kept.2

end InLine

/-- A unit of a connection is offered where all frames of the connection wait. -/
theorem Placed.waitsAt {directory : Directory} {p : DataPlane} {task : Task} {tasks : List Task} {hop : NodeId}
    {path : Path} (placed : Placed directory ⟨p, task :: tasks⟩) (valid : p.flows.Valid)
    (leads : p.Leads directory hop path task.way) (traffic : task.unit.lcid ≠ .control) :
    p.WaitsAt task.unit.lcid hop := by
  intro other different
  have takes : p.Takes directory task.unit.lcid task.way := placed.tasks task List.mem_cons_self
  cases found : p.buffers.get? ⟨other, task.unit.lcid⟩ with
  | none => exact DataPlane.waiting_eq_nil found
  | some b =>
    have empty : b.queue = [] := by
      apply Classical.byContradiction
      intro some_queue
      rcases placed.buffers found with ⟨peer, joined⟩ | ⟨path', way⟩
      · have way := DataPlane.takes_toPeer valid (placed.links joined) takes
        rw [way] at leads
        obtain ⟨still, rfl, goes⟩ := leads
        exact different (Option.some.inj ((placed.place joined still found some_queue).symm.trans goes))
      · rw [DataPlane.takes_unique valid traffic takes way] at leads
        exact different leads.1
    rw [DataPlane.waiting_of_get? found, empty]
    rfl

theorem Change.inLine {directory : Directory} {a b : Stage} {hs es : List Effect} {node : NodeId}
    {settings : PlaneSettings} (change : Change directory a es b) (sound : Sound node settings hs a)
    (placed : Placed directory a) {l : Lcid} (traffic : l ≠ .control) {hop : NodeId}
    (line : InLine node settings.link l hs a.plane hop) :
    ∃ hop, InLine node settings.link l (hs ++ es) b.plane hop := by
  have node_eq := sound.served.node_eq
  have link_eq : a.plane.settings.link = settings.link := congrArg PlaneSettings.link sound.served.settings_eq
  have cuts := sound.served.cuts
  have silent (unsent : sentOf es = []) (untaken : admittedOf es = []) :
      ∃ hop, InLine node settings.link l (hs ++ es) b.plane hop :=
    ⟨hop, line.change change node_eq link_eq cuts (by simp [unsent]) (by simp [untaken])⟩
  have same := change
  cases change with
  | @offer p task tasks hop' path leads =>
    have unsent : sentOf ((p.offered hop' path task.unit).map .admitted) = [] := sentOf_admitted _
    have only {x : Admission} (member : x ∈ admittedOf ((p.offered hop' path task.unit).map .admitted)) :
        x.key = ⟨hop', task.unit.lcid⟩ := by
      rw [admittedOf_admitted] at member
      rw [DataPlane.mem_offered member]
    by_cases own : task.unit.lcid = l
    · subst own
      have waits := placed.waitsAt sound.accounts.flows leads traffic
      exact ⟨hop', (line.rebase waits).change same node_eq link_eq cuts (by simp [unsent])
        fun x member _ => only member⟩
    · refine ⟨hop, line.change same node_eq link_eq cuts (by simp [unsent]) fun x member here => ?_⟩
      rw [only member] at here
      exact absurd here own
  | @serve p tasks key buffer pdu rest found queued =>
    refine ⟨hop, line.change same node_eq link_eq cuts ?_ (fun x member => by cases member)⟩
    intro f member here
    obtain rfl := List.mem_singleton.1 member
    -- A frame leaves the one buffer of its connection that is not empty.
    have some_frame : p.waiting key ≠ [] := by
      rw [DataPlane.waiting_serve found queued]
      exact List.cons_ne_nil _ _
    obtain ⟨at_hop, lcid⟩ := key
    obtain rfl : lcid = l := here
    by_cases same : at_hop = hop
    · rw [same]
      rfl
    · exact absurd (line.1 at_hop same) some_frame
  | _ => exact silent rfl rfl

/-! ## Runs under one directory -/

/-- A new unit comes before all that wait for peers other than its own. -/
theorem Placed.ahead_new {directory : Directory} {a b : Stage} {es : List Effect} (change : Change directory a es b)
    (valid : b.plane.flows.Valid) (placed : Placed directory b) {task : Task} (tasks : b.tasks = a.tasks ++ [task])
    (kind : task.unit.lcid = .control ∨ issuedOf es ≠ []) {peer : NodeId} (elsewhere : task.way ≠ .toPeer peer)
    {unit : DeferredSdu} (waits : unit ∈ a.deferred peer) : Before task.label unit.label := by
  rcases kind with control | issues
  · exact Or.inl control
  · refine Or.inr fun same => absurd ?_ elsewhere
    have takes : b.plane.Takes directory task.unit.lcid task.way :=
      placed.tasks task (tasks ▸ List.mem_append_right _ List.mem_cons_self)
    have owner : b.plane.Takes directory unit.lcid (.toPeer peer) := by
      cases change with
      | issue mode routed created numbered =>
        obtain ⟨-, rfl⟩ := DataPlane.number_eq_some_iff.1 numbered
        exact placed.waiting peer unit waits
      | offer leads => exact absurd (issuedOf_admitted _) issues
      | _ => exact absurd rfl issues
    have connection : task.unit.lcid = unit.lcid := same
    rw [connection] at takes
    exact DataPlane.takes_toPeer valid owner takes

/-- What holds at every stage of a run under one directory. -/
structure Orderly (directory : Directory) (node : NodeId) (settings : PlaneSettings) (hs : List Effect) (s : Stage) :
    Prop extends Sound node settings hs s where
  placed : Placed directory s
  before : Ordered Before ((admittedOf hs).map Admission.label) s
  line : ∀ l, l ≠ .control → ∃ hop, InLine node settings.link l hs s.plane hop

section
variable {directory : Directory} {node : NodeId} {settings : PlaneSettings} {hs es : List Effect} {a b : Stage}

theorem orderly_change (change : Change directory a es b) (orderly : Orderly directory node settings hs a) :
    Orderly directory node settings (hs ++ es) b := by
  have sound := sound_change change orderly.toSound
  have placed := change.placed orderly.accounts.flows orderly.placed
  refine ⟨sound, placed, ?_, ?_⟩
  · rw [admittedOf_append, List.map_append]
    refine orderly.before.change change orderly.idle fun task tasks kind => ⟨?_, ?_⟩
    · exact before_new change orderly.served.settings_eq orderly.accounts orderly.sourced tasks kind
    · exact fun peer elsewhere unit waits =>
        Placed.ahead_new change sound.accounts.flows placed tasks kind elsewhere waits
  · intro l traffic
    obtain ⟨hop, line⟩ := orderly.line l traffic
    exact change.inLine orderly.toSound orderly.placed traffic line

theorem orderly_new {role : Role} {p : DataPlane} (directory : Directory)
    (made : DataPlane.new node role settings = .ok p) : Orderly directory node settings [] ⟨p, []⟩ := by
  have sound := DataPlane.sound_new made
  obtain ⟨-, rfl⟩ := DataPlane.eq_of_new made
  refine ⟨sound, ⟨by simp, fun peer unit waits => (by cases waits), fun joined => ?_, fun found => (by cases found),
    fun found => (by cases found), fun joined => ?_⟩, ⟨fun peer => List.Pairwise.nil, fun peer other _ x hx => ?_,
    by simp⟩, fun l _ => ⟨default, fun other _ => rfl, List.Sublist.refl [], fun _ => rfl⟩⟩
  · exact absurd joined (PeerLinks.not_joins_empty _ _)
  · exact absurd joined (PeerLinks.not_joins_empty _ _)
  · cases hx

/-- Every run of a new node under one directory is orderly. -/
theorem orderly_run {role : Role} {p : DataPlane} (made : DataPlane.new node role settings = .ok p) {ms : List Moment}
    (same : ∀ m ∈ ms, m.directory = directory) :
    ∃ effects, Tells effects ((p.dispatched ms).filterMap Dispatch.numbered?) (p.admitted ms) (p.sent ms) ∧
      Orderly directory node settings effects ⟨p.after ms, []⟩ ∧
      ((∀ m ∈ ms, m.stimulus.Keeps) → .dropped ∉ effects) := by
  obtain ⟨effects, chain, tells, kept⟩ := p.run_chain ms
  refine ⟨effects, tells, ?_, kept⟩
  refine chain.invariant (fun allowed change orderly => ?_) (orderly_new directory made : Orderly _ _ _ [] _)
  obtain ⟨m, member, rfl⟩ := allowed
  rw [same m member] at change
  exact orderly_change change orderly

/-- The units that buffers take on one connection have increasing numbers. -/
theorem Orderly.increasing {s : Stage} (orderly : Orderly directory node settings hs s) {l : Lcid}
    (traffic : l ≠ .control) : (admittedOn l hs).Pairwise (·.sn < ·.sn) := by
  have line := orderly.before.line default
  rw [List.append_assoc, List.pairwise_append] at line
  refine ((List.pairwise_map.1 line.1).filter _).imp_of_mem fun {x y} hx hy before => ?_
  have connection {z : Admission} (member : z ∈ admittedOn l hs) : z.key.lcid = l :=
    of_decide_eq_true (List.mem_filter.1 member).2
  rcases before with control | less
  · exact absurd ((connection hx).symm.trans control) traffic
  · exact less ((connection hx).trans (connection hy).symm)

end

/-! ## The order of frames -/

/-- A frame, and its place: the number of its unit, and how many data units of the unit go before it. -/
structure Part where
  frame : Frame
  sn : UInt32
  index : Nat

namespace Part

/-- Whether a part goes before another: by number, and by index within a unit. -/
def Before (x y : Part) : Prop := x.sn < y.sn ∨ x.sn = y.sn ∧ x.index < y.index

/-- Whether a part is at its place: among the packets that were submitted, the one with its connection and number
makes a unit whose data unit at its index is what the frame carries. -/
def AtPlace (settings : PlaneSettings) (dispatched : List (Packet × Dispatch)) (x : Part) : Prop :=
  ∃ d ∈ dispatched, d.2.lcid = x.frame.envelope.lcid ∧ d.2.sn = some x.sn ∧
    (settings.link.pdus x.frame.envelope.mode x.sn (d.1.unit settings.compression x.sn))[x.index]? = some x.frame.bytes

variable {settings : PlaneSettings} {dispatched : List (Packet × Dispatch)}

/-- A frame says where its place is: a frame has one place only. -/
theorem AtPlace.unique (valid : settings.link.fault? = none) (short : ShortUnits settings.compression dispatched)
    {x y : Part} (hx : x.AtPlace settings dispatched) (hy : y.AtPlace settings dispatched) (same : x.frame = y.frame) :
    x = y := by
  obtain ⟨frame, sn, index⟩ := x
  obtain ⟨frame', sn', index'⟩ := y
  obtain rfl : frame = frame' := same
  obtain ⟨d, submitted, -, number, cut⟩ := hx
  obtain ⟨d', submitted', -, number', cut'⟩ := hy
  simp only at cut cut' number number'
  by_cases whole : frame.envelope.mode = .transparent
  · rw [whole] at cut cut'
    obtain ⟨rfl, unit⟩ : index = 0 ∧ d.1.unit settings.compression sn = frame.bytes := by
      cases index with
      | zero => exact ⟨rfl, Option.some.inj cut⟩
      | succ index => cases cut
    obtain ⟨rfl, unit'⟩ : index' = 0 ∧ d'.1.unit settings.compression sn' = frame.bytes := by
      cases index' with
      | zero => exact ⟨rfl, Option.some.inj cut'⟩
      | succ index' => cases cut'
    obtain ⟨pdu, parsed, restored⟩ := d.1.parse_unit settings.compression sn
    obtain ⟨pdu', parsed', restored'⟩ := d'.1.parse_unit settings.compression sn'
    rw [unit, ← unit', parsed'] at parsed
    rw [Except.ok.inj parsed, restored] at restored'
    rw [(ConvergencePdu.mk.inj restored').1]
  · obtain ⟨header, data, parsed, rfl, offset⟩ :=
      LinkSettings.header_of_pdus valid whole (short d submitted sn number) cut
    obtain ⟨header', data', parsed', rfl, offset'⟩ :=
      LinkSettings.header_of_pdus valid whole (short d' submitted' sn' number') cut'
    obtain ⟨rfl, -⟩ := Prod.mk.inj (Except.ok.inj (parsed.symm.trans parsed'))
    obtain rfl := Nat.eq_of_mul_eq_mul_right (LinkSettings.dataSize_pos valid _) (offset.symm.trans offset')
    rfl

end Part

/-- The frames that carry a unit, each with its place. -/
def Admission.parts (node : NodeId) (link : LinkSettings) (a : Admission) : List Part :=
  (a.frames node link).zipIdx.map fun (frame, index) => ⟨frame, a.sn, index⟩

namespace Admission
variable {node : NodeId} {link : LinkSettings} {a : Admission}

theorem frames_of_parts : (a.parts node link).map Part.frame = a.frames node link := by
  rw [parts, List.map_map]
  exact List.zipIdx_map_fst 0 _

theorem mem_parts {x : Part} (member : x ∈ a.parts node link) :
    x.sn = a.sn ∧ (a.frames node link)[x.index]? = some x.frame := by
  obtain ⟨⟨frame, index⟩, here, rfl⟩ := List.mem_map.1 member
  exact ⟨rfl, List.mem_zipIdx_iff_getElem?.1 here⟩

theorem ordered_parts : (a.parts node link).Pairwise Part.Before := by
  have increasing : (a.frames node link).zipIdx.Pairwise fun x y => x.2 < y.2 := by
    refine List.pairwise_map.1 ?_
    rw [List.zipIdx_map_snd]
    exact List.pairwise_lt_range'
  exact List.pairwise_map.2 (increasing.imp fun less => Or.inr ⟨rfl, less⟩)

end Admission

namespace DataPlane
variable {node : NodeId} {role : Role} {settings : PlaneSettings} {p : DataPlane} {directory : Directory}
  {ms : List Moment}

/-- Under one directory, the frames of every connection leave in the order of their places, which the frames themselves
determine (`Part.AtPlace.unique`): units by number, and the data units of a unit from first to last. -/
theorem sent_in_order (made : new node role settings = .ok p) (same : ∀ m ∈ ms, m.directory = directory) {l : Lcid}
    (traffic : l ≠ .control) :
    ∃ parts : List Part, parts.map Part.frame = (p.sent ms).filter (·.envelope.lcid = l) ∧
      (∀ x ∈ parts, x.AtPlace settings (p.dispatched ms)) ∧ parts.Pairwise Part.Before := by
  obtain ⟨effects, ⟨issued, -, sent⟩, orderly, -⟩ := orderly_run made same
  obtain ⟨hop, -, order, -⟩ := orderly.line l traffic
  have all : (admittedOn l effects).flatMap (Admission.frames node settings.link) =
      ((admittedOn l effects).flatMap (Admission.parts node settings.link)).map Part.frame := by
    rw [List.map_flatMap]
    exact congrArg (List.flatMap · _) (funext fun a => Admission.frames_of_parts.symm)
  rw [all] at order
  obtain ⟨parts, chosen, frames⟩ := List.sublist_map_iff.1 ((List.sublist_append_left _ _).trans order)
  refine ⟨parts, by rw [← frames, sentOn, sent], fun x member => ?_, ?_⟩
  · obtain ⟨a, taken, here⟩ := List.mem_flatMap.1 (chosen.subset member)
    obtain ⟨number, at_index⟩ := Admission.mem_parts here
    obtain ⟨admitted, connection⟩ := List.mem_filter.1 taken
    have own : a.key.lcid = l := of_decide_eq_true connection
    rw [Admission.frames, List.getElem?_map, Option.map_eq_some_iff] at at_index
    obtain ⟨bytes, cut, frame⟩ := at_index
    rcases orderly.sourced.admitted a admitted with control | ⟨packet, given, sdu⟩
    · exact absurd (own.symm.trans control) traffic
    · obtain ⟨d, submitted, rfl, lcid, sn⟩ := (mem_issued issued).1 given
      refine ⟨d, submitted, ?_, number ▸ sn, ?_⟩
      · rw [← frame, lcid]
      · rw [← frame, number, ← sdu]
        exact cut
  · refine List.Pairwise.sublist chosen (List.pairwise_flatMap.2 ⟨fun a _ => Admission.ordered_parts, ?_⟩)
    refine (orderly.increasing traffic).imp fun {a b} less x hx y hy => Or.inl ?_
    rw [(Admission.mem_parts hx).1, (Admission.mem_parts hy).1]
    exact less

theorem sent_in_order_at_switchover :
    (∀ m ∈ switchover, m.directory = .pair) ∧ Lcid.first ≠ .control ∧
      (((fresh 1).sent switchover).filter (·.envelope.lcid = .first)).length = 3 ∧
      ∃ parts : List Part, parts.map Part.frame = ((fresh 1).sent switchover).filter (·.envelope.lcid = .first) ∧
        (∀ x ∈ parts, x.AtPlace .default ((fresh 1).dispatched switchover)) ∧ parts.Pairwise Part.Before := by
  have same : ∀ m ∈ switchover, m.directory = .pair := by
    intro m member
    obtain ⟨stimulus, -, rfl⟩ := List.mem_map.1 member
    rfl
  exact ⟨same, by decide, by decide +kernel, sent_in_order new_fresh.1 same (by decide)⟩

end DataPlane
end Sidelink
