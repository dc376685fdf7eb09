import Sidelink.Proofs.Steps

/-!
When buffers hold, while positions and serving nodes change but nothing else in the directory does. The peer that a
connection carries traffic to, if there is one, then stays the same whatever hops the traffic takes
(`DataPlane.Belongs`). So a buffer holds exactly while the peer that it is linked to switches (`Gated`), units are
offered only to buffers that do not hold, and a unit is dropped for lack of room only where there is none
(`DataPlane.gates_consistent`).
-/
namespace Sidelink

/-! ## Directories that agree -/

/-- What stays of a record when its node moves or is served by another node. -/
def NodeRecord.lasting (r : NodeRecord) : NodeRecord := { r with serving := none, position := none }

namespace Directory

/-- Whether two directories differ in the positions and the serving nodes at most. -/
structure SameNodes (d d' : Directory) : Prop where
  nodes : ∀ id, (d'.nodes.get? id).map NodeRecord.lasting = (d.nodes.get? id).map NodeRecord.lasting
  owners : d'.owners = d.owners
  reach : d'.reach = d.reach

namespace SameNodes
variable {d d' d'' : Directory}

theorem refl (d : Directory) : d.SameNodes d := ⟨fun _ => rfl, rfl, rfl⟩

theorem trans (first : d.SameNodes d') (second : d'.SameNodes d'') : d.SameNodes d'' where
  nodes := fun id => (second.nodes id).trans (first.nodes id)
  owners := second.owners.trans first.owners
  reach := second.reach.trans first.reach

theorem of_update {id : NodeId} {f : NodeRecord → NodeRecord} (lasting : ∀ r, (f r).lasting = r.lasting)
    (updated : d.update id f = .ok d') : d.SameNodes d' := by
  unfold update at updated
  split at updated
  · obtain rfl := Except.ok.inj updated
    refine ⟨fun other => ?_, rfl, rfl⟩
    rw [SortedMap.get?_modify]
    split
    · cases d.nodes.get? other <;> simp [lasting]
    · rfl
  · cases updated

/-- A node that moves changes nothing that lasts. -/
theorem of_move {id : NodeId} {position : Position} (moved : d.move id position = .ok d') : d.SameNodes d' :=
  of_update (f := fun r => { r with position := some position }) (fun _ => rfl) moved

/-- Neither does a node that another node serves from now on. -/
theorem of_serve {id serving : NodeId} (served : d.serve id serving = .ok d') : d.SameNodes d' :=
  of_update (f := fun r => { r with serving := some serving }) (fun _ => rfl) served

theorem contains_eq (same : d.SameNodes d') (id : NodeId) : d'.nodes.contains id = d.nodes.contains id := by
  have nodes := same.nodes id
  unfold SortedMap.contains
  cases here : d.nodes.get? id <;> cases there : d'.nodes.get? id <;> simp [here, there] at nodes ⊢

theorem resolve?_eq (same : d.SameNodes d') (address : Address) : d'.resolve? address = d.resolve? address := by
  cases address <;> simp only [resolve?, same.owners, same.contains_eq]

end SameNodes

end Directory

/-- The peer of a way, if it leads to one. -/
def Way.peer? : Way → Option NodeId
  | .toPeer peer => some peer
  | .toHop _ _ => none

/-- The peer that packets between some endpoints are for, where they are sent to a peer. -/
def Directory.peer? (d : Directory) (node : NodeId) (role : Role) (endpoints : Endpoints) : Option NodeId :=
  (d.way? node role endpoints).bind Way.peer?

theorem Directory.SameNodes.peer?_eq {d d' : Directory} (same : d.SameNodes d') (node : NodeId) (role : Role)
    (endpoints : Endpoints) : d'.peer? node role endpoints = d.peer? node role endpoints := by
  have served (d : Directory) :
      ((d.serving? node).map fun serving => Way.toHop serving .infrastructure).bind Way.peer? = none := by
    cases d.serving? node <;> rfl
  cases role with
  | mobile => exact (served d').trans (served d).symm
  | baseStation =>
    simp only [peer?, way?, same.resolve?_eq]
    cases d.resolve? endpoints.address <;> rfl
  | peerDirect =>
    have reaches (destination : NodeId) : d'.reaches node destination = d.reaches node destination := by
      simp only [Directory.reaches, same.reach]
    simp only [peer?, way?, same.resolve?_eq, reaches]
    split
    · rfl
    · cases d.resolve? endpoints.address with
      | none => rfl
      | some destination =>
        by_cases near : d.reaches node destination = true
        · simp only [Option.bind_some, if_pos near]
        · simp only [Option.bind_some, if_neg near]
          exact (served d').trans (served d).symm

/-! ## The peer of a connection -/

namespace DataPlane
variable {p q : DataPlane} {directory : Directory}

/-- Whether a connection carries the traffic to a peer, or traffic that is not for a peer. -/
def Belongs (p : DataPlane) (directory : Directory) (l : Lcid) (owner : Option NodeId) : Prop :=
  (l = .control ∧ owner = none) ∨
    ∃ endpoints direction, p.flows.lookup? (.ofEndpoints endpoints direction) = some l ∧
      directory.peer? p.node p.role endpoints = owner

theorem belongs_unique (valid : p.flows.Valid) {l : Lcid} {owner owner' : Option NodeId}
    (one : p.Belongs directory l owner) (other : p.Belongs directory l owner') : owner = owner' := by
  rcases one with ⟨control, rfl⟩ | ⟨endpoints, direction, found, is⟩ <;>
    rcases other with ⟨control', rfl⟩ | ⟨endpoints', direction', found', is'⟩
  · rfl
  · exact absurd control (FlowTable.not_control_of_lookup? valid found')
  · exact absurd control' (FlowTable.not_control_of_lookup? valid found)
  · rw [← is, ← is', FlowKey.endpoints_inj (valid.apart found found')]

theorem Belongs.mono {l : Lcid} {owner : Option NodeId} (belongs : p.Belongs directory l owner)
    (node : q.node = p.node) (role : q.role = p.role)
    (kept : ∀ {key l}, p.flows.lookup? key = some l → q.flows.lookup? key = some l) :
    q.Belongs directory l owner := by
  refine belongs.imp_right ?_
  rintro ⟨endpoints, direction, found, is⟩
  exact ⟨endpoints, direction, kept found, by rw [node, role]; exact is⟩

/-- Units do not leave for a peer that switches. -/
theorem still_of_leads {hop peer : NodeId} {path : Path} {way : Way} (leads : p.Leads directory hop path way)
    (goes : way.peer? = some peer) : p.switches.isSwitching peer = false := by
  cases way with
  | toHop hop' path' => cases goes
  | toPeer other =>
    obtain rfl := Option.some.inj goes
    exact leads.1

end DataPlane

/-! ## Buffers that hold -/

/-- Whether buffers hold while their peers switch, and only then, and none ever refused a unit for that. -/
structure Gated (directory : Directory) (s : Stage) : Prop where
  tasks : ∀ task ∈ s.tasks, s.plane.Belongs directory task.unit.lcid task.way.peer?
  waiting : ∀ peer, ∀ unit ∈ s.deferred peer, s.plane.Belongs directory unit.lcid (some peer)
  links : ∀ {peer k}, s.plane.links.Joins peer k → s.plane.Belongs directory k.lcid (some peer)
  buffers : ∀ {k b}, s.plane.buffers.get? k = some b → ∃ owner, s.plane.Belongs directory k.lcid owner ∧
    ∀ peer, owner = some peer → s.plane.links.Joins peer k
  holding : ∀ {k b}, s.plane.buffers.get? k = some b →
    (b.holding = true ↔ ∃ peer, s.plane.links.Joins peer k ∧ s.plane.switches.isSwitching peer = true)
  refused : ∀ {k b}, s.plane.buffers.get? k = some b →
    b.counters.refused = 0 ∧ b.capacity = s.plane.settings.link.queueCapacity

namespace Gated
variable {directory : Directory} {a b : Stage}

/-- A change that leaves buffers, links and switches alone. -/
theorem of_same (gated : Gated directory a) (node : b.plane.node = a.plane.node) (role : b.plane.role = a.plane.role)
    (settings : b.plane.settings = a.plane.settings)
    (kept : ∀ {key l}, a.plane.flows.lookup? key = some l → b.plane.flows.lookup? key = some l)
    (buffers : b.plane.buffers = a.plane.buffers) (links : b.plane.links = a.plane.links)
    (switching : ∀ peer, b.plane.switches.isSwitching peer = a.plane.switches.isSwitching peer)
    (tasks : ∀ task ∈ b.tasks, task ∈ a.tasks ∨ b.plane.Belongs directory task.unit.lcid task.way.peer?)
    (waiting : ∀ peer, ∀ unit ∈ b.deferred peer,
      unit ∈ a.deferred peer ∨ a.plane.Belongs directory unit.lcid (some peer)) : Gated directory b where
  tasks := fun task member => by
    rcases tasks task member with old | new
    · exact (gated.tasks task old).mono node role kept
    · exact new
  waiting := fun peer unit member => by
    rcases waiting peer unit member with old | new
    · exact (gated.waiting peer unit old).mono node role kept
    · exact new.mono node role kept
  links := fun joined => by
    rw [links] at joined
    exact (gated.links joined).mono node role kept
  buffers := fun found => by
    rw [buffers] at found
    obtain ⟨owner, belongs, joined⟩ := gated.buffers found
    rw [links]
    exact ⟨owner, belongs.mono node role kept, joined⟩
  holding := fun found => by
    rw [buffers] at found
    simp only [links, switching]
    exact gated.holding found
  refused := fun found => by
    rw [buffers] at found
    rw [settings]
    exact gated.refused found

variable {p : DataPlane} {tasks : List Task}

/-- The buffer of a unit that may leave does not hold. -/
theorem free_bufferFor {d : Directory} {task : Task} {hop : NodeId} {path : Path} (valid : p.flows.Valid)
    (gated : Gated directory ⟨p, task :: tasks⟩) (leads : p.Leads d hop path task.way) :
    (p.bufferFor hop path task.unit).holding = false ∧ (p.bufferFor hop path task.unit).counters.refused = 0 ∧
      (p.bufferFor hop path task.unit).capacity = p.settings.link.queueCapacity := by
  unfold DataPlane.bufferFor
  cases known : p.buffers.get? ⟨hop, task.unit.lcid⟩ with
  | none => exact ⟨rfl, rfl, rfl⟩
  | some b =>
    refine ⟨?_, gated.refused known⟩
    rw [Option.getD_some, ← Bool.not_eq_true, gated.holding known]
    rintro ⟨peer, joined, switching⟩
    -- The buffer is linked to the peer of the way only, and that peer does not switch.
    have way := DataPlane.belongs_unique valid (gated.tasks task List.mem_cons_self) (gated.links joined)
    exact Bool.noConfusion ((DataPlane.still_of_leads leads way).symm.trans switching)

theorem refused_offer {b : TransmitBuffer} (free : b.holding = false) (sn : UInt32) (sdu : Bytes)
    (recipients : List NodeId) : (b.offer sn sdu recipients).2.counters.refused = b.counters.refused := by
  have offering := b.offering sn sdu recipients
  generalize b.offer sn sdu recipients = answer at offering ⊢
  cases offering with
  | refused holds => exact Bool.noConfusion (holds.symm.trans free)
  | unanswered | overflowed | taken => rfl

theorem of_offer {d : Directory} {task : Task} {hop : NodeId} {path : Path} (valid : p.flows.Valid)
    (gated : Gated directory ⟨p, task :: tasks⟩) (leads : p.Leads d hop path task.way) :
    Gated directory ⟨(p.join task.way ⟨hop, task.unit.lcid⟩).stored hop path task.unit, tasks⟩ := by
  have belongs : p.Belongs directory task.unit.lcid task.way.peer? := gated.tasks task List.mem_cons_self
  obtain ⟨free, unrefused⟩ := gated.free_bufferFor valid leads
  have joins {peer : NodeId} {k : EntityKey} :
      (p.join task.way ⟨hop, task.unit.lcid⟩).links.Joins peer k ↔
        (task.way.peer? = some peer ∧ k = ⟨hop, task.unit.lcid⟩) ∨ p.links.Joins peer k := by
    cases way : task.way with
    | toPeer other =>
      simp only [DataPlane.join, PeerLinks.joins_add, Way.peer?, Option.some.injEq]
      rw [eq_comm (a := peer)]
    | toHop hop' path' => simp [DataPlane.join, Way.peer?]
  have owner {peer : NodeId} {k : EntityKey} (here : k = ⟨hop, task.unit.lcid⟩) (joined : p.links.Joins peer k) :
      task.way.peer? = some peer := by
    subst here
    exact DataPlane.belongs_unique valid belongs (gated.links joined)
  have known {k : EntityKey} {b : TransmitBuffer}
      (found : ((p.join task.way ⟨hop, task.unit.lcid⟩).stored hop path task.unit).buffers.get? k = some b) :
      (k = ⟨hop, task.unit.lcid⟩ ∧
          b = ((p.bufferFor hop path task.unit).offer task.unit.sn task.unit.sdu task.unit.recipients).2) ∨
        (k ≠ ⟨hop, task.unit.lcid⟩ ∧ p.buffers.get? k = some b) := by
    by_cases same : k = ⟨hop, task.unit.lcid⟩
    · rw [same, DataPlane.stored, SortedMap.get?_insert_self] at found
      exact Or.inl ⟨same, (Option.some.inj found).symm⟩
    · exact Or.inr ⟨same, (SortedMap.get?_insert_of_ne _ same _).symm.trans found⟩
  refine ⟨fun t member => gated.tasks t (List.mem_cons_of_mem _ member), gated.waiting, ?_, ?_, ?_, ?_⟩
  · intro peer k joined
    rcases joins.1 joined with ⟨way, rfl⟩ | old
    · exact way ▸ belongs
    · exact gated.links old
  · intro k b found
    rcases known found with ⟨rfl, -⟩ | ⟨-, before⟩
    · exact ⟨_, belongs, fun peer way => joins.2 (Or.inl ⟨way, rfl⟩)⟩
    · obtain ⟨whose, belongs', joined⟩ := gated.buffers before
      exact ⟨whose, belongs', fun peer is => joins.2 (Or.inr (joined peer is))⟩
  · intro k b found
    rcases known found with ⟨here, rfl⟩ | ⟨elsewhere, before⟩
    · rw [(DataPlane.offer_unchanged _ _ _ _).2.2.2, free]
      refine ⟨fun holds => Bool.noConfusion holds, ?_⟩
      rintro ⟨peer, joined, switching⟩
      have way := (joins.1 joined).elim And.left (owner here)
      exact Bool.noConfusion ((DataPlane.still_of_leads leads way).symm.trans switching)
    · refine (gated.holding before).trans (exists_congr fun peer => and_congr_left fun _ => ?_)
      exact ⟨fun old => joins.2 (Or.inr old), fun joined => (joins.1 joined).elim (fun h => absurd h.2 elsewhere) id⟩
  · intro k b found
    rcases known found with ⟨-, rfl⟩ | ⟨-, before⟩
    · have same := refused_offer free task.unit.sn task.unit.sdu task.unit.recipients
      have size := DataPlane.capacity_offer (p.bufferFor hop path task.unit) task.unit.sn task.unit.sdu
        task.unit.recipients
      exact ⟨same.trans unrefused.1, size.trans unrefused.2⟩
    · exact gated.refused before

/-- A switch of a peer that begins or is done: the peer's buffers hold just as long as it switches. -/
theorem of_switch {peer : NodeId} {more : List Task} (gated : Gated directory ⟨p, tasks⟩) (valid : p.flows.Valid)
    (f : TransmitBuffer → TransmitBuffer) (switches : PathSwitches)
    (holds : ∀ b, (f b).holding = switches.isSwitching peer)
    (kept : ∀ b, (f b).counters.refused = b.counters.refused ∧ (f b).capacity = b.capacity)
    (switching : ∀ other, other ≠ peer → switches.isSwitching other = p.switches.isSwitching other)
    (after : ∀ task ∈ more, p.Belongs directory task.unit.lcid task.way.peer?)
    (waiting : ∀ other, ∀ unit ∈ switches.deferred other, p.Belongs directory unit.lcid (some other)) :
    Gated directory ⟨{ p with switches }.onBuffers (p.links.keys peer) f, more⟩ := by
  have known {k : EntityKey} {b : TransmitBuffer}
      (found : ({ p with switches }.onBuffers (p.links.keys peer) f).buffers.get? k = some b) :
      ∃ b', p.buffers.get? k = some b' ∧ b = if k ∈ p.links.keys peer then f b' else b' := by
    rw [DataPlane.onBuffers, TransmitBuffers.get?_onKeys] at found
    obtain ⟨b', before, rfl⟩ := Option.map_eq_some_iff.1 found
    exact ⟨b', before, rfl⟩
  refine ⟨after, waiting, gated.links, ?_, ?_, ?_⟩
  · intro k b found
    obtain ⟨b', before, -⟩ := known found
    exact gated.buffers before
  · intro k b found
    obtain ⟨b', before, rfl⟩ := known found
    by_cases own : p.links.Joins peer k
    · rw [if_pos ((PeerLinks.mem_keys_iff _ _ _).2 own), holds]
      constructor
      · exact fun busy => ⟨peer, own, busy⟩
      · rintro ⟨other, joined, busy⟩
        -- A buffer is linked to one peer only.
        obtain rfl := Option.some.inj (DataPlane.belongs_unique valid (gated.links own) (gated.links joined))
        exact busy
    · rw [if_neg fun member => own ((PeerLinks.mem_keys_iff _ _ _).1 member), gated.holding before]
      refine exists_congr fun other => and_congr_right fun joined => ?_
      have different : other ≠ peer := fun same => own (same ▸ joined)
      exact iff_of_eq (congrArg (· = true) (switching other different).symm)
  · intro k b found
    obtain ⟨b', before, rfl⟩ := known found
    obtain ⟨unrefused, size⟩ := gated.refused before
    split
    · exact ⟨(kept b').1.trans unrefused, (kept b').2.trans size⟩
    · exact ⟨unrefused, size⟩

/-- A change that takes frames from buffers, or buffers with their links. -/
theorem of_fewer {q : DataPlane} (gated : Gated directory ⟨p, tasks⟩) (node : q.node = p.node)
    (role : q.role = p.role) (settings : q.settings = p.settings) (flows : q.flows = p.flows)
    (switches : q.switches = p.switches)
    (buffers : ∀ {k b}, q.buffers.get? k = some b → ∃ b', p.buffers.get? k = some b' ∧ b.holding = b'.holding ∧
      b.counters.refused = b'.counters.refused ∧ b.capacity = b'.capacity)
    (links : ∀ {peer k}, q.links.Joins peer k → p.links.Joins peer k)
    (kept : ∀ {peer k b}, q.buffers.get? k = some b → p.links.Joins peer k → q.links.Joins peer k) :
    Gated directory ⟨q, tasks⟩ := by
  have belongs {l : Lcid} {owner : Option NodeId} (before : p.Belongs directory l owner) :
      q.Belongs directory l owner :=
    before.mono node role fun found => flows ▸ found
  refine ⟨fun task member => belongs (gated.tasks task member), ?_, fun joined => belongs (gated.links (links joined)),
    ?_, ?_, ?_⟩
  · intro peer unit member
    rw [Stage.deferred, switches] at member
    exact belongs (gated.waiting peer unit member)
  · intro k b found
    obtain ⟨b', before, -⟩ := buffers found
    obtain ⟨owner, before', joined⟩ := gated.buffers before
    exact ⟨owner, belongs before', fun peer is => kept found (joined peer is)⟩
  · intro k b found
    obtain ⟨b', before, same, -⟩ := buffers found
    rw [same, switches, gated.holding before]
    exact exists_congr fun peer => and_congr_left fun _ => ⟨kept found, links⟩
  · intro k b found
    obtain ⟨b', before, -, same, size⟩ := buffers found
    obtain ⟨unrefused, size'⟩ := gated.refused before
    rw [settings]
    exact ⟨same.trans unrefused, size.trans size'⟩

end Gated

/-- A change keeps buffers gated, if its directory knows the same nodes. -/
theorem Change.gated {d directory : Directory} (same : d.SameNodes directory) {a b : Stage} {es : List Effect}
    (change : Change directory a es b) (valid : a.plane.flows.Valid) (gated : Gated d a) : Gated d b := by
  cases change with
  | @quiet p q tasks alike =>
    have lookup {key : FlowKey} {l : Lcid} (found : p.flows.lookup? key = some l) : q.flows.lookup? key = some l := by
      rw [FlowTable.lookup?, alike.lcids]
      exact found
    refine gated.of_same alike.node alike.role alike.settings lookup alike.buffers alike.links
      (PathSwitches.isSwitching_congr alike.peers) (fun task member => Or.inl member) ?_
    intro peer unit member
    rw [Stage.deferred, PathSwitches.deferred_congr alike.peers] at member
    exact Or.inl member
  | issue mode routed created numbered =>
    obtain ⟨-, rfl⟩ := DataPlane.number_eq_some_iff.1 numbered
    refine gated.of_same rfl rfl rfl (FlowTable.lookup?_mono created) rfl rfl (fun peer => rfl) ?_
      (fun peer unit member => Or.inl member)
    intro task member
    rcases List.mem_append.1 member with old | new
    · exact Or.inl old
    · rw [List.mem_singleton.1 new]
      refine Or.inr (Or.inr ⟨_, _, FlowTable.lookup?_create created, ?_⟩)
      have way := RoutingView.way_of_route routed
      rw [← same.peer?_eq]
      exact congrArg (Option.bind · Way.peer?) way
  | issueControl sdu served numbered =>
    obtain ⟨-, rfl⟩ := DataPlane.number_eq_some_iff.1 numbered
    refine gated.of_same rfl rfl rfl id rfl rfl (fun peer => rfl) ?_ (fun peer unit member => Or.inl member)
    intro task member
    rcases List.mem_append.1 member with old | new
    · exact Or.inl old
    · rw [List.mem_singleton.1 new]
      exact Or.inr (Or.inl ⟨rfl, rfl⟩)
  | offer leads => exact gated.of_offer valid leads
  | lose =>
    exact gated.of_same rfl rfl rfl id rfl rfl (fun peer => rfl)
      (fun task member => Or.inl (List.mem_cons_of_mem _ member)) (fun peer unit member => Or.inl member)
  | @wait p peer unit state switching found =>
    refine gated.of_same rfl rfl rfl id rfl rfl
      (fun other => PathSwitches.isSwitching_of_phase (PathSwitches.phase_waited found _ other))
      (fun task member => by cases member) ?_
    intro other unit' member
    have here : unit' ∈ (p.switches.setEntry peer { state with deferred := state.deferred ++ [unit] }).deferred other :=
      member
    rw [PathSwitches.deferred_waited found] at here
    split at here
    · rename_i same
      rw [same]
      rcases List.mem_append.1 here with old | new
      · exact Or.inl old
      · rw [List.mem_singleton.1 new]
        exact Or.inr (gated.tasks _ List.mem_cons_self)
    · exact Or.inl here
  | @hold p tasks peer target =>
    have busy := PathSwitches.isSwitching_setPhase p.switches peer target none
    refine gated.of_switch valid TransmitBuffer.hold (p.switches.setPhase peer (.switching target none))
      (fun b => busy.symm) (fun b => ⟨rfl, rfl⟩) (fun other different => PathSwitches.isSwitching_insert rfl different)
      gated.tasks ?_
    intro other unit member
    rw [PathSwitches.deferred_setPhase] at member
    exact gated.waiting other unit member
  | @recheck p tasks peer target check check' switching =>
    have before : p.switches.isSwitching peer = true :=
      (PathSwitches.isSwitching_eq_true_iff _ _).2 ⟨target, check, switching⟩
    refine gated.of_same rfl rfl rfl id rfl rfl (fun other => ?_) (fun task member => Or.inl member) ?_
    · by_cases same : other = peer
      · rw [same]
        exact (PathSwitches.isSwitching_setPhase p.switches peer target check').trans before.symm
      · exact PathSwitches.isSwitching_insert rfl same
    · intro other unit member
      rw [Stage.deferred, PathSwitches.deferred_setPhase] at member
      exact Or.inl member
  | @discard p tasks peer =>
    refine gated.of_fewer rfl rfl rfl rfl rfl ?_ id (fun _ joined => joined)
    intro k b found
    rw [DataPlane.onBuffers, TransmitBuffers.get?_onKeys] at found
    obtain ⟨b', before, rfl⟩ := Option.map_eq_some_iff.1 found
    refine ⟨b', before, ?_, ?_, ?_⟩ <;> split <;> rfl
  | @complete p tasks peer target check switching drained =>
    have done : (p.switched peer target).switches.isSwitching peer = false := by
      simp [DataPlane.switched, PathSwitches.isSwitching, PathSwitches.phase]
    refine gated.of_switch valid TransmitBuffer.resume (p.switched peer target).switches (fun b => done.symm)
      (fun b => ⟨rfl, rfl⟩) (fun other different => PathSwitches.isSwitching_insert rfl different) ?_ ?_
    · intro task member
      rcases List.mem_append.1 member with new | old
      · obtain ⟨unit, waited, rfl⟩ := List.mem_map.1 new
        exact gated.waiting peer unit waited
      · exact gated.tasks task old
    · intro other unit member
      rw [PathSwitches.deferred_insert (s := p.switches) rfl] at member
      split at member
      · cases member
      · exact gated.waiting other unit member
  | @serve p tasks key buffer pdu rest found queued =>
    refine gated.of_fewer rfl rfl rfl rfl rfl ?_ id (fun _ joined => joined)
    intro k b here
    by_cases same : k = key
    · rw [same, SortedMap.get?_insert_self] at here
      rw [same, ← Option.some.inj here]
      exact ⟨buffer, found, rfl, rfl, rfl⟩
    · rw [SortedMap.get?_insert_of_ne _ same] at here
      exact ⟨b, here, rfl, rfl, rfl⟩
  | @leave p peer =>
    refine gated.of_fewer rfl rfl rfl rfl rfl ?_ ?_ ?_
    · intro k b found
      rcases DataPlane.get?_peerDeparted p peer k with same | gone
      · rw [same] at found
        exact ⟨b, found, rfl, rfl, rfl⟩
      · rw [gone] at found
        cases found
    · exact fun joined => ((PeerLinks.joins_retain _ _ _ _).1 joined).1
    · exact fun found joined =>
        (PeerLinks.joins_retain _ _ _ _).2 ⟨joined, (SortedMap.contains_eq_true_iff _ _).2 ⟨_, found⟩⟩
  | clear =>
    refine ⟨fun task member => (by cases member), fun peer unit member => (by cases member), ?_, ?_, ?_, ?_⟩
    · exact fun joined => absurd joined (PeerLinks.not_joins_empty _ _)
    · exact fun found => by cases found
    · exact fun found => by cases found
    · exact fun found => by cases found

/-- Changes keep buffers gated, if all their directories know the same nodes. -/
theorem Gated.chain {d : Directory} {node : NodeId} {settings : PlaneSettings} {hs es : List Effect}
    {allowed : Directory → Prop} {a b : Stage} (same : ∀ d', allowed d' → d.SameNodes d') (chain : Chain allowed a es b)
    (sound : Sound node settings hs a) (gated : Gated d a) : Sound node settings (hs ++ es) b ∧ Gated d b := by
  refine @Chain.invariant _ _ _ _ (fun hs s => Sound node settings hs s ∧ Gated d s) ?_ hs ⟨sound, gated⟩ chain
  rintro hs directory a es b ok change ⟨sound, gated⟩
  exact ⟨sound_change change sound, change.gated (same _ ok) sound.accounts.flows gated⟩

namespace DataPlane
variable {node : NodeId} {role : Role} {settings : PlaneSettings} {p : DataPlane} {d : Directory}

theorem gated_new (made : new node role settings = .ok p) (d : Directory) : Gated d ⟨p, []⟩ := by
  obtain ⟨-, rfl⟩ := eq_of_new made
  refine ⟨by simp, fun peer unit waits => ?_, fun joined => ?_, fun found => ?_, fun found => ?_, fun found => ?_⟩
  · cases waits
  · exact absurd joined (PeerLinks.not_joins_empty _ _)
  all_goals cases found

theorem gated_react {hs : List Effect} (sound : Sound node settings hs ⟨p, []⟩) (gated : Gated d ⟨p, []⟩) {m : Moment}
    (same : d.SameNodes m.directory) :
    ∃ effects, Sound node settings effects ⟨(p.react m).plane, []⟩ ∧ Gated d ⟨(p.react m).plane, []⟩ := by
  obtain ⟨effects, chain, -⟩ := react_chain p m
  refine ⟨_, gated.chain ?_ chain sound⟩
  rintro d' rfl
  exact same

theorem gated_run (made : new node role settings = .ok p) {ms : List Moment}
    (same : ∀ m ∈ ms, d.SameNodes m.directory) :
    ∃ effects, Sound node settings effects ⟨p.after ms, []⟩ ∧ Gated d ⟨p.after ms, []⟩ := by
  obtain ⟨effects, chain, -⟩ := run_chain p ms
  refine ⟨_, (gated_new made d).chain ?_ chain (sound_new made)⟩
  rintro _ ⟨m, member, rfl⟩
  exact same m member

/-! ## Units for which there is no room -/

/-- Whether there is no room for a unit of a connection that goes some way: among the units that wait for its peer, or
in the buffer of its next hop, which takes units. -/
def Full (p : DataPlane) (directory : Directory) (way : Way) (l : Lcid) (sdu : Bytes) : Prop :=
  (∃ peer, way = .toPeer peer ∧ p.switches.isSwitching peer = true ∧
      p.switches.capacity ≤ (p.switches.deferred peer).length) ∨
    ∃ hop path b, p.Leads directory hop path way ∧ p.buffers.get? ⟨hop, l⟩ = some b ∧ b.holding = false ∧
      p.settings.link.queueCapacity < b.queue.length + b.pduCount sdu.length

/-- Whether a buffer did not take a unit: because it holds, or because there is no room in it. -/
def RejectsAt (p : DataPlane) (hop : NodeId) (l : Lcid) (sdu : Bytes) : Prop :=
  ∃ b, p.buffers.get? ⟨hop, l⟩ = some b ∧ (b.counters.refused ≠ 0 ∨
    b.holding = false ∧ (b.pduCount sdu.length = 0 ∨ b.capacity < b.queue.length + b.pduCount sdu.length))

/-- Whether a unit was turned away on its way. -/
def Rejects (p : DataPlane) (directory : Directory) (way : Way) (l : Lcid) (sdu : Bytes) : Prop :=
  (∃ peer, way = .toPeer peer ∧ p.switches.isSwitching peer = true ∧
      p.switches.capacity ≤ (p.switches.deferred peer).length) ∨
    ∃ hop path, p.Leads directory hop path way ∧ p.RejectsAt hop l sdu

theorem rejects_offer {hop : NodeId} {l : Lcid} {sn : UInt32} {mode : DeliveryMode} {path : Path} {sdu : Bytes}
    {recipients : List NodeId} (dropped : (p.offer hop l sn mode path sdu recipients).1 = .dropped .queueFull) :
    (p.offer hop l sn mode path sdu recipients).2.RejectsAt hop l sdu := by
  simp only [offer] at dropped ⊢
  generalize (p.buffers.get? ⟨hop, l⟩).getD _ = b at dropped ⊢
  have offering := b.offering sn sdu recipients
  generalize b.offer sn sdu recipients = answer at offering dropped ⊢
  cases offering with
  | refused => exact ⟨_, SortedMap.get?_insert_self _ _ _, Or.inl (Nat.succ_ne_zero _)⟩
  | overflowed free counts full => exact ⟨_, SortedMap.get?_insert_self _ _ _, Or.inr ⟨free, full⟩⟩
  | unanswered | taken => cases dropped

/-- Where buffers are gated, a unit is turned away only for lack of room. -/
theorem full_of_rejects {hs : List Effect} (sound : Sound node settings hs ⟨p, []⟩) (gated : Gated d ⟨p, []⟩)
    (valid : settings.link.fault? = none) {directory : Directory} {way : Way} {l : Lcid} {sdu : Bytes}
    (rejects : p.Rejects directory way l sdu) : p.Full directory way l sdu := by
  refine rejects.imp_right ?_
  rintro ⟨hop, path, leads, b, found, why⟩
  obtain ⟨unrefused, capacity⟩ := gated.refused found
  have cut : 0 < b.dataSize := by
    rw [sound.served.cuts _ b found, sound.served.settings_eq]
    exact LinkSettings.dataSize_pos valid b.mode
  have some_pdu : b.pduCount sdu.length ≠ 0 := by
    have segments := segmentCount_pos sdu.length cut
    unfold TransmitBuffer.pduCount
    split <;> omega
  rcases why with refused | ⟨free, nothing | beyond⟩
  · exact absurd unrefused refused
  · exact absurd nothing some_pdu
  · exact ⟨hop, path, b, leads, found, free, capacity ▸ beyond⟩

theorem rejects_sendToPeer {directory : Directory} {timers : Timers} {peer : NodeId} {unit : DeferredSdu}
    (dropped : (p.sendToPeer directory timers peer unit).1 = .dropped .queueFull) :
    (p.sendToPeer directory timers peer unit).2.1.Rejects directory (.toPeer peer) unit.lcid unit.sdu := by
  simp only [sendToPeer] at dropped ⊢
  generalize (p.reevaluate directory timers peer).1 = q at dropped ⊢
  split
  · rename_i switching
    rw [if_pos switching] at dropped
    split
    · rename_i taken
      rw [if_pos taken] at dropped
      cases dropped
    · rename_i untaken
      -- A peer that switches is known, so the unit was left out for the number of those that wait.
      obtain ⟨target, check, phase⟩ := (PathSwitches.isSwitching_eq_true_iff _ _).1 switching
      cases found : q.switches.peers.get? peer with
      | none =>
        unfold PathSwitches.phase at phase
        rw [found] at phase
        cases phase
      | some state =>
        simp only [PathSwitches.defer, found] at untaken ⊢
        split
        · rename_i many
          refine Or.inl ⟨peer, rfl, switching, ?_⟩
          have waiting : q.switches.deferred peer = state.deferred := by simp only [PathSwitches.deferred, found]
          exact waiting ▸ many
        · rename_i room
          rw [if_neg room] at untaken
          exact absurd rfl untaken
  · rename_i still
    rw [if_neg still] at dropped
    cases leads : (q.view directory).nextHop? peer (q.switches.currentPath peer) with
    | none =>
      rw [leads] at dropped
      cases dropped
    | some hop =>
      rw [leads] at dropped
      let linked : DataPlane := { q with links := q.links.add peer ⟨hop, unit.lcid⟩ }
      let offered := (linked.offer hop unit.lcid unit.sn unit.mode (q.switches.currentPath peer) unit.sdu
        unit.recipients).2
      have switches : offered.switches = q.switches := switches_offer linked hop (q.switches.currentPath peer) unit
      have node : offered.node = q.node := node_offer linked hop (q.switches.currentPath peer) unit
      have leading : offered.Leads directory hop (q.switches.currentPath peer) (.toPeer peer) := by
        refine ⟨?_, ?_, (nextHop?_congr directory node peer _).trans leads⟩
        · rw [switches]
          exact Bool.not_eq_true _ ▸ still
        · rw [switches]
      exact Or.inr ⟨hop, q.switches.currentPath peer, leading, rejects_offer dropped⟩

theorem rejects_submit {hs : List Effect} (sound : Sound node settings hs ⟨p, []⟩) {directory : Directory}
    {timers : Timers} {packet : Packet} {hint : String} {dispatch : Dispatch}
    (answered : (p.submit directory timers packet hint).result = .ok dispatch)
    (dropped : dispatch.outcome = .dropped .queueFull) :
    ∃ sn way, dispatch.sn = some sn ∧ directory.way? p.node p.role packet.endpoints = some way ∧
      (p.submit directory timers packet hint).plane.Rejects directory way dispatch.lcid
        (packet.unit settings.compression sn) := by
  rcases submit_spec p directory timers packet hint with ⟨-, unnumbered⟩ | ⟨q, route, unit, -, numbered, sent⟩
  · obtain ⟨-, reason, is, other⟩ := unnumbered.outcome dispatch answered
    rw [is] at dropped
    exact absurd (Outcome.dropped.inj dropped) other
  · rw [sent] at answered ⊢
    obtain rfl := Except.ok.inj answered
    refine ⟨unit.sn, route.way, rfl, numbered.way, ?_⟩
    rw [← numbered.sdu_eq sound]
    unfold Route.way
    unfold sendOn at dropped ⊢
    cases peerIs : route.peer with
    | none =>
      rw [peerIs] at dropped
      exact Or.inr ⟨route.nextHop, route.path, ⟨rfl, rfl⟩, rejects_offer dropped⟩
    | some peer =>
      rw [peerIs] at dropped
      exact rejects_sendToPeer dropped

theorem rejects_submitControl {directory : Directory} {timers : Timers} {payload : Bytes} {dispatch : Dispatch}
    (answered : (p.submitControl directory timers payload).result = .ok dispatch)
    (dropped : dispatch.outcome = .dropped .queueFull) :
    ∃ sn hop, dispatch.sn = some sn ∧ directory.serving? p.node = some hop ∧
      (p.submitControl directory timers payload).plane.Rejects directory (.toHop hop .infrastructure)
        .control (ConvergencePdu.mk sn .bare none payload).encode := by
  simp only [submitControl] at answered ⊢
  have alike := alike_advance p timers.now
  generalize p.advance timers.now = q at alike answered ⊢
  rw [← alike.node]
  cases serving : directory.serving? q.node with
  | none =>
    rw [serving] at answered
    obtain rfl := Except.ok.inj answered
    cases dropped
  | some hop =>
    rw [serving] at answered
    simp only at answered ⊢
    cases numbered : q.number .control with
    | none =>
      rw [numbered] at answered
      cases answered
    | some answer =>
      obtain ⟨sn, entity, r⟩ := answer
      rw [numbered] at answered
      obtain rfl := Except.ok.inj answered
      exact ⟨sn, hop, rfl, rfl, Or.inr ⟨hop, .infrastructure, ⟨rfl, rfl⟩, rejects_offer dropped⟩⟩

/-! ## The gates of a run -/

/-- After any run of a new node, across which positions and serving nodes may change but nothing else does in the
directory: a buffer holds exactly while a peer that it is linked to switches, units wait only for peers that switch,
and no buffer ever refused a unit because it holds; so a packet that finds a queue full found no room in it. A clock
that only moves on is the drain check of a peer that does not switch. -/
theorem gates_consistent (made : new node role settings = .ok p) {ms : List Moment}
    (same : ∀ m ∈ ms, d.SameNodes m.directory) :
    let q := p.after ms
    (∀ k b, q.buffers.get? k = some b →
        (b.holding = true ↔ ∃ peer, k ∈ q.links.keys peer ∧ q.switches.isSwitching peer = true)) ∧
      (∀ peer, q.switches.isSwitching peer = false → q.switches.deferred peer = []) ∧
      (∀ k b, q.buffers.get? k = some b → b.counters.refused = 0) ∧
      ∀ directory, d.SameNodes directory → ∀ timers dispatch, dispatch.outcome = .dropped .queueFull →
        (∀ packet hint, (q.submit directory timers packet hint).result = .ok dispatch →
          ∃ sn way, dispatch.sn = some sn ∧ directory.way? node role packet.endpoints = some way ∧
            (q.submit directory timers packet hint).plane.Full directory way dispatch.lcid
              (packet.unit settings.compression sn)) ∧
        ∀ payload, (q.submitControl directory timers payload).result = .ok dispatch →
          ∃ sn hop, dispatch.sn = some sn ∧ directory.serving? node = some hop ∧
            (q.submitControl directory timers payload).plane.Full directory (.toHop hop .infrastructure) .control
              (ConvergencePdu.mk sn .bare none payload).encode := by
  intro q
  obtain ⟨effects, sound, gated⟩ := gated_run made same
  have valid := link_fault?_of_new made
  have nodeIs : q.node = node := sound.served.node_eq
  have roleIs : q.role = role := (role_after p ms).trans (role_new made)
  refine ⟨fun k b found => ?_, sound.idle, fun k b found => (gated.refused found).1, ?_⟩
  · simp only [PeerLinks.mem_keys_iff]
    exact gated.holding found
  · intro directory known timers dispatch dropped
    refine ⟨fun packet hint answered => ?_, fun payload answered => ?_⟩
    · obtain ⟨es, soundAfter, gatedAfter⟩ :=
        gated_react sound gated (m := ⟨directory, timers, .packet packet hint⟩) known
      obtain ⟨sn, way, numbered, goes, rejects⟩ := rejects_submit sound answered dropped
      rw [nodeIs, roleIs] at goes
      exact ⟨sn, way, numbered, goes, full_of_rejects soundAfter gatedAfter valid rejects⟩
    · obtain ⟨es, soundAfter, gatedAfter⟩ :=
        gated_react sound gated (m := ⟨directory, timers, .control payload⟩) known
      obtain ⟨sn, hop, numbered, serving, rejects⟩ := rejects_submitControl answered dropped
      rw [nodeIs] at serving
      exact ⟨sn, hop, numbered, serving, full_of_rejects soundAfter gatedAfter valid rejects⟩

/-- Queues with room for one. -/
def narrowQueues : PlaneSettings := { PlaneSettings.default with link := ⟨1, 1000, 512⟩ }

def narrow : DataPlane := ((new ⟨1⟩ .peerDirect narrowQueues).toOption).getD default

theorem new_narrow : new ⟨1⟩ .peerDirect narrowQueues = .ok narrow := rfl

/-- The directory of two nodes, of which the first is served by a third. -/
def laterDirectory : Directory := ((Directory.pair.serve ⟨1⟩ ⟨3⟩).toOption).getD default

/-- The first node sends a packet, comes to be served by another node, begins to switch the path of the second node,
and sends a packet that waits for the switch. -/
def handover : List Moment :=
  (Stimulus.packet .hello "voice").inPair ::
    [.pathSwitch ⟨2⟩ .infrastructure false, .packet .hello "voice"].map fun stimulus =>
      ⟨laterDirectory, ⟨0, 0, []⟩, stimulus⟩

/-- A third packet finds no room among those that wait. -/
theorem gates_consistent_at_handover :
    let q := narrow.after handover
    let last := q.submit laterDirectory ⟨0, 0, []⟩ .hello "voice"
    new ⟨1⟩ .peerDirect narrowQueues = .ok narrow ∧ (∀ m ∈ handover, Directory.pair.SameNodes m.directory) ∧
      (q.buffers.get? ⟨⟨2⟩, .first⟩).map (·.holding) = some true ∧
      last.result = .ok ⟨.first, some 2, .dropped .queueFull⟩ ∧
      (∀ k b, q.buffers.get? k = some b →
        (b.holding = true ↔ ∃ peer, k ∈ q.links.keys peer ∧ q.switches.isSwitching peer = true)) ∧
      (∀ peer, q.switches.isSwitching peer = false → q.switches.deferred peer = []) ∧
      (∀ k b, q.buffers.get? k = some b → b.counters.refused = 0) ∧
      ∃ sn way, some (2 : UInt32) = some sn ∧ laterDirectory.way? ⟨1⟩ .peerDirect Packet.hello.endpoints = some way ∧
        last.plane.Full laterDirectory way .first (Packet.hello.unit narrowQueues.compression sn) := by
  intro q last
  have moved : Directory.pair.SameNodes laterDirectory :=
    .of_serve (show Directory.pair.serve ⟨1⟩ ⟨3⟩ = .ok laterDirectory from rfl)
  have same : ∀ m ∈ handover, Directory.pair.SameNodes m.directory := by
    intro m member
    rcases List.mem_cons.1 member with rfl | later
    · exact .refl _
    · obtain ⟨stimulus, -, rfl⟩ := List.mem_map.1 later
      exact moved
  have answered : last.result = .ok ⟨.first, some 2, .dropped .queueFull⟩ := by
    have answer : last.result.toOption = some ⟨.first, some 2, .dropped .queueFull⟩ := by decide +kernel
    cases result : last.result with
    | error cause =>
      rw [result] at answer
      cases answer
    | ok dispatch =>
      rw [result] at answer
      exact congrArg Except.ok (Option.some.inj answer)
  obtain ⟨holding, idle, unrefused, full⟩ := gates_consistent new_narrow same
  exact ⟨new_narrow, same, by decide +kernel, answered, holding, idle, unrefused,
    (full laterDirectory moved _ _ rfl).1 _ _ answered⟩

end DataPlane
end Sidelink
