import Sidelink.Proofs.Placement

/-!
Whom frames are for. The path of a frame and the node it is sent to tell whom it can reach: the members of a group, all
at once; the next hop itself; or one node, to which the infrastructure passes it on (`Path.Serves`). In a directory
where every address and every serving node belong to a node (`Directory.Closed`), all frames of a node are for nodes of
the directory that they can reach (`Frame.Addressed`), although a buffer keeps its path while units are routed anew:
units of one connection all go one way (`DataPlane.Goes`), and a buffer carries what goes that way.
-/
namespace Sidelink

/-! ## Recipients -/

/-- Whether a node is in a directory. -/
def Directory.Knows (d : Directory) (node : NodeId) : Prop := d.nodes.contains node = true

/-- Whether a directory names its own nodes only. -/
structure Directory.Closed (d : Directory) : Prop where
  owners : ∀ {host node}, d.owners.get? host = some node → d.Knows node
  serving : ∀ {node serving}, d.serving? node = some serving → d.Knows serving

/-- Whether frames that are sent to a node on a path reach some recipients, each of them once. -/
def Path.Serves (path : Path) (hop : NodeId) (recipients : List NodeId) : Prop :=
  match path with
  | .multicast => recipients.Nodup
  | .direct => recipients = [hop]
  | .infrastructure => ∃ recipient, recipients = [recipient]

/-- Whether a frame is for nodes of a directory that it can reach. -/
structure Frame.Addressed (d : Directory) (f : Frame) : Prop where
  serves : f.envelope.path.Serves f.envelope.nextHop f.envelope.recipients
  known : ∀ recipient ∈ f.envelope.recipients, d.Knows recipient

theorem Path.Serves.nodup {path : Path} {hop : NodeId} {recipients : List NodeId}
    (serves : path.Serves hop recipients) : recipients.Nodup := by
  cases path with
  | multicast => exact serves
  | direct =>
    obtain rfl : recipients = [hop] := serves
    exact List.pairwise_singleton _ _
  | infrastructure =>
    obtain ⟨recipient, rfl⟩ := serves
    exact List.pairwise_singleton _ _

/-! ## Ways -/

/-- Whether the units that go a way are for some recipients. -/
def Way.Addresses (way : Way) (recipients : List NodeId) : Prop :=
  match way with
  | .toPeer peer => recipients = [peer]
  | .toHop hop path => path.Serves hop recipients

/-- Whether units on a way may wait in a buffer towards a node, on the path of the buffer. A peer is reached on its own,
or through the infrastructure. -/
def Way.Carries (way : Way) (node : NodeId) (path : Path) : Prop :=
  match way with
  | .toPeer peer => path = .infrastructure ∨ node = peer
  | .toHop hop path' => node = hop ∧ path = path'

theorem Way.serves {way : Way} {node : NodeId} {path : Path} {recipients : List NodeId}
    (carries : way.Carries node path) (addresses : way.Addresses recipients) : path.Serves node recipients := by
  cases way with
  | toPeer peer =>
    obtain rfl : recipients = [peer] := addresses
    rcases carries with rfl | rfl
    · exact ⟨peer, rfl⟩
    · cases path with
      | multicast => exact List.pairwise_singleton _ _
      | direct => rfl
      | infrastructure => exact ⟨node, rfl⟩
  | toHop hop path' =>
    obtain ⟨rfl, rfl⟩ := carries
    exact addresses

theorem DataPlane.carries_of_leads {p : DataPlane} {directory : Directory} {hop : NodeId} {path : Path} {way : Way}
    (leads : p.Leads directory hop path way) : way.Carries hop path := by
  cases way with
  | toPeer peer =>
    obtain ⟨-, -, goes⟩ := leads
    cases path with
    | infrastructure => exact Or.inl rfl
    | direct | multicast => exact Or.inr (Option.some.inj goes).symm
  | toHop hop' path' => exact ⟨leads.1.symm, leads.2.symm⟩

/-- Whether a way leads to some recipients, all of them nodes of a directory. -/
def Directory.Admits (d : Directory) (way : Way) (recipients : List NodeId) : Prop :=
  way.Addresses recipients ∧ ∀ recipient ∈ recipients, d.Knows recipient

/-! ## Recipients of routes -/

namespace Directory
variable {d : Directory}

theorem known_of_resolve? (closed : d.Closed) {address : Address} {node : NodeId}
    (resolved : d.resolve? address = some node) : d.Knows node := by
  cases address with
  | ip host => exact closed.owners resolved
  | token value =>
    simp only [resolve?] at resolved
    split at resolved
    · split at resolved
      · rename_i known
        exact Option.some.inj resolved ▸ known
      · cases resolved
    · cases resolved

theorem known_of_terminal {node : NodeId} (member : node ∈ d.terminals) : d.Knows node := by
  rw [terminals, SortedMap.mem_keys_iff, SortedMap.contains_eq_true_iff] at member
  obtain ⟨record, found⟩ := member
  exact (SortedMap.contains_eq_true_iff _ _).2 ⟨record, ((SortedMap.get?_filter_eq_some_iff _ _ _ _).1 found).1⟩

end Directory

theorem SortedMap.mem_of_get?_ofList {κ ν : Type} [Ranked κ] {l : List (κ × ν)} {k : κ} {v : ν}
    (found : (ofList l).get? k = some v) : (k, v) ∈ l := by
  have inserted (l : List (κ × ν)) (m : SortedMap κ ν) (found : (m.insertAll l).get? k = some v) :
      (k, v) ∈ l ∨ m.get? k = some v := by
    induction l generalizing m with
    | nil => exact Or.inr found
    | cons e rest ih =>
      rcases ih (m.insert e.1 e.2) found with later | before
      · exact Or.inl (List.mem_cons_of_mem _ later)
      · by_cases same : k = e.1
        · rw [same, get?_insert_self] at before
          rw [same, ← Option.some.inj before]
          exact Or.inl List.mem_cons_self
        · exact Or.inr (get?_insert_of_ne m same e.2 ▸ before)
  exact (inserted l .empty found).resolve_right fun nothing => by cases nothing

theorem nodup_groupWithin (source : NodeId) (positions : SortedMap NodeId Position) (radius : Float) :
    (groupWithin source positions radius).Nodup := by
  unfold groupWithin
  split
  · exact List.nodup_nil
  · exact SortedMap.nodup_keys _

theorem mem_groupWithin {source member : NodeId} {positions : SortedMap NodeId Position} {radius : Float}
    (within : member ∈ groupWithin source positions radius) : positions.contains member = true := by
  unfold groupWithin at within
  split at within
  · cases within
  · obtain ⟨position, found⟩ := (SortedMap.contains_eq_true_iff _ _).1 ((SortedMap.mem_keys_iff _ _).1 within)
    exact (SortedMap.contains_eq_true_iff _ _).2 ⟨position, ((SortedMap.get?_filter_eq_some_iff _ _ _ _).1 found).1⟩

namespace RoutingView
variable {v : RoutingView} {packet : Packet} {route : Route}

theorem known_of_position {node : NodeId} (placed : v.positions.contains node = true) : v.directory.Knows node := by
  obtain ⟨position, found⟩ := (SortedMap.contains_eq_true_iff _ _).1 placed
  obtain ⟨terminal, member, here⟩ := List.mem_filterMap.1 (SortedMap.mem_of_get?_ofList found)
  obtain ⟨_, -, same⟩ := Option.map_eq_some_iff.1 here
  obtain ⟨rfl, -⟩ := Prod.mk.inj same
  exact Directory.known_of_terminal member

/-- A route leads to its recipients, and all of them are in the directory. -/
theorem admits_route {role : Role} (closed : v.directory.Closed) (routed : v.route role packet = .ok route) :
    v.directory.Admits route.way route.recipients := by
  have single {destination : NodeId} (resolved : v.destination? packet = some destination) :
      ∀ recipient ∈ [destination], v.directory.Knows recipient := fun recipient member => by
    rw [List.mem_singleton.1 member]
    exact Directory.known_of_resolve? closed resolved
  obtain ⟨direction, handles⟩ := exists_handles routed
  cases handles with
  | @served serving serves =>
    refine ⟨⟨_, rfl⟩, fun recipient member => ?_⟩
    rw [List.mem_singleton.1 member]
    cases resolved : v.destination? packet with
    | none => exact closed.serving serves
    | some destination => exact Directory.known_of_resolve? closed resolved
  | down known => exact ⟨⟨_, rfl⟩, single known⟩
  | group many => exact ⟨nodup_groupWithin _ _ _, fun recipient within => known_of_position (mem_groupWithin within)⟩
  | peer _ known near leads => exact ⟨rfl, single known⟩
  | distant _ known far serves => exact ⟨⟨_, rfl⟩, single known⟩

end RoutingView

/-! ## The one way of a connection -/

namespace DataPlane
variable {p q : DataPlane} {directory : Directory} {l : Lcid} {way way' : Way}

/-- Whether the units of a connection go a way. Control traffic goes to the node that serves this one. -/
def Goes (p : DataPlane) (directory : Directory) (l : Lcid) (way : Way) : Prop :=
  (l = .control ∧ ∃ serving, directory.serving? p.node = some serving ∧ way = .toHop serving .infrastructure) ∨
    ∃ endpoints direction, p.flows.lookup? (.ofEndpoints endpoints direction) = some l ∧
      directory.way? p.node p.role endpoints = some way

theorem Goes.takes (goes : p.Goes directory l way) : p.Takes directory l way :=
  goes.imp_left fun ⟨control, serving, _, is⟩ => ⟨control, serving, .infrastructure, is⟩

theorem goes_unique (valid : p.flows.Valid) (one : p.Goes directory l way) (other : p.Goes directory l way') :
    way = way' := by
  by_cases control : l = .control
  · subst control
    have serves {way : Way} (goes : p.Goes directory .control way) :
        ∃ serving, directory.serving? p.node = some serving ∧ way = .toHop serving .infrastructure := by
      rcases goes with ⟨-, serves⟩ | ⟨_, _, found, -⟩
      · exact serves
      · exact absurd rfl (FlowTable.not_control_of_lookup? valid found)
    obtain ⟨serving, found, rfl⟩ := serves one
    obtain ⟨serving', found', rfl⟩ := serves other
    rw [Option.some.inj (found.symm.trans found')]
  · exact takes_unique valid control one.takes other.takes

theorem Goes.mono (goes : p.Goes directory l way) (node : q.node = p.node) (role : q.role = p.role)
    (kept : ∀ {key l}, p.flows.lookup? key = some l → q.flows.lookup? key = some l) : q.Goes directory l way := by
  rcases goes with ⟨control, serving, found, is⟩ | ⟨endpoints, direction, found, goes⟩
  · exact Or.inl ⟨control, serving, by rw [node]; exact found, is⟩
  · exact Or.inr ⟨endpoints, direction, kept found, by rw [node, role]; exact goes⟩

/-- Whether a unit goes a way that leads to its recipients. -/
def Sends (p : DataPlane) (directory : Directory) (way : Way) (unit : DeferredSdu) : Prop :=
  p.Goes directory unit.lcid way ∧ directory.Admits way unit.recipients

/-- Whether all that waits in a buffer goes a way that the buffer is on. -/
def Ships (p : DataPlane) (directory : Directory) (key : EntityKey) (b : TransmitBuffer) : Prop :=
  ∃ way, p.Goes directory key.lcid way ∧ way.Carries key.node b.path ∧
    ∀ pdu ∈ b.queue, directory.Admits way pdu.recipients

theorem Ships.addressed {key : EntityKey} {b : TransmitBuffer} {pdu : QueuedPdu} (ships : p.Ships directory key b)
    (queued : pdu ∈ b.queue) : (b.frame p.node key pdu).Addressed directory := by
  obtain ⟨way, -, carries, admits⟩ := ships
  exact ⟨Way.serves carries (admits pdu queued).1, (admits pdu queued).2⟩

end DataPlane

/-! ## What changes do to units and buffers -/

namespace Change
variable {directory : Directory} {a b : Stage} {es : List Effect}

/-- A frame that is sent has waited in its buffer. -/
theorem sent_from (change : Change directory a es b) {f : Frame} (sent : f ∈ sentOf es) :
    ∃ key buffer, a.plane.buffers.get? key = some buffer ∧ ∃ pdu ∈ buffer.queue,
      f = buffer.frame a.plane.node key pdu := by
  cases change with
  | @serve p tasks key buffer pdu rest found queued =>
    refine ⟨key, buffer, found, pdu, ?_, List.mem_singleton.1 sent⟩
    rw [queued]
    exact List.mem_cons_self
  | offer leads =>
    rw [sentOf_admitted] at sent
    cases sent
  | _ => cases sent

/-- Whether all that waits in a buffer did so in a buffer of one path before, which may have been a new one, or came
from a unit that was offered to it. -/
inductive Fills (directory : Directory) (a : Stage) (key : EntityKey) (b : TransmitBuffer) : Prop
  | kept {before : TransmitBuffer} (found : a.plane.buffers.get? key = some before) (path : b.path = before.path)
      (queue : b.queue ⊆ before.queue)
  | offered {task : Task} {rest : List Task} {hop : NodeId} {path : Path} (tasks : a.tasks = task :: rest)
      (leads : a.plane.Leads directory hop path task.way) (key_eq : key = ⟨hop, task.unit.lcid⟩)
      (path_eq : b.path = (a.plane.bufferFor hop path task.unit).path)
      (queue : ∀ pdu ∈ b.queue,
        pdu ∈ (a.plane.bufferFor hop path task.unit).queue ∨ pdu.recipients = task.unit.recipients)

theorem fills (change : Change directory a es b) {key : EntityKey} {buffer : TransmitBuffer}
    (found : b.plane.buffers.get? key = some buffer) : Fills directory a key buffer := by
  have some_keys {p : DataPlane} {tasks : List Task} {keys : List EntityKey} {f : TransmitBuffer → TransmitBuffer}
      (path : ∀ b, (f b).path = b.path) (queue : ∀ b, (f b).queue ⊆ b.queue)
      (found : (p.onBuffers keys f).buffers.get? key = some buffer) : Fills directory ⟨p, tasks⟩ key buffer := by
    rw [DataPlane.onBuffers, TransmitBuffers.get?_onKeys] at found
    obtain ⟨before, there, rfl⟩ := Option.map_eq_some_iff.1 found
    refine .kept there ?_ ?_
    · split
      · exact path before
      · rfl
    · split
      · exact queue before
      · exact List.Subset.refl _
  cases change with
  | quiet alike =>
    rw [alike.buffers] at found
    exact .kept found rfl (List.Subset.refl _)
  | issue mode routed created numbered =>
    obtain ⟨-, rfl⟩ := DataPlane.number_eq_some_iff.1 numbered
    exact .kept found rfl (List.Subset.refl _)
  | issueControl sdu served numbered =>
    obtain ⟨-, rfl⟩ := DataPlane.number_eq_some_iff.1 numbered
    exact .kept found rfl (List.Subset.refl _)
  | @offer p task tasks hop path leads =>
    by_cases same : key = ⟨hop, task.unit.lcid⟩
    · rw [same, DataPlane.stored, SortedMap.get?_insert_self] at found
      obtain rfl := Option.some.inj found
      refine .offered rfl leads same (DataPlane.offer_unchanged _ _ _ _).2.1 fun pdu queued => ?_
      rw [DataPlane.offer_queue, List.mem_append] at queued
      refine queued.imp_right fun new => ?_
      split at new
      · obtain ⟨bytes, -, rfl⟩ := List.mem_map.1 new
        rfl
      · cases new
    · rw [DataPlane.stored, SortedMap.get?_insert_of_ne _ same] at found
      exact .kept found rfl (List.Subset.refl _)
  | hold peer target => exact some_keys (f := TransmitBuffer.hold) (fun b => rfl) (fun b => List.Subset.refl _) found
  | discard peer => exact some_keys (f := TransmitBuffer.discard) (fun b => rfl) (fun b => List.nil_subset _) found
  | @complete p tasks peer target check switching drained =>
    exact some_keys (p := p) (f := TransmitBuffer.resume) (fun b => rfl) (fun b => List.Subset.refl _) found
  | @serve p tasks served before pdu rest there queued =>
    by_cases same : key = served
    · rw [same, SortedMap.get?_insert_self] at found
      rw [same, ← Option.some.inj found]
      refine .kept there rfl ?_
      simp only [TransmitBuffer.pull]
      exact List.drop_subset _ _
    · rw [SortedMap.get?_insert_of_ne _ same] at found
      exact .kept found rfl (List.Subset.refl _)
  | leave peer =>
    rcases DataPlane.get?_peerDeparted _ peer key with same | gone
    · rw [same] at found
      exact .kept found rfl (List.Subset.refl _)
    · rw [gone] at found
      cases found
  | clear => cases found
  | _ => exact .kept found rfl (List.Subset.refl _)

end Change

/-! ## Everything is addressed -/

/-- Whether everything that is under way, waits or is queued goes a way that leads to its recipients. -/
structure Addressed (directory : Directory) (s : Stage) : Prop where
  flows : s.plane.flows.Valid
  tasks : ∀ task ∈ s.tasks, s.plane.Sends directory task.way task.unit
  waiting : ∀ peer, ∀ unit ∈ s.deferred peer, s.plane.Sends directory (.toPeer peer) unit
  buffers : ∀ {key b}, s.plane.buffers.get? key = some b → s.plane.Ships directory key b

theorem DataPlane.Sends.mono {p q : DataPlane} {directory : Directory} {way : Way} {unit : DeferredSdu}
    (sends : p.Sends directory way unit) (node : q.node = p.node) (role : q.role = p.role)
    (kept : ∀ {key l}, p.flows.lookup? key = some l → q.flows.lookup? key = some l) : q.Sends directory way unit :=
  ⟨sends.1.mono node role kept, sends.2⟩

namespace Change
variable {directory : Directory} {a b : Stage} {es : List Effect}

theorem flows_valid (change : Change directory a es b) (valid : a.plane.flows.Valid) : b.plane.flows.Valid := by
  cases change with
  | quiet alike => exact valid.congr alike.lcids alike.next
  | issue mode routed created numbered =>
    obtain ⟨-, rfl⟩ := DataPlane.number_eq_some_iff.1 numbered
    exact FlowTable.valid_create valid created
  | issueControl sdu served numbered =>
    obtain ⟨-, rfl⟩ := DataPlane.number_eq_some_iff.1 numbered
    exact valid
  | clear => exact FlowTable.valid_clear valid
  | _ => exact valid

/-- A connection stays with its flow, unless everything is forgotten. -/
theorem keeps_lookup (change : Change directory a es b) :
    (∀ {key l}, a.plane.flows.lookup? key = some l → b.plane.flows.lookup? key = some l) ∨
      b.tasks = [] ∧ (∀ peer, b.deferred peer = []) ∧ b.plane.buffers = .empty := by
  cases change with
  | quiet alike =>
    refine Or.inl fun {key l} found => ?_
    rw [FlowTable.lookup?, alike.lcids]
    exact found
  | issue mode routed created numbered =>
    obtain ⟨-, rfl⟩ := DataPlane.number_eq_some_iff.1 numbered
    exact Or.inl (FlowTable.lookup?_mono created)
  | issueControl sdu served numbered =>
    obtain ⟨-, rfl⟩ := DataPlane.number_eq_some_iff.1 numbered
    exact Or.inl id
  | clear => exact Or.inr ⟨rfl, fun peer => rfl, rfl⟩
  | _ => exact Or.inl id

/-- A unit that is under way was so before, has waited for its peer, or goes the way of its route. -/
theorem task_cases (change : Change directory a es b) (closed : directory.Closed) {task : Task}
    (member : task ∈ b.tasks) :
    task ∈ a.tasks ∨ (∃ peer, task.way = .toPeer peer ∧ task.unit ∈ a.deferred peer) ∨
      b.plane.Sends directory task.way task.unit := by
  cases change with
  | issue mode routed created numbered =>
    obtain ⟨-, rfl⟩ := DataPlane.number_eq_some_iff.1 numbered
    refine (List.mem_append.1 member).imp_right fun new => Or.inr ?_
    obtain rfl := List.mem_singleton.1 new
    exact ⟨Or.inr ⟨_, _, FlowTable.lookup?_create created, RoutingView.way_of_route routed⟩,
      RoutingView.admits_route closed routed⟩
  | @issueControl p q tasks sn entity serving sdu served numbered =>
    obtain ⟨-, rfl⟩ := DataPlane.number_eq_some_iff.1 numbered
    refine (List.mem_append.1 member).imp_right fun new => Or.inr ?_
    obtain rfl := List.mem_singleton.1 new
    refine ⟨Or.inl ⟨rfl, serving, served, rfl⟩, ⟨serving, rfl⟩, fun recipient only => ?_⟩
    rw [List.mem_singleton.1 only]
    exact closed.serving served
  | @complete p tasks peer target check switching drained =>
    rcases List.mem_append.1 member with new | old
    · obtain ⟨unit, waited, rfl⟩ := List.mem_map.1 new
      exact Or.inr (Or.inl ⟨peer, rfl, waited⟩)
    · exact Or.inl old
  | offer leads | lose => exact Or.inl (List.mem_cons_of_mem _ member)
  | wait switching found => cases member
  | _ => exact Or.inl member

/-- A buffer goes on shipping what goes its way: a unit that is offered to it is one of its connection, and all these go
the same way. -/
theorem ships (change : Change directory a es b) (addressed : Addressed directory a) {key : EntityKey}
    {buffer : TransmitBuffer} (found : b.plane.buffers.get? key = some buffer) :
    a.plane.Ships directory key buffer := by
  rcases change.fills found with ⟨before, path, queue⟩ | ⟨tasks, leads, rfl, path, queue⟩
  · obtain ⟨way, goes, carries, admits⟩ := addressed.buffers before
    exact ⟨way, goes, path ▸ carries, fun pdu queued => admits pdu (queue queued)⟩
  · rename_i task rest hop path'
    obtain ⟨goes, admits⟩ := addressed.tasks task (tasks ▸ List.mem_cons_self)
    have first : task.way.Carries hop (a.plane.bufferFor hop path' task.unit).path ∧
        ∀ pdu ∈ (a.plane.bufferFor hop path' task.unit).queue, directory.Admits task.way pdu.recipients := by
      rw [DataPlane.bufferFor]
      cases known : a.plane.buffers.get? ⟨hop, task.unit.lcid⟩ with
      | none => exact ⟨DataPlane.carries_of_leads leads, fun pdu queued => by cases queued⟩
      | some before =>
        obtain ⟨way, goes', carries, admits'⟩ := addressed.buffers known
        obtain rfl := DataPlane.goes_unique addressed.flows goes' goes
        exact ⟨carries, admits'⟩
    refine ⟨task.way, goes, path ▸ first.1, fun pdu queued => ?_⟩
    rcases queue pdu queued with old | new
    · exact first.2 pdu old
    · exact new ▸ admits

theorem addressed (change : Change directory a es b) (closed : directory.Closed) (addressed : Addressed directory a) :
    Addressed directory b := by
  obtain ⟨node, role, -⟩ := change.fixed
  have valid := change.flows_valid addressed.flows
  rcases change.keeps_lookup with kept | ⟨noTasks, nothing, noBuffers⟩
  · refine ⟨valid, fun task member => ?_, fun peer unit member => ?_, fun found => ?_⟩
    · rcases change.task_cases closed member with old | ⟨peer, way, waited⟩ | new
      · exact (addressed.tasks task old).mono node role kept
      · exact way ▸ (addressed.waiting peer task.unit waited).mono node role kept
      · exact new
    · rcases change.moved.mem_deferred member with old | left
      · exact (addressed.waiting peer unit old).mono node role kept
      · exact (addressed.tasks _ left).mono node role kept
    · obtain ⟨way, goes, carries, admits⟩ := change.ships addressed found
      exact ⟨way, goes.mono node role kept, carries, admits⟩
  · refine ⟨valid, fun task member => ?_, fun peer unit member => ?_, fun found => ?_⟩
    · rw [noTasks] at member
      cases member
    · rw [nothing] at member
      cases member
    · rw [noBuffers] at found
      cases found

end Change

namespace DataPlane
variable {p : DataPlane} {directory : Directory}

theorem addressed_new {node : NodeId} {role : Role} {settings : PlaneSettings} (directory : Directory)
    (made : new node role settings = .ok p) : Addressed directory ⟨p, []⟩ := by
  obtain ⟨-, rfl⟩ := eq_of_new made
  exact ⟨FlowTable.valid_empty, fun task member => (by cases member), fun peer unit waits => (by cases waits),
    fun found => by cases found⟩

theorem addressed_of_alike {q : DataPlane} (alike : Alike p q) (closed : directory.Closed)
    (addressed : Addressed directory ⟨p, []⟩) : Addressed directory ⟨q, []⟩ :=
  (Change.quiet alike).addressed closed addressed

/-- Whatever happens to a node, it goes on sending frames to nodes that they reach. -/
theorem addressed_react {m : Moment} (closed : m.directory.Closed) (addressed : Addressed m.directory ⟨p, []⟩) :
    Addressed m.directory ⟨(p.react m).plane, []⟩ ∧ ∀ f ∈ (p.react m).sent, f.Addressed m.directory := by
  obtain ⟨effects, chain, tells, -⟩ := p.react_chain m
  rw [← tells.sent]
  refine @Chain.invariant _ _ _ _ (fun hs s => Addressed m.directory s ∧ ∀ f ∈ sentOf hs, f.Addressed m.directory) ?_ []
    ⟨addressed, fun f sent => by cases sent⟩ chain
  rintro hs _ a b es rfl change ⟨addressed, sent⟩
  refine ⟨change.addressed closed addressed, fun f member => ?_⟩
  rw [sentOf_append, List.mem_append] at member
  rcases member with old | new
  · exact sent f old
  · obtain ⟨key, buffer, found, pdu, queued, rfl⟩ := change.sent_from new
    exact (addressed.buffers found).addressed queued

end DataPlane
end Sidelink
