import Sidelink.Proofs.Steps

/-!
The tables of a node agree. Its flows and their ids, the numbering and the descriptor of each connection are told here
as one thing (`Connections`), which only packets, control traffic and the departure of the node itself change
(`Connections.Step`). Units, buffers and links refer to connections that are there (`Filed`), at every stage of every
run. So the same connections are in all tables at any time, whatever happened before and whether or not it succeeded
(`DataPlane.tables_agree`).
-/
namespace Sidelink

/-! ## What is kept of connections -/

/-- The flows of a node with their ids, the numbering of its connections, and the last number in each descriptor. -/
structure Connections where
  /-- Without descriptors. -/
  flows : FlowTable
  convergence : SortedMap Lcid ConvergenceEntity
  lastSns : SortedMap Lcid (Option UInt32)

namespace FlowTable
variable {t t' : FlowTable} {key : FlowKey} {l : Lcid}

/-- The table without its descriptors. -/
def bare (t : FlowTable) : FlowTable := { t with descriptors := .empty }

/-- Whether a connection belongs to a flow. -/
def Opened (t : FlowTable) (l : Lcid) : Prop := ∃ key, t.lookup? key = some l

@[simp] theorem lookup?_bare (t : FlowTable) (key : FlowKey) : t.bare.lookup? key = t.lookup? key := rfl

theorem create_bare (created : t.create key = some (l, t')) :
    t.bare.create key = some (l, t'.bare) ∧ t'.descriptors = t.descriptors := by
  rw [create, lookupOrCreate] at created ⊢
  rw [lookup?_bare]
  cases found : t.lookup? key with
  | some known =>
    rw [found] at created
    cases created
    exact ⟨rfl, rfl⟩
  | none =>
    rw [found] at created
    by_cases room : t.next < 0xFFFF
    · rw [if_pos room] at created
      cases created
      exact ⟨by rw [if_pos (show t.bare.next < 0xFFFF from room)]; rfl, rfl⟩
    · rw [if_neg room] at created
      cases created

/-- A flow opens its own connection only. -/
theorem opened_create (created : t.create key = some (l, t')) (l' : Lcid) : t'.Opened l' ↔ l' = l ∨ t.Opened l' := by
  constructor
  · rintro ⟨key', found⟩
    rcases create_cases created with ⟨-, rfl⟩ | ⟨-, -, rfl, rfl⟩
    · exact Or.inr ⟨key', found⟩
    · rw [lookup?_added] at found
      split at found
      · exact Or.inl (Option.some.inj found).symm
      · exact Or.inr ⟨key', found⟩
  · rintro (rfl | ⟨key', found⟩)
    · exact ⟨key, lookup?_create created⟩
    · exact ⟨key', lookup?_mono created found⟩

theorem not_opened_clear (t : FlowTable) (l : Lcid) : ¬ t.clear.Opened l := by
  rintro ⟨key, found⟩
  rw [lookup?_clear] at found
  cases found

/-- A connection that is described anew where it is not described yet has the number in its descriptor that it is given
there. -/
theorem lastSns_numbered (t : FlowTable) (anew : Bool) (d : Descriptor) (path : Path) (sn : UInt32) :
    ((if anew || !t.descriptors.contains d.lcid then t.setDescriptor d else t).modifyDescriptor d.lcid
      fun d => { d with path, lastSn := some sn }).lastSns = t.lastSns.insert d.lcid (some sn) := by
  refine SortedMap.ext_get? fun l => ?_
  simp only [lastSns, modifyDescriptor, SortedMap.get?_mapEntries, SortedMap.get?_modify]
  by_cases same : l = d.lcid
  · subst same
    rw [if_pos rfl, SortedMap.get?_insert_self]
    split
    · simp only [setDescriptor, SortedMap.get?_insert_self]
      rfl
    · rename_i known
      have there : t.descriptors.contains d.lcid = true := by
        cases contained : t.descriptors.contains d.lcid with
        | true => rfl
        | false => exact absurd (by rw [contained, Bool.not_false, Bool.or_true]) known
      obtain ⟨d', found⟩ := (SortedMap.contains_eq_true_iff _ _).1 there
      rw [found]
      rfl
  · rw [if_neg fun ranks => same (Ranked.rank_inj ranks), SortedMap.get?_insert_of_ne _ same, SortedMap.get?_mapEntries]
    split
    · simp only [setDescriptor, SortedMap.get?_insert_of_ne _ same]
    · rfl

end FlowTable

/-- What can happen to the connections of a node while it stays, and the answers that packets get: the flow of each, and
the connection and the number that it is given. -/
inductive Connections.Step (settings : CompressionSettings) (c : Connections) :
    List (FlowKey × Lcid × Option UInt32) → Connections → Prop
  | same : Step settings c [] c
  /-- A packet has no route. -/
  | routeless (key : FlowKey) : Step settings c [(key, (c.flows.lookup? key).getD .notFound, none)] c
  | issue {key : FlowKey} {l : Lcid} {flows : FlowTable} {sn : UInt32} {entity : ConvergenceEntity}
      (created : c.flows.create key = some (l, flows))
      (numbered : ((c.convergence.get? l).getD (.new l settings)).next? = some (sn, entity)) :
      Step settings c [(key, l, some sn)] ⟨flows, c.convergence.insert l entity, c.lastSns.insert l (some sn)⟩
  | control {sn : UInt32} {entity : ConvergenceEntity}
      (numbered : ((c.convergence.get? .control).getD (.new .control settings)).next? = some (sn, entity)) :
      Step settings c [] { c with convergence := c.convergence.insert .control entity }

namespace DataPlane
variable {p q : DataPlane} {directory : Directory} {timers : Timers}

def connections (p : DataPlane) : Connections := ⟨p.flows.bare, p.convergence, p.flows.lastSns⟩

/-- The flow of a packet. -/
def flowKey (p : DataPlane) (directory : Directory) (packet : Packet) : FlowKey :=
  .ofEndpoints packet.endpoints ((p.view directory).direction p.role packet)

/-- The flow, the connection and the number of a packet that was taken. -/
def answer (p : DataPlane) (directory : Directory) (x : Packet × Dispatch) : FlowKey × Lcid × Option UInt32 :=
  (p.flowKey directory x.1, x.2.lcid, x.2.sn)

/-- The flow of a packet depends on its endpoints, and on the node and the directory, but on no path. -/
theorem flowKey_congr {packet packet' : Packet} (node : q.node = p.node) (role : q.role = p.role)
    (same : packet'.endpoints = packet.endpoints) : q.flowKey directory packet' = p.flowKey directory packet := by
  simp only [flowKey, RoutingView.direction, RoutingView.destination?, view, node, role, same]
  rfl

theorem answer_congr (node : q.node = p.node) (role : q.role = p.role) : q.answer directory = p.answer directory :=
  funext fun x => congrArg (·, x.2.lcid, x.2.sn) (flowKey_congr node role rfl)

/-! ## What leaves connections alone -/

theorem Inbound.connections (inbound : Inbound p q) : q.connections = p.connections := by
  obtain ⟨_, _, _, _, _, rfl⟩ := inbound
  rfl

theorem Outbound.connections (outbound : Outbound p q) : q.connections = p.connections := by
  simp only [DataPlane.connections, FlowTable.bare, outbound.lcids, outbound.next, outbound.lastSns,
    outbound.convergence]

/-! ## What changes connections -/

/-- A packet that has a route is given the connection of its flow and the next number there, or nothing changes. -/
theorem connections_send (p : DataPlane) (directory : Directory) (timers : Timers) (packet : Packet) (profile : Profile)
    (mode : DeliveryMode) (route : Route) :
    let s := p.send directory timers packet profile mode ((p.view directory).direction p.role packet) route
    p.connections.Step p.settings.compression ((s.dispatched packet).map (p.answer directory)) s.plane.connections := by
  simp only [send]
  cases created : p.flows.lookupOrCreate
      (.ofEndpoints packet.endpoints ((p.view directory).direction p.role packet)) with
  | none => exact .same
  | some given =>
    obtain ⟨l, new, flows⟩ := given
    simp only
    have opened : p.flows.create (p.flowKey directory packet) = some (l, flows) := by
      rw [FlowTable.create, flowKey, created]
      rfl
    obtain ⟨bare, descriptors⟩ := FlowTable.create_bare opened
    generalize describing : p.describe l profile ((p.view directory).direction p.role packet) route = d
    have own : d.lcid = l := describing ▸ rfl
    have table (sn : UInt32) := FlowTable.lastSns_numbered flows new d route.path sn
    rw [own] at table
    have kept : (if new || !flows.descriptors.contains l then flows.setDescriptor d else flows).bare = flows.bare := by
      split <;> rfl
    generalize (if new || !flows.descriptors.contains l then flows.setDescriptor d else flows) = described
      at table kept ⊢
    cases numbered : { p with flows := described }.number l with
    | none => exact .same
    | some numbering =>
      obtain ⟨sn, entity, q⟩ := numbering
      obtain ⟨next, rfl⟩ := number_eq_some_iff.1 numbered
      have lastSns : flows.lastSns = p.flows.lastSns := by
        rw [FlowTable.lastSns, descriptors, FlowTable.lastSns]
      have issued : p.connections.Step p.settings.compression [(p.flowKey directory packet, l, some sn)]
          ⟨flows.bare, p.convergence.insert l entity, p.flows.lastSns.insert l (some sn)⟩ := .issue bare next
      simp only
      generalize planeIs : ({ p with
        flows := described.modifyDescriptor l fun d => { d with path := route.path, lastSn := some sn }
        convergence := p.convergence.insert l entity } : DataPlane) = q
      have after : q.connections = ⟨flows.bare, p.convergence.insert l entity, p.flows.lastSns.insert l (some sn)⟩ := by
        rw [← planeIs, connections, table sn, lastSns, ← kept]
        rfl
      cases route.peer with
      | none =>
        simp only [(outbound_offer q _ _ _ _ _ _ _).connections, after]
        exact issued
      | some peer =>
        simp only [(outbound_sendToPeer q _ _ _ _).connections, after]
        exact issued

theorem connections_submit (p : DataPlane) (directory : Directory) (timers : Timers) (packet : Packet) (hint : String) :
    let s := p.submit directory timers packet hint
    p.connections.Step p.settings.compression ((s.dispatched packet).map (p.answer directory)) s.plane.connections := by
  simp only [submit, noted_eq]
  -- Counting the packet changes no connection.
  cases DeliveryMode.ofCode? ((p.noted timers.now).settings.profiles.classify hint).modeCode.toNat with
  | none => exact .same
  | some mode =>
    simp only
    cases ((p.noted timers.now).view directory).route (p.noted timers.now).role packet with
    | error reason => exact .routeless (p.flowKey directory packet)
    | ok route => exact connections_send (p.noted timers.now) directory timers packet _ mode route

theorem connections_submitControl (p : DataPlane) (directory : Directory) (timers : Timers) (payload : Bytes) :
    p.connections.Step p.settings.compression [] (p.submitControl directory timers payload).plane.connections := by
  have advanced := outbound_advance p timers.now
  simp only [submitControl]
  generalize p.advance timers.now = q at advanced ⊢
  rw [← advanced.connections, ← advanced.settings]
  cases directory.serving? q.node with
  | none => exact .same
  | some serving =>
    simp only
    cases numbered : q.number .control with
    | none => exact .same
    | some numbering =>
      obtain ⟨sn, entity, r⟩ := numbering
      obtain ⟨next, rfl⟩ := number_eq_some_iff.1 numbered
      simp only [(outbound_offer _ _ _ _ _ _ _ _).connections]
      exact .control next

theorem connections_departed (p : DataPlane) :
    p.departed.connections = ⟨p.connections.flows.clear, .empty, .empty⟩ :=
  rfl

/-- Whatever happens to a node that stays is one step of its connections. -/
theorem connections_react (p : DataPlane) {m : Moment} (stays : m.stimulus ≠ .departed) :
    p.connections.Step p.settings.compression ((p.react m).dispatched.map (p.answer m.directory))
      (p.react m).plane.connections := by
  obtain ⟨directory, timers, stimulus⟩ := m
  have still {q : DataPlane} (same : q.connections = p.connections) :
      p.connections.Step p.settings.compression [] q.connections := by
    rw [same]
    exact .same
  cases stimulus with
  | packet packet hint => exact connections_submit p directory timers packet hint
  | control payload => exact connections_submitControl p directory timers payload
  | opportunity limit => exact still ((outbound_transmit p timers.now limit).trans (outbound_settle _ _ _)).connections
  | drainCheck peer => exact still (outbound_advance_applyStep p timers.now directory _).connections
  | pathSwitch peer path clear =>
    exact still ((inbound_replaceReceivers _ _ _ _).connections.trans
      (outbound_advance_applyStep p timers.now directory _).connections)
  | peerDeparted peer => exact still rfl
  | departed => exact absurd rfl stays
  | arrival frame => exact still (inbound_deliver p frame).connections

end DataPlane

/-! ## Tables that agree -/

/-- Whether the flows, the numbering and the descriptors are of the same connections. -/
structure Connections.Consistent (c : Connections) : Prop where
  valid : c.flows.Valid
  described : ∀ l, c.lastSns.contains l = true ↔ c.flows.Opened l
  numbered : ∀ l, c.convergence.contains l = true ∧ l ≠ .control ↔ c.flows.Opened l
  last : ∀ l last e, c.lastSns.get? l = some last → c.convergence.get? l = some e →
    ∃ sn, last = some sn ∧ sn.toNat + 1 = e.issued

namespace Connections.Consistent
variable {c c' : Connections} {settings : CompressionSettings} {answers : List (FlowKey × Lcid × Option UInt32)}

theorem of_clear {flows : FlowTable} (valid : flows.Valid) : Consistent ⟨flows.clear, .empty, .empty⟩ where
  valid := FlowTable.valid_clear valid
  described := fun l => iff_of_false Bool.false_ne_true (FlowTable.not_opened_clear flows l)
  numbered := fun l => iff_of_false (fun there => Bool.false_ne_true there.1) (FlowTable.not_opened_clear flows l)
  last := fun l last e found => by cases found

theorem step (consistent : c.Consistent) (step : c.Step settings answers c') : c'.Consistent := by
  cases step with
  | same | routeless => exact consistent
  | @issue key l flows sn entity created next =>
    have opened := FlowTable.opened_create created
    have valid := FlowTable.valid_create consistent.valid created
    have traffic := FlowTable.not_control_of_lookup? valid (FlowTable.lookup?_create created)
    refine ⟨valid, fun l' => ?_, fun l' => ?_, fun l' last e described known => ?_⟩
    · rw [opened, SortedMap.contains_insert, consistent.described]
    · rw [opened, SortedMap.contains_insert, ← consistent.numbered, or_and_right]
      exact or_congr (and_iff_left_of_imp fun same => same ▸ traffic) Iff.rfl
    · by_cases same : l' = l
      · obtain ⟨number, -, rfl⟩ := next?_eq_some next
        rw [same, SortedMap.get?_insert_self] at described known
        cases described
        cases known
        exact ⟨sn, rfl, congrArg (· + 1) number⟩
      · rw [SortedMap.get?_insert_of_ne _ same] at described known
        exact consistent.last l' last e described known
  | @control sn entity next =>
    refine ⟨consistent.valid, consistent.described, fun l => ?_, fun l last e described known => ?_⟩
    · rw [← consistent.numbered, SortedMap.contains_insert, or_and_right]
      exact or_iff_right fun ⟨same, traffic⟩ => traffic same
    · have open_l := (consistent.described l).1 ((SortedMap.contains_eq_true_iff _ _).2 ⟨last, described⟩)
      have traffic := ((consistent.numbered l).2 open_l).2
      rw [SortedMap.get?_insert_of_ne _ traffic] at known
      exact consistent.last l last e described known

end Connections.Consistent

namespace DataPlane

theorem consistent_new {node : NodeId} {role : Role} {settings : PlaneSettings} {p : DataPlane}
    (made : new node role settings = .ok p) : p.connections.Consistent := by
  obtain ⟨-, rfl⟩ := eq_of_new made
  exact .of_clear FlowTable.valid_empty

theorem consistent_after {p : DataPlane} (consistent : p.connections.Consistent) (ms : List Moment) :
    (p.after ms).connections.Consistent := by
  induction ms generalizing p with
  | nil => exact consistent
  | cons m rest ih =>
    refine ih ?_
    by_cases leaves : m.stimulus = .departed
    · obtain ⟨directory, timers, stimulus⟩ := m
      subst leaves
      rw [react, connections_departed]
      exact .of_clear consistent.valid
    · exact consistent.step (connections_react p leaves)

end DataPlane

/-! ## What refers to connections -/

theorem TransmitBuffers.contains_onKeys (buffers : TransmitBuffers) (keys : List EntityKey)
    (f : TransmitBuffer → TransmitBuffer) (k : EntityKey) :
    (onKeys buffers keys f).contains k = SortedMap.contains buffers k := by
  simp only [SortedMap.contains, get?_onKeys, Option.isSome_map]

/-- Whether units and buffers belong to connections that are there, and links to buffers. Control traffic has a
connection of its own, which no peer is linked with. -/
structure Filed (s : Stage) : Prop where
  tasks : ∀ task ∈ s.tasks, s.plane.flows.Opened task.unit.lcid ∨
    ∃ hop path, task.way = .toHop hop path ∧ task.unit.lcid = .control
  waiting : ∀ peer, ∀ unit ∈ s.deferred peer, s.plane.flows.Opened unit.lcid
  buffers : ∀ k, s.plane.buffers.contains k = true → k.lcid = .control ∨ s.plane.flows.Opened k.lcid
  links : ∀ peer k, s.plane.links.Joins peer k → s.plane.buffers.contains k = true ∧ s.plane.flows.Opened k.lcid

namespace Filed
variable {a b : Stage} {p : DataPlane} {tasks : List Task}

theorem of_empty (tasks : a.tasks = []) (waiting : ∀ peer, a.deferred peer = []) (buffers : a.plane.buffers = .empty)
    (links : a.plane.links = .empty) : Filed a where
  tasks := fun task member => by
    rw [tasks] at member
    cases member
  waiting := fun peer unit member => by
    rw [waiting] at member
    cases member
  buffers := fun k there => by
    rw [buffers] at there
    cases there
  links := fun peer k joined => by
    rw [links] at joined
    exact absurd joined (PeerLinks.not_joins_empty peer k)

/-- Whatever brings no unit and no buffer, and takes no buffer from a link, leaves everything where it belongs. -/
theorem of_fewer (filed : Filed a) (opened : ∀ l, a.plane.flows.Opened l → b.plane.flows.Opened l)
    (tasks : ∀ task ∈ b.tasks, task ∈ a.tasks) (waiting : ∀ peer, ∀ unit ∈ b.deferred peer, unit ∈ a.deferred peer)
    (buffers : ∀ k, b.plane.buffers.contains k = true → a.plane.buffers.contains k = true)
    (links : ∀ peer k, b.plane.links.Joins peer k →
      a.plane.links.Joins peer k ∧ (a.plane.buffers.contains k = true → b.plane.buffers.contains k = true)) :
    Filed b where
  tasks := fun task member => (filed.tasks task (tasks task member)).imp_left (opened _)
  waiting := fun peer unit member => opened _ (filed.waiting peer unit (waiting peer unit member))
  buffers := fun k there => (filed.buffers k (buffers k there)).imp_right (opened _)
  links := fun peer k joined => by
    obtain ⟨before, kept⟩ := links peer k joined
    obtain ⟨there, known⟩ := filed.links peer k before
    exact ⟨kept there, opened _ known⟩

/-- A change of buffers and of switches, as long as the same buffers are there and no unit is new among those that
wait. -/
theorem of_buffers {q : DataPlane} (filed : Filed ⟨p, tasks⟩) (flows : q.flows = p.flows) (links : q.links = p.links)
    (buffers : ∀ k, q.buffers.contains k = p.buffers.contains k)
    (waiting : ∀ peer, ∀ unit ∈ q.switches.deferred peer, unit ∈ p.switches.deferred peer) : Filed ⟨q, tasks⟩ :=
  filed.of_fewer (fun l opened => by rwa [flows]) (fun task member => member) waiting
    (fun k there => (buffers k).symm.trans there) fun peer k joined =>
      ⟨by rwa [links] at joined, fun there => (buffers k).trans there⟩

/-- A unit for a peer belongs to a flow. -/
theorem opened_toPeer {task : Task} {peer : NodeId} (filed : Filed a) (member : task ∈ a.tasks)
    (way : task.way = .toPeer peer) : a.plane.flows.Opened task.unit.lcid := by
  rcases filed.tasks task member with opened | ⟨hop, path, elsewhere, -⟩
  · exact opened
  · exact Way.noConfusion (way.symm.trans elsewhere)

theorem of_offer {task : Task} (filed : Filed ⟨p, task :: tasks⟩) (hop : NodeId) (path : Path) :
    Filed ⟨(p.join task.way ⟨hop, task.unit.lcid⟩).stored hop path task.unit, tasks⟩ where
  tasks := fun other member => filed.tasks other (List.mem_cons_of_mem _ member)
  waiting := filed.waiting
  buffers := fun k there => by
    rcases (SortedMap.contains_insert _ _ _ _).1 there with rfl | before
    · rcases filed.tasks task List.mem_cons_self with opened | ⟨-, -, -, control⟩
      · exact Or.inr opened
      · exact Or.inl control
    · exact filed.buffers k before
  links := fun peer k joined => by
    have kept (before : p.links.Joins peer k) :
        (((p.join task.way ⟨hop, task.unit.lcid⟩).stored hop path task.unit).buffers.contains k = true) ∧
          p.flows.Opened k.lcid :=
      ⟨(SortedMap.contains_insert _ _ _ _).2 (Or.inr (filed.links peer k before).1), (filed.links peer k before).2⟩
    cases way : task.way with
    | toHop hop path =>
      simp only [DataPlane.stored, DataPlane.join, way] at joined
      rw [way] at kept
      exact kept joined
    | toPeer other =>
      simp only [DataPlane.stored, DataPlane.join, way] at joined
      rw [way] at kept
      rcases (PeerLinks.joins_add _ _ _ _ _).1 joined with ⟨-, rfl⟩ | before
      · exact ⟨(SortedMap.contains_insert _ _ _ _).2 (Or.inl rfl), filed.opened_toPeer List.mem_cons_self way⟩
      · exact kept before

end Filed

/-- Every change leaves units, buffers and links where they belong. -/
theorem Change.filed {directory : Directory} {a b : Stage} {es : List Effect} (change : Change directory a es b)
    (filed : Filed a) : Filed b := by
  cases change with
  | quiet alike =>
    refine filed.of_fewer (fun l => ?_) (fun task member => member) (fun peer unit member => ?_) (fun k there => ?_)
      fun peer k joined => ⟨?_, fun there => ?_⟩
    · rintro ⟨key, found⟩
      exact ⟨key, by rw [FlowTable.lookup?, alike.lcids]; exact found⟩
    · rwa [Stage.deferred, PathSwitches.deferred_congr alike.peers] at member
    · rwa [alike.buffers] at there
    · rwa [alike.links] at joined
    · rwa [alike.buffers]
  | issue mode routed created numbered =>
    obtain ⟨-, rfl⟩ := DataPlane.number_eq_some_iff.1 numbered
    have opened := FlowTable.opened_create created
    refine ⟨fun task member => ?_, fun peer unit member => ?_, fun k there => ?_, fun peer k joined => ?_⟩
    · rcases List.mem_append.1 member with before | new
      · exact (filed.tasks task before).imp_left fun known => (opened _).2 (Or.inr known)
      · rw [List.mem_singleton.1 new]
        exact Or.inl ((opened _).2 (Or.inl rfl))
    · exact (opened _).2 (Or.inr (filed.waiting peer unit member))
    · exact (filed.buffers k there).imp_right fun known => (opened _).2 (Or.inr known)
    · exact ⟨(filed.links peer k joined).1, (opened _).2 (Or.inr (filed.links peer k joined).2)⟩
  | issueControl sdu served numbered =>
    obtain ⟨-, rfl⟩ := DataPlane.number_eq_some_iff.1 numbered
    refine ⟨fun task member => ?_, filed.waiting, filed.buffers, filed.links⟩
    rcases List.mem_append.1 member with before | new
    · exact filed.tasks task before
    · rw [List.mem_singleton.1 new]
      exact Or.inr ⟨_, _, rfl, rfl⟩
  | offer leads => exact filed.of_offer _ _
  | lose =>
    exact filed.of_fewer (fun l opened => opened) (fun task member => List.mem_cons_of_mem _ member)
      (fun peer unit member => member) (fun k there => there) fun peer k joined => ⟨joined, fun there => there⟩
  | @wait p peer unit state switching found =>
    refine ⟨fun task member => absurd member List.not_mem_nil, fun other d member => ?_, filed.buffers, filed.links⟩
    have waits := PathSwitches.deferred_waited found unit other
    rw [Stage.deferred, waits] at member
    split at member
    · rcases List.mem_append.1 member with before | new
      · exact filed.waiting peer d before
      · rw [List.mem_singleton.1 new]
        exact filed.opened_toPeer List.mem_cons_self (rfl : (⟨.toPeer peer, unit⟩ : Task).way = .toPeer peer)
    · exact filed.waiting other d member
  | @hold p tasks peer target =>
    refine filed.of_buffers rfl rfl (TransmitBuffers.contains_onKeys p.buffers _ _) fun other d member => ?_
    exact (PathSwitches.deferred_setPhase p.switches peer _ other) ▸ member
  | @recheck p tasks peer target check check' switching =>
    refine filed.of_buffers rfl rfl (fun k => rfl) fun other d member => ?_
    exact (PathSwitches.deferred_setPhase p.switches peer _ other) ▸ member
  | @discard p tasks peer =>
    exact filed.of_buffers rfl rfl (TransmitBuffers.contains_onKeys p.buffers _ _) fun other d member => member
  | @complete p tasks peer target check switching drained =>
    have left (other : NodeId) := PathSwitches.deferred_insert (s := p.switches)
      (t := (p.switched peer target).switches) rfl other
    have rest : Filed ⟨p.switched peer target, tasks⟩ := by
      refine filed.of_buffers rfl rfl (TransmitBuffers.contains_onKeys p.buffers _ _) fun other d member => ?_
      rw [left] at member
      split at member
      · cases member
      · exact member
    refine ⟨fun task member => ?_, rest.waiting, rest.buffers, rest.links⟩
    rcases List.mem_append.1 member with released | before
    · obtain ⟨d, waited, rfl⟩ := List.mem_map.1 released
      exact Or.inl (filed.waiting peer d waited)
    · exact rest.tasks task before
  | @serve p tasks key buffer pdu rest found queued =>
    refine filed.of_buffers rfl rfl (fun k => ?_) fun other d member => member
    by_cases same : k = key
    · rw [same]
      simp [SortedMap.contains, found]
    · simp [SortedMap.contains, SortedMap.get?_insert_of_ne _ same]
  | @leave p peer =>
    refine filed.of_fewer (fun l opened => opened) (fun task member => member) (fun peer unit member => member)
      (fun k there => ?_) fun other k joined => ?_
    · obtain ⟨b, found⟩ := (SortedMap.contains_eq_true_iff _ _).1 there
      exact (SortedMap.contains_eq_true_iff _ _).2 ⟨b, ((SortedMap.get?_filter_eq_some_iff _ _ _ _).1 found).1⟩
    · obtain ⟨before, kept⟩ := (PeerLinks.joins_retain _ _ _ _).1 joined
      exact ⟨before, fun _ => kept⟩
  | clear => exact .of_empty rfl (fun peer => rfl) rfl rfl

namespace DataPlane
variable {node : NodeId} {role : Role} {settings : PlaneSettings} {p : DataPlane}

theorem filed_after (made : new node role settings = .ok p) (ms : List Moment) : Filed ⟨p.after ms, []⟩ := by
  have start : Filed ⟨p, []⟩ := by
    obtain ⟨-, rfl⟩ := eq_of_new made
    exact .of_empty rfl (fun peer => rfl) rfl rfl
  obtain ⟨effects, chain, -⟩ := run_chain p ms
  exact @Chain.invariant _ _ _ _ (fun _ s => Filed s) (fun _ change filed => change.filed filed) [] start chain

/-- Whether all tables of a node tell of the same connections. -/
structure TablesAgree (q : DataPlane) : Prop where
  /-- Flows have ids from 1 up to one below the id that stands for none. -/
  range : ∀ key l, q.flows.lookup? key = some l → 1 ≤ l.value.toNat ∧ l.value.toNat ≤ 0xFFFE
  distinct : ∀ key key' l, q.flows.lookup? key = some l → q.flows.lookup? key' = some l → key = key'
  described : ∀ l, l ∈ q.flows.descriptors.keys ↔ ∃ key, q.flows.lookup? key = some l
  numbered : ∀ l, l ∈ q.flows.descriptors.keys ↔ l ∈ q.convergence.keys ∧ l ≠ .control
  /-- The last number of a descriptor is one below the count of numbers that were given. -/
  lastSn : ∀ l d e, q.flows.descriptor? l = some d → q.convergence.get? l = some e →
    1 ≤ e.issued ∧ ∃ sn, d.lastSn = some sn ∧ sn.toNat = e.issued - 1
  buffers : ∀ k ∈ q.buffers.keys, k.lcid ≠ .control → k.lcid ∈ q.flows.descriptors.keys
  links : ∀ peer, ∀ k ∈ q.links.keys peer, k ∈ q.buffers.keys ∧ k.lcid ≠ .control
  peers : ∀ peer ∈ q.links.peers, q.links.keys peer ≠ []

/-- At any time, whatever happened before, the same connections are in all tables of a node, and its links lead to
buffers of connections that are there. -/
theorem tables_agree (made : new node role settings = .ok p) (ms : List Moment) : (p.after ms).TablesAgree := by
  have consistent := consistent_after (consistent_new made) ms
  have filed := filed_after made ms
  generalize p.after ms = q at consistent filed
  have described (l : Lcid) : l ∈ q.flows.descriptors.keys ↔ q.flows.Opened l := by
    rw [SortedMap.mem_keys_iff, ← show _ ↔ q.flows.Opened l from consistent.described l]
    simp only [connections, FlowTable.lastSns, SortedMap.contains, SortedMap.get?_mapEntries, Option.isSome_map]
  have traffic {l : Lcid} (opened : q.flows.Opened l) : l ≠ .control := ((consistent.numbered l).2 opened).2
  exact {
    range := fun key l found => by
      obtain ⟨positive, below⟩ := consistent.valid.given found
      have top := consistent.valid.next_le
      exact ⟨positive, Nat.le_of_lt_succ (Nat.lt_of_lt_of_le below top)⟩
    distinct := fun key key' l found found' => consistent.valid.apart found found'
    described := described
    numbered := fun l => by
      rw [described, SortedMap.mem_keys_iff]
      exact (consistent.numbered l).symm
    lastSn := fun l d e found known => by
      have kept : q.flows.lastSns.get? l = some d.lastSn := by
        rw [FlowTable.lastSns, SortedMap.get?_mapEntries, show q.flows.descriptors.get? l = some d from found]
        rfl
      obtain ⟨sn, last, count⟩ := consistent.last l d.lastSn e kept known
      exact ⟨by omega, sn, last, by omega⟩
    buffers := fun k member notControl => by
      rw [described]
      exact (filed.buffers k ((SortedMap.mem_keys_iff _ _).1 member)).resolve_left notControl
    links := fun peer k member => by
      obtain ⟨there, opened⟩ := filed.links peer k ((PeerLinks.mem_keys_iff _ _ _).1 member)
      exact ⟨(SortedMap.mem_keys_iff _ _).2 there, traffic opened⟩
    peers := fun peer member empty => by
      obtain ⟨link, linked, rfl⟩ := List.mem_map.1 (List.mem_eraseDups.1 member)
      have key : link.2 ∈ q.links.keys link.1 :=
        (PeerLinks.mem_keys_iff _ _ _).2 ((SortedMap.mem_keys_iff _ _).1 linked)
      rw [empty] at key
      cases key }

/-- One connection, with three numbers given. Control traffic finds no serving node. -/
theorem tables_agree_at_switchover :
    let q := (fresh 1).after (switchover ++ [(Stimulus.control [1]).inPair])
    new ⟨1⟩ .peerDirect .default = .ok (fresh 1) ∧ q.flows.descriptors.keys = [.first] ∧
      q.convergence.keys = [.first] ∧ (q.flows.descriptor? .first).map (·.lastSn) = some (some 2) ∧
      q.links.keys ⟨2⟩ = [⟨⟨2⟩, .first⟩] ∧ q.TablesAgree :=
  ⟨new_fresh.1, by decide +kernel, by decide +kernel, by decide +kernel, by decide +kernel, tables_agree new_fresh.1 _⟩

end DataPlane
end Sidelink
