import Mathlib.Data.List.Induction
import Sidelink.Proofs.Routeless

/-!
Which connection a packet is told that is dropped for want of a route. The table of flows holds what packets were told
since the node last left, and nothing else (`DataPlane.lookup?_after_iff`). A packet without a route is told the
connection of its flow; but the flow between two sockets has a direction, and the direction is looked up anew in the
directory as it is then. So a packet whose endpoints were told a connection is told none exactly if no packet between
these endpoints had the direction that it is taken to have now (`DataPlane.unnamed_iff`). It takes a node that reaches
peers directly, and a change of the nodes that are known or of who reaches whom.
-/
namespace Sidelink

/-! ## Flows that were told -/

theorem FlowTable.lookup?_ne_notFound {t : FlowTable} {key : FlowKey} {l : Lcid} (valid : t.Valid)
    (found : t.lookup? key = some l) : l ≠ .notFound := by
  rintro rfl
  have below := (valid.given found).2
  have room := valid.next_le
  change 65535 < t.next at below
  omega

/-- The flows after a step are those before it, and those that packets were told. -/
theorem Connections.lookup?_step {c c' : Connections} {settings : CompressionSettings}
    {answers : List (FlowKey × Lcid × Option UInt32)} (valid : c.flows.Valid) (step : c.Step settings answers c')
    (key : FlowKey) (l : Lcid) :
    c'.flows.lookup? key = some l ↔
      c.flows.lookup? key = some l ∨ ∃ sn, (key, l, sn) ∈ answers ∧ l ≠ .notFound := by
  cases step with
  | same | control => simp
  | routeless other =>
    refine ⟨Or.inl, ?_⟩
    rintro (found | ⟨sn, member, named⟩)
    · exact found
    · obtain ⟨rfl, rfl, -⟩ : key = other ∧ l = (c.flows.lookup? other).getD .notFound ∧ sn = none := by
        simpa using member
      cases found : c.flows.lookup? key with
      | some l => rfl
      | none =>
        rw [found] at named
        exact absurd rfl named
  | @issue other l' flows sn entity created numbered =>
    have told : flows.lookup? other = some l' := FlowTable.lookup?_create created
    have named : l' ≠ .notFound := FlowTable.lookup?_ne_notFound (FlowTable.valid_create valid created) told
    constructor
    · intro found
      by_cases same : key = other
      · subst same
        obtain rfl : l' = l := Option.some.inj (told.symm.trans found)
        exact Or.inr ⟨_, List.mem_cons_self, named⟩
      · rcases FlowTable.create_cases created with ⟨-, rfl⟩ | ⟨-, -, -, rfl⟩
        · exact Or.inl found
        · rw [FlowTable.lookup?_added, if_neg (Ne.symm same)] at found
          exact Or.inl found
    · rintro (found | ⟨sn', member, -⟩)
      · exact FlowTable.lookup?_mono created found
      · obtain ⟨rfl, rfl, -⟩ : key = other ∧ l = l' ∧ sn' = some sn := by simpa using member
        exact told

namespace DataPlane
variable {node : NodeId} {role : Role} {settings : PlaneSettings} {p : DataPlane} {ms : List Moment}

/-- Whether a packet between some endpoints is told a connection at a moment, and is taken to have some direction. -/
def TellsAt (p : DataPlane) (m : Moment) (endpoints : Endpoints) (direction : Direction) (l : Lcid) : Prop :=
  ∃ x ∈ (p.react m).dispatched, x.1.endpoints = endpoints ∧ (p.view m.directory).direction p.role x.1 = direction ∧
    x.2.lcid = l ∧ l ≠ .notFound

/-- Whether a packet was told a connection at a moment of a run, and the node has stayed since. -/
def Told (p : DataPlane) (ms : List Moment) (endpoints : Endpoints) (direction : Direction) (l : Lcid) : Prop :=
  ∃ before m later, ms = before ++ m :: later ∧ (∀ n ∈ later, n.stimulus ≠ .departed) ∧
    (p.after before).TellsAt m endpoints direction l

theorem told_concat {m : Moment} {endpoints : Endpoints} {direction : Direction} {l : Lcid} :
    p.Told (ms ++ [m]) endpoints direction l ↔
      (p.after ms).TellsAt m endpoints direction l ∨ m.stimulus ≠ .departed ∧ p.Told ms endpoints direction l := by
  constructor
  · rintro ⟨before, m', later, split, stays, told⟩
    rcases List.eq_nil_or_concat later with rfl | ⟨later, last, rfl⟩
    · obtain ⟨rfl, rfl⟩ : ms = before ∧ m = m' := by simpa using List.append_inj' split rfl
      exact Or.inl told
    · rw [List.concat_eq_append, ← List.cons_append, ← List.append_assoc] at split
      obtain ⟨rfl, same⟩ := List.append_inj' split rfl
      obtain rfl : m = last := by simpa using same
      exact Or.inr ⟨stays m (by simp), before, m', later, rfl, fun n member => stays n (by simp [member]), told⟩
  · rintro (told | ⟨stays, before, m', later, rfl, stayed, told⟩)
    · exact ⟨ms, m, [], rfl, by simp, told⟩
    · refine ⟨before, m', later ++ [m], by simp, fun n member => ?_, told⟩
      rcases List.mem_append.1 member with earlier | last
      · exact stayed n earlier
      · exact List.mem_singleton.1 last ▸ stays

theorem mem_answers_iff {m : Moment} {key : FlowKey} {l : Lcid} :
    (∃ sn, (key, l, sn) ∈ (p.react m).dispatched.map (p.answer m.directory) ∧ l ≠ .notFound) ↔
      ∃ endpoints direction, p.TellsAt m endpoints direction l ∧ FlowKey.ofEndpoints endpoints direction = key := by
  constructor
  · rintro ⟨sn, member, named⟩
    obtain ⟨x, dispatched, same⟩ := List.mem_map.1 member
    obtain ⟨flow, lcid, -⟩ : p.flowKey m.directory x.1 = key ∧ x.2.lcid = l ∧ x.2.sn = sn := by
      simpa [answer] using same
    exact ⟨_, _, ⟨x, dispatched, rfl, rfl, lcid, named⟩, flow⟩
  · rintro ⟨-, -, ⟨x, dispatched, rfl, rfl, rfl, named⟩, rfl⟩
    exact ⟨x.2.sn, List.mem_map.2 ⟨x, dispatched, rfl⟩, named⟩

/-- The table of flows holds what packets were told since the node last left. -/
theorem lookup?_after_iff (made : new node role settings = .ok p) (ms : List Moment) (key : FlowKey) (l : Lcid) :
    (p.after ms).flows.lookup? key = some l ↔
      ∃ endpoints direction, p.Told ms endpoints direction l ∧ FlowKey.ofEndpoints endpoints direction = key := by
  -- What is true of the table after a run is true one moment later.
  induction ms using List.reverseRecOn with
  | nil =>
    obtain ⟨-, rfl⟩ := eq_of_new made
    refine iff_of_false (fun found => by cases found) ?_
    rintro ⟨-, -, ⟨before, m, later, split, -⟩, -⟩
    exact absurd split (by simp)
  | append_singleton ms m ih =>
    have valid := (consistent_after (consistent_new made) ms).valid
    simp only [after_append, after, told_concat]
    by_cases leaves : m.stimulus = .departed
    · obtain ⟨directory, timers, stimulus⟩ := m
      subst leaves
      refine iff_of_false (fun found => ?_) ?_
      · change (p.after ms).flows.clear.lookup? key = some l at found
        rw [FlowTable.lookup?_clear] at found
        cases found
      · rintro ⟨-, -, ⟨x, member, -⟩ | ⟨stays, -⟩, -⟩
        · cases member
        · exact stays rfl
    · have step := Connections.lookup?_step valid (connections_react (p.after ms) leaves) key l
      rw [mem_answers_iff] at step
      change ((p.after ms).react m).plane.flows.lookup? key = some l ↔ (p.after ms).flows.lookup? key = some l ∨ _ at step
      rw [step, ih]
      constructor
      · rintro (⟨endpoints, direction, told, own⟩ | ⟨endpoints, direction, tells, own⟩)
        · exact ⟨endpoints, direction, Or.inr ⟨leaves, told⟩, own⟩
        · exact ⟨endpoints, direction, Or.inl tells, own⟩
      · rintro ⟨endpoints, direction, tells | ⟨-, told⟩, own⟩
        · exact Or.inr ⟨endpoints, direction, tells, own⟩
        · exact Or.inl ⟨endpoints, direction, told, own⟩

/-! ## Directions -/

/-- The direction of a flow depends on what is known of nodes and of who reaches whom, and only where peers are reached
directly. -/
theorem direction_congr {v v' : RoutingView} {packet packet' : Packet} (node : v'.node = v.node)
    (endpoints : packet'.endpoints = packet.endpoints) (same : role = .peerDirect → v'.directory.SameNodes v.directory) :
    v'.direction role packet' = v.direction role packet := by
  cases role with
  | mobile | baseStation => rfl
  | peerDirect =>
    have known := same rfl
    have near (destination : NodeId) :
        v'.directory.reaches v'.node destination = v.directory.reaches v.node destination := by
      simp only [Directory.reaches, known.reach, node]
    simp only [RoutingView.direction, RoutingView.destination?, endpoints, known.resolve?_eq, near]

/-! ## Packets without a route -/

/-- Endpoints that a connection was told for have none in some direction exactly if they are sockets, and none was told
for that direction. -/
theorem lookup?_eq_none_iff (made : new node role settings = .ok p) {endpoints : Endpoints}
    (spoken : ∃ direction l, p.Told ms endpoints direction l) (direction : Direction) :
    (p.after ms).flows.lookup? (.ofEndpoints endpoints direction) = none ↔
      (∃ source destination, endpoints = .ip source destination) ∧ ∀ l, ¬ p.Told ms endpoints direction l := by
  have looked := lookup?_after_iff made ms (.ofEndpoints endpoints direction)
  constructor
  · intro missing
    have untold {other : Direction} {l : Lcid}
        (same : FlowKey.ofEndpoints endpoints other = .ofEndpoints endpoints direction) :
        ¬ p.Told ms endpoints other l := fun told => by
      have known := (looked l).2 ⟨_, _, told, same⟩
      rw [missing] at known
      cases known
    refine ⟨?_, fun l => untold rfl⟩
    obtain ⟨earlier, l, told⟩ := spoken
    cases endpoints with
    | ip source destination => exact ⟨source, destination, rfl⟩
    | token source destination => exact absurd told (untold rfl)
  · rintro ⟨⟨source, destination, rfl⟩, untold⟩
    refine Option.eq_none_iff_forall_ne_some.2 fun l found => ?_
    obtain ⟨endpoints, other, told, same⟩ := (looked l).1 found
    obtain rfl := FlowKey.endpoints_inj same
    obtain rfl : other = direction := (FlowKey.ip.inj same).2.2
    exact untold l told

theorem lcid_ne_notFound {directory : Directory} {timers : Timers} {packet : Packet} {hint : String}
    {dispatch : Dispatch} (valid : p.connections.flows.Valid)
    (answered : (p.submit directory timers packet hint).result = .ok dispatch) (numbered : dispatch.sn ≠ none) :
    dispatch.lcid ≠ .notFound := by
  rcases submit_spec p directory timers packet hint with ⟨-, unnumbered⟩ | ⟨q, route, unit, found, -, sent⟩
  · exact absurd (unnumbered.outcome dispatch answered).1 numbered
  · obtain ⟨-, -, anew, flows, entity, created, -⟩ := numbered?_eq_some found
    rw [sent] at answered
    obtain rfl := Except.ok.inj answered
    have opened : p.flows.create (p.flowKey directory packet) = some (unit.lcid, flows) := by
      rw [FlowTable.create, flowKey, created]
      rfl
    obtain ⟨bare, -⟩ := FlowTable.create_bare opened
    exact FlowTable.lookup?_ne_notFound (FlowTable.valid_create valid bare) (FlowTable.lookup?_create bare)

/-- A packet is told no connection, although packets between its endpoints were told one, exactly if it has no route,
its endpoints are sockets, and no packet between them had the direction that it has now. That takes a node that reaches
peers directly, and other nodes in the directory, or others that reach each other, than then. -/
theorem unnamed_iff (made : new node role settings = .ok p) {ms : List Moment} {directory : Directory}
    {timers : Timers} {packet : Packet} {hint : String} {dispatch : Dispatch}
    (answered : ((p.after ms).submit directory timers packet hint).result = .ok dispatch)
    (spoken : ∃ direction l, p.Told ms packet.endpoints direction l) :
    let v := (p.after ms).view directory
    (dispatch.lcid = .notFound ↔
        (∃ reason, v.route role packet = .error reason) ∧
          (∃ source destination, packet.endpoints = .ip source destination) ∧
          ∀ l, ¬ p.Told ms packet.endpoints (v.direction role packet) l) ∧
      (dispatch.lcid = .notFound → role = .peerDirect ∧ ∃ m ∈ ms, ¬ m.directory.SameNodes directory) := by
  intro v
  have roleAfter (ms : List Moment) : (p.after ms).role = role := (role_after p ms).trans (role_new made)
  have valid := (consistent_after (consistent_new made) ms).valid
  have exact_ : dispatch.lcid = .notFound ↔ (∃ reason, v.route role packet = .error reason) ∧
      (∃ source destination, packet.endpoints = .ip source destination) ∧
      ∀ l, ¬ p.Told ms packet.endpoints (v.direction role packet) l := by
    rcases answered_cases answered with ⟨routeless, traceless⟩ | ⟨⟨route, routed⟩, numbered⟩
    · rw [roleAfter] at routeless
      have own : (p.after ms).flowKey directory packet = .ofEndpoints packet.endpoints (v.direction role packet) := by
        rw [flowKey, roleAfter]
      rw [traceless.lcid, own, and_iff_right routeless, ← lookup?_eq_none_iff made spoken]
      cases found : (p.after ms).flows.lookup? (.ofEndpoints packet.endpoints (v.direction role packet)) with
      | none => exact iff_of_true rfl rfl
      | some known => exact iff_of_false (FlowTable.lookup?_ne_notFound valid found) (Option.some_ne_none known)
    · rw [roleAfter] at routed
      refine iff_of_false (lcid_ne_notFound valid answered numbered) ?_
      rintro ⟨⟨reason, routeless⟩, -⟩
      rw [routed] at routeless
      cases routeless
  refine ⟨exact_, fun unnamed => ?_⟩
  obtain ⟨-, l, before, m, later, rfl, stays, x, dispatched, between, rfl, lcid, named⟩ := spoken
  have changed : ¬ (role = .peerDirect → m.directory.SameNodes directory) := fun same => by
    refine (exact_.1 unnamed).2.2 l ⟨before, m, later, rfl, stays, x, dispatched, between, ?_, lcid, named⟩
    rw [roleAfter]
    exact direction_congr ((node_after p before).trans (node_after p _).symm) between same
  obtain ⟨direct, other⟩ := Classical.not_imp.1 changed
  exact ⟨direct, m, by simp, other⟩

end DataPlane

/-! ## A destination that is gone -/

/-- Two nodes with addresses that reach each other. -/
def Directory.hosts : Directory where
  nodes := .ofList [(⟨1⟩, ⟨⟨1⟩, .terminal, some (.ofOctets 10 0 0 1), none, none⟩),
    (⟨2⟩, ⟨⟨2⟩, .terminal, some (.ofOctets 10 0 0 2), none, none⟩)]
  owners := .ofList [(.ofOctets 10 0 0 1, ⟨1⟩), (.ofOctets 10 0 0 2, ⟨2⟩)]
  reach := Directory.pair.reach

/-- The directory after the second node is removed. -/
def Directory.deserted : Directory := ((Directory.hosts.unregister ⟨2⟩).toOption.map (·.2)).getD default

/-- A packet from the address of the first node to that of the second. -/
def Packet.request : Packet := ⟨.ip ⟨.ofOctets 10 0 0 1, 5000⟩ ⟨.ofOctets 10 0 0 2, 80⟩, .udp, [0xab]⟩

namespace DataPlane

/-- The first node sends the packet while the second one is known. -/
def visit : List Moment := [⟨.hosts, ⟨0, 0, []⟩, .packet .request "voice"⟩]

theorem answered_at_deserted : (((fresh 1).after visit).submit .deserted ⟨0, 0, []⟩ .request "voice").result =
    .ok ⟨.notFound, none, .dropped .unknownDestination⟩ := rfl

/-- The packet had a connection when the second node was known, and is told none once that node is gone. -/
theorem unnamed_at_deserted :
    new ⟨1⟩ .peerDirect .default = .ok (fresh 1) ∧
      ((fresh 1).dispatched visit) = [(.request, ⟨.first, some 0, .queued⟩)] ∧
      (∀ m ∈ visit, m.stimulus ≠ .departed) ∧
      (((fresh 1).after visit).submit .deserted ⟨0, 0, []⟩ .request "voice").result =
        .ok ⟨.notFound, none, .dropped .unknownDestination⟩ :=
  ⟨new_fresh.1, by decide +kernel, by simp [visit], answered_at_deserted⟩

/-- It went to a peer then, and would go to the serving node now. -/
theorem unnamed_iff_at_deserted :
    let v := ((fresh 1).after visit).view .deserted
    (fresh 1).Told visit Packet.request.endpoints .sidelink .first ∧ v.direction .peerDirect .request = .uplink ∧
      (∀ l, ¬ (fresh 1).Told visit Packet.request.endpoints .uplink l) ∧
      ∃ m ∈ visit, ¬ m.directory.SameNodes .deserted := by
  intro v
  have dispatched : (Packet.request, ⟨.first, some 0, .queued⟩) ∈
      ((fresh 1).react ⟨.hosts, ⟨0, 0, []⟩, .packet .request "voice"⟩).dispatched := by decide +kernel
  have told : (fresh 1).Told visit Packet.request.endpoints .sidelink .first :=
    ⟨[], _, [], rfl, by simp, _, dispatched, rfl, rfl, rfl, by decide⟩
  obtain ⟨exact_, changed⟩ := unnamed_iff new_fresh.1 answered_at_deserted ⟨.sidelink, .first, told⟩
  exact ⟨told, rfl, (exact_.1 rfl).2.2, (changed rfl).2⟩

end DataPlane
end Sidelink
