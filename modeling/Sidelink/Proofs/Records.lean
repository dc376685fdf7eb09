import Mathlib.Data.List.Nodup
import Sidelink.Proofs.Descriptors
import Sidelink.Proofs.Gates

/-!
Whether descriptors tell the truth about routes. The path of a descriptor is written by every packet and by every switch
of the peer that it names, the peer only by the first packet. So while nothing but positions and serving nodes changes in
the directory, a descriptor always tells the peer and the path that its packets are routed with
(`DataPlane.records_current`). Where other things change, it may name no peer, or another one, although its packets are
routed to a peer: it names the peer exactly if the first packet was routed to it, and only then do switches of the peer
go on to rewrite the path (`DataPlane.peer_recorded_iff`).
-/
namespace Sidelink

/-! ## Peers and paths of routes -/

/-- The path of packets between some endpoints that are routed to a peer, or to none. -/
def PathSwitches.pathTo (s : PathSwitches) (role : Role) (endpoints : Endpoints) : Option NodeId → Path
  | some peer => s.currentPath peer
  | none => if role = .peerDirect ∧ endpoints.isGroup = true then .multicast else .infrastructure

theorem Route.peer?_way (route : Route) : route.way.peer? = route.peer := by
  unfold Route.way
  cases route.peer <;> rfl

namespace RoutingView
variable {v : RoutingView} {role : Role} {packet : Packet} {route : Route}

theorem peer_of_route (routed : v.route role packet = .ok route) :
    route.peer = v.directory.peer? v.node role packet.endpoints := by
  rw [Directory.peer?, way_of_route routed, Option.bind_some, Route.peer?_way]

theorem path_of_route (routed : v.route role packet = .ok route) :
    route.path = v.switches.pathTo role packet.endpoints route.peer := by
  obtain ⟨direction, handles⟩ := exists_handles routed
  cases handles with
  | served | down | peer => rfl
  | group many => exact (if_pos ⟨rfl, many⟩).symm
  | distant single => exact (if_neg fun group => by simp [single] at group).symm

end RoutingView

/-! ## Descriptors that tell the routes of their packets -/

namespace DataPlane
variable {p q : DataPlane} {directory : Directory} {l : Lcid} {d : Descriptor} {es : List SwitchCompletion}

/-- Whether a descriptor tells the peer and the path that the packets of its connection are routed with. -/
def Recorded (p : DataPlane) (directory : Directory) (l : Lcid) (d : Descriptor) : Prop :=
  ∃ endpoints direction, p.flows.lookup? (.ofEndpoints endpoints direction) = some l ∧
    d.rxPeer = directory.peer? p.node p.role endpoints ∧ d.path = p.switches.pathTo p.role endpoints d.rxPeer

theorem Registers.lookup {n : Numbering} (registers : p.Registers directory n q) :
    q.flows.lookup? (p.flowKey directory n.packet) = some n.unit.lcid ∧
      ∀ {key l}, p.flows.lookup? key = some l → q.flows.lookup? key = some l := by
  obtain ⟨flows, created, lcids⟩ := registers.created
  have same (key : FlowKey) : q.flows.lookup? key = flows.lookup? key := by
    rw [FlowTable.lookup?, lcids, FlowTable.lookup?]
  refine ⟨(same _).trans (FlowTable.lookup?_create created), fun found => (same _).trans ?_⟩
  exact FlowTable.lookup?_mono created found

/-- A packet leaves a descriptor of its connection that tells its route: an old descriptor names the peer already, since
packets between the same endpoints are for the same peer. -/
theorem Recorded.registers {d' : Directory} {n : Numbering} (valid : p.flows.Valid)
    (recorded : ∀ l d, p.flows.descriptor? l = some d → p.Recorded directory l d)
    (same : directory.SameNodes d') (registers : p.Registers d' n q) (found : q.flows.descriptor? l = some d) :
    q.Recorded directory l d := by
  obtain ⟨opened, kept⟩ := registers.lookup
  rw [registers.described] at found
  split at found
  · rename_i own
    subst own
    have peerIs : n.route.peer = directory.peer? p.node p.role n.packet.endpoints :=
      (RoutingView.peer_of_route registers.routed).trans (same.peer?_eq _ _ _)
    have named : d.rxPeer = n.route.peer := by
      obtain rfl := Option.some.inj found
      cases known : p.flows.descriptor? n.unit.lcid with
      | none => rfl
      | some before =>
        obtain ⟨endpoints, direction, lookup, peer, -⟩ := recorded _ _ known
        obtain ⟨flows, created, -⟩ := registers.created
        have between : endpoints = n.packet.endpoints := FlowKey.endpoints_inj
          ((FlowTable.valid_create valid created).apart (FlowTable.lookup?_mono created lookup)
            (FlowTable.lookup?_create created))
        rw [peerIs, ← between]
        exact peer
    have path : d.path = n.route.path := by
      obtain rfl := Option.some.inj found
      rfl
    refine ⟨n.packet.endpoints, _, opened, ?_, ?_⟩
    · rw [named, peerIs, registers.node, registers.role]
    · rw [path, named, registers.switches, registers.role]
      exact RoutingView.path_of_route registers.routed
  · obtain ⟨endpoints, direction, before, peer, path⟩ := recorded l d found
    refine ⟨endpoints, direction, kept before, ?_, ?_⟩
    · rwa [registers.node, registers.role]
    · rwa [registers.switches, registers.role]

/-- A switch that ends rewrites the path of just those descriptors that name its peer. -/
theorem Recorded.reroutes (recorded : p.Recorded directory l d) (reroutes : Reroutes p es q) (node : q.node = p.node)
    (role : q.role = p.role) : q.Recorded directory l (d.rerouted es) := by
  obtain ⟨endpoints, direction, opened, peer, path⟩ := recorded
  refine ⟨endpoints, direction, ?_, ?_, ?_⟩
  · rwa [FlowTable.lookup?, reroutes.lcids]
  · rwa [node, role]
  · simp only [Descriptor.rerouted, role, path]
    cases d.rxPeer with
    | none => rfl
    | some peer => exact (reroutes.current peer).symm

theorem recorded_react (consistent : p.connections.Consistent) {m : Moment} (same : directory.SameNodes m.directory)
    (recorded : ∀ l d, p.flows.descriptor? l = some d → p.Recorded directory l d)
    (found : (p.react m).plane.flows.descriptor? l = some d) : (p.react m).plane.Recorded directory l d := by
  by_cases stays : m.stimulus = .departed
  · obtain ⟨d', timers, stimulus⟩ := m
    subst stays
    cases found
  · have valid : p.flows.Valid :=
      ⟨consistent.valid.next_pos, consistent.valid.next_le, consistent.valid.given, consistent.valid.apart⟩
    have switched := reroutes_react p stays
    obtain ⟨node, role, -⟩ := fixed_react p m
    rw [switched.descriptor] at found
    obtain ⟨d, before, rfl⟩ := Option.map_eq_some_iff.1 found
    rcases entered_spec consistent m with ⟨-, unchanged⟩ | ⟨n, -, registers⟩
    · rw [unchanged] at before switched
      exact (recorded l d before).reroutes switched node role
    · exact (Recorded.registers valid recorded same registers before).reroutes switched
        (node.trans registers.node.symm) (role.trans registers.role.symm)

/-- While nothing but positions and serving nodes changes in the directory, all descriptors go on to tell the routes of
their packets. -/
theorem recorded_after {ms : List Moment} (consistent : p.connections.Consistent)
    (recorded : ∀ l d, p.flows.descriptor? l = some d → p.Recorded directory l d)
    (same : ∀ m ∈ ms, directory.SameNodes m.directory) :
    ∀ l d, (p.after ms).flows.descriptor? l = some d → (p.after ms).Recorded directory l d := by
  induction ms generalizing p with
  | nil => exact recorded
  | cons m rest ih =>
    exact ih (consistent_after consistent [m])
      (fun l d found => recorded_react consistent (same m List.mem_cons_self) recorded found)
      fun n member => same n (List.mem_cons_of_mem _ member)

section
variable {node : NodeId} {role : Role} {settings : PlaneSettings}

theorem recorded_new (made : new node role settings = .ok p) (directory : Directory) :
    ∀ l d, p.flows.descriptor? l = some d → p.Recorded directory l d := by
  obtain ⟨-, rfl⟩ := eq_of_new made
  exact fun l d found => by cases found

/-- While nothing but positions and serving nodes changes in the directory, a descriptor tells the peer and the path that
the packets of its connection are routed with. If it names a peer, it is on the path that the peer is on; otherwise a
group is reached by multicast, from a node that reaches peers directly, and all else through the serving node. -/
theorem records_current (made : new node role settings = .ok p) {ms : List Moment}
    (same : ∀ m ∈ ms, directory.SameNodes m.directory) :
    let q := p.after ms
    ∀ l d, q.flows.descriptor? l = some d →
      (∀ peer, d.rxPeer = some peer → d.path = q.switches.currentPath peer) ∧
      ∃ endpoints direction, q.flows.lookup? (.ofEndpoints endpoints direction) = some l ∧
        (d.rxPeer = none →
          d.path = if role = .peerDirect ∧ endpoints.isGroup = true then .multicast else .infrastructure) ∧
        ∀ d', directory.SameNodes d' → ∀ packet route, packet.endpoints = endpoints →
          (q.view d').route role packet = .ok route → route.peer = d.rxPeer ∧ route.path = d.path := by
  intro q l d found
  have roleIs : q.role = role := (role_after p ms).trans (role_new made)
  obtain ⟨endpoints, direction, opened, peerIs, pathIs⟩ :=
    recorded_after (consistent_new made) (recorded_new made directory) same l d found
  rw [roleIs] at peerIs pathIs
  refine ⟨fun peer named => ?_, endpoints, direction, opened, fun unnamed => ?_, ?_⟩
  · rw [pathIs, named]
    rfl
  · rw [pathIs, unnamed]
    rfl
  · rintro d' known packet route rfl routed
    have peer : route.peer = d.rxPeer := by
      rw [RoutingView.peer_of_route routed, peerIs]
      exact known.peer?_eq _ _ _
    refine ⟨peer, ?_⟩
    rw [RoutingView.path_of_route routed, pathIs, peer]
    rfl

end

/-- Packets to the second node and to everybody, between which the path of the second node is switched. -/
def broadcasts : List Moment :=
  [.packet .hello "voice", .packet ⟨.token 1 Endpoints.broadcast, .udp, []⟩ "voice",
    .pathSwitch ⟨2⟩ .infrastructure false, .packet .hello "voice", .opportunity 4].map Stimulus.inPair

theorem records_current_at_broadcasts :
    let q := (fresh 1).after broadcasts
    new ⟨1⟩ .peerDirect .default = .ok (fresh 1) ∧ (∀ m ∈ broadcasts, Directory.pair.SameNodes m.directory) ∧
      q.flows.descriptors.values.map (fun d => (d.rxPeer, d.path)) =
        [(some ⟨2⟩, .infrastructure), (none, .multicast)] ∧
      ∀ l d, q.flows.descriptor? l = some d → ∀ peer, d.rxPeer = some peer → d.path = q.switches.currentPath peer := by
  intro q
  have same : ∀ m ∈ broadcasts, Directory.pair.SameNodes m.directory := by
    simp [broadcasts, Stimulus.inPair, Directory.SameNodes.refl]
  exact ⟨new_fresh.1, same, by decide +kernel, fun l d found => (records_current new_fresh.1 same l d found).1⟩

/-! ## Descriptors whose directory changed -/

variable {m : Moment} {peer : NodeId} {e : Ending} {timers : Timers}

/-- Whether the path of a connection is rewritten by every switch of a peer that ends from now on, while the node
stays. -/
def Follows (p : DataPlane) (l : Lcid) (peer : NodeId) : Prop :=
  ∀ later : List Moment, (∀ m ∈ later, m.stimulus ≠ .departed) → ∀ m, ∀ e ∈ (p.after later).endingsAt m,
    e.done.peer = peer → ∃ d, ((p.after later).react m).plane.flows.descriptor? l = some d ∧ d.path = e.done.path

/-- A step of the switch of a peer ends no other switch. -/
theorem peers_ended (directory : Directory) {step : SwitchStep} (moves : p.switches.Moves peer step) :
    ((p.ended directory step).map (·.done.peer)).Sublist [peer] := by
  unfold ended
  cases completion : step.completion with
  | none => exact List.nil_sublist _
  | some done =>
    rw [← moves.own done completion]
    exact List.Sublist.refl _

theorem peers_endingsOf (p : DataPlane) (directory : Directory) (timers : Timers) (peers : List NodeId) :
    ((p.endingsOf directory timers peers).map (·.done.peer)).Sublist peers := by
  induction peers generalizing p timers with
  | nil => exact List.Sublist.refl _
  | cons peer rest ih =>
    simp only [endingsOf, List.map_append]
    exact (peers_ended directory (PathSwitches.moves_reevaluate _ _ _ peer _)).append (ih _ _)

/-- The switches that end at a moment are those of different peers. -/
theorem nodup_endingsAt (p : DataPlane) (m : Moment) : ((p.endingsAt m).map (·.done.peer)).Nodup := by
  obtain ⟨directory, timers, stimulus⟩ := m
  have single {peer : NodeId} {es : List Ending} (own : (es.map (·.done.peer)).Sublist [peer]) :
      (es.map (·.done.peer)).Nodup := own.nodup (List.nodup_singleton peer)
  cases stimulus with
  | packet packet hint =>
    simp only [endingsAt]
    split
    · rename_i q route unit _
      refine (peers_endingsOf q directory timers _).nodup ?_
      cases route.peer with
      | none => exact List.nodup_nil
      | some peer => exact List.nodup_singleton peer
    · exact List.nodup_nil
  | opportunity limit =>
    exact (peers_endingsOf _ directory timers _).nodup ((SortedMap.nodup_keys _).filter _)
  | drainCheck peer => exact single (peers_ended directory (PathSwitches.moves_checkFired _ _ _ _ _))
  | pathSwitch peer path clear => exact single (peers_ended directory (PathSwitches.moves_start _ _ _ _ _ _ _))
  | control | peerDeparted | departed | arrival => exact List.nodup_nil

/-- A switch that ends rewrites the path of a descriptor that names its peer. -/
theorem path_of_ending (consistent : p.connections.Consistent) (found : p.flows.descriptor? l = some d)
    (ends : e ∈ p.endingsAt m) (names : d.rxPeer = some e.done.peer) :
    ∃ d', (p.react m).plane.flows.descriptor? l = some d' ∧ d'.path = e.done.path := by
  have stays : m.stimulus ≠ .departed := fun departs => by
    rw [endingsAt, departs] at ends
    cases ends
  obtain ⟨d', entered, same⟩ := kept_entered consistent m found
  have named : d'.rxPeer = some e.done.peer := (congrArg Descriptor.rxPeer same).trans names
  refine ⟨d'.rerouted ((p.endingsAt m).map Ending.done), ?_, ?_⟩
  · rw [(reroutes_react p stays).descriptor, entered]
    rfl
  · have apart := nodup_endingsAt p m
    rw [Descriptor.rerouted, named]
    refine pathAfter_of_mem ?_ (List.mem_map_of_mem ends)
    rwa [List.map_map]

/-- A switch of a peer that clears the buffers ends at once. -/
theorem endingsAt_clearing (p : DataPlane) (directory : Directory) (timers : Timers) (peer : NodeId) (path : Path) :
    ∃ e, p.endingsAt ⟨directory, timers, .pathSwitch peer path true⟩ = [e] ∧ e.done.peer = peer ∧ e.done.path = path := by
  simp only [endingsAt, ended, PathSwitches.start_eq, if_true]
  exact ⟨_, rfl, rfl, rfl⟩

/-- It rewrites no descriptor that does not name the peer. -/
theorem path_of_clearing (found : p.flows.descriptor? l = some d) (names : d.rxPeer ≠ some peer)
    (directory : Directory) (timers : Timers) (path : Path) :
    ∃ d', (p.react ⟨directory, timers, .pathSwitch peer path true⟩).plane.flows.descriptor? l = some d' ∧
      d'.path = d.path := by
  obtain ⟨e, ends, own, -⟩ := endingsAt_clearing p directory timers peer path
  have switched := reroutes_react p (m := ⟨directory, timers, .pathSwitch peer path true⟩) fun departs => by cases departs
  rw [ends] at switched
  refine ⟨d.rerouted [e.done], (switched.descriptor l).trans (congrArg _ found), ?_⟩
  unfold Descriptor.rerouted
  cases rx : d.rxPeer with
  | none => rfl
  | some other =>
    refine pathAfter_of_absent fun done member same => names ?_
    obtain rfl := List.mem_singleton.1 member
    rw [rx, ← same, own]

/-- The descriptor of a connection follows the switches of a peer exactly if it names the peer. -/
theorem follows_iff (consistent : p.connections.Consistent) (found : p.flows.descriptor? l = some d) :
    p.Follows l peer ↔ d.rxPeer = some peer := by
  constructor
  · intro follows
    by_contra names
    obtain ⟨path, other⟩ : ∃ path, path ≠ d.path := by
      cases d.path
      · exact ⟨.direct, by decide⟩
      · exact ⟨.infrastructure, by decide⟩
      · exact ⟨.direct, by decide⟩
    obtain ⟨e, ends, own, target⟩ := endingsAt_clearing p default ⟨0, 0, []⟩ peer path
    obtain ⟨d₁, kept, unchanged⟩ := path_of_clearing found names default ⟨0, 0, []⟩ path
    obtain ⟨d₂, rewritten, current⟩ :=
      follows [] (fun m member => by cases member) _ e (ends ▸ List.mem_singleton_self e) own
    obtain rfl := Option.some.inj (kept.symm.trans rewritten)
    exact other (target.symm.trans (current.symm.trans unchanged))
  · rintro names later stays m e ends rfl
    obtain ⟨d', found', same⟩ := lasting_after consistent stays found
    exact path_of_ending (consistent_after consistent later) found' ends
      ((congrArg Descriptor.rxPeer same).trans names)

section
variable {node : NodeId} {role : Role} {settings : PlaneSettings}

/-- A packet that was given a number leaves the connection of its flow, with a descriptor. -/
theorem registers_of_answered (consistent : p.connections.Consistent) {packet : Packet} {hint : String}
    {dispatch : Dispatch} (answered : (p.submit directory timers packet hint).result = .ok dispatch)
    (numbered : dispatch.sn ≠ none) :
    let m : Moment := ⟨directory, timers, .packet packet hint⟩
    (p.react m).plane.flows.lookup? (p.flowKey directory packet) = some dispatch.lcid ∧
      ∃ d, (p.react m).plane.flows.descriptor? dispatch.lcid = some d := by
  intro m
  obtain ⟨sn, number⟩ := Option.ne_none_iff_exists'.1 numbered
  have dispatched : (p.react m).dispatched = [(packet, dispatch)] := by
    simp only [m, react, Submission.dispatched, answered]
  have given := numbered_numberingsAt p m
  have switched := reroutes_react p (m := m) fun departs => by cases departs
  rw [dispatched, List.filterMap_cons, Dispatch.numbered?, number] at given
  rcases entered_spec consistent m with ⟨none_given, -⟩ | ⟨n, one, registers⟩
  · rw [none_given] at given
    cases given
  · rw [one] at given
    obtain ⟨packetIs, lcid, -⟩ : n.packet = packet ∧ n.unit.lcid = dispatch.lcid ∧ _ := by
      simpa using given
    have described := registers.described n.unit.lcid
    rw [if_pos rfl, lcid] at described
    refine ⟨?_, _, (switched.descriptor _).trans (congrArg _ described)⟩
    have opened := registers.lookup.1
    rw [packetIs, lcid] at opened
    rwa [FlowTable.lookup?, switched.lcids]

/-- After a packet for a peer was given a number, the descriptor of its connection names the peer, and follows the
switches of the peer, exactly if the first packet of the connection was routed to the peer as well. So it is if nothing
but positions and serving nodes changed in the directory. -/
theorem peer_recorded_iff (made : new node role settings = .ok p) {ms : List Moment} {packet : Packet} {hint : String}
    {dispatch : Dispatch} {route : Route}
    (answered : ((p.after ms).submit directory timers packet hint).result = .ok dispatch)
    (numbered : dispatch.sn ≠ none) (routed : ((p.after ms).view directory).route role packet = .ok route)
    (goes : route.peer = some peer) :
    let run := ms ++ [⟨directory, timers, .packet packet hint⟩]
    let q := p.after run
    ∃ first d, Numbering.first? (p.numberings run) dispatch.lcid = some first ∧
      q.flows.descriptor? dispatch.lcid = some d ∧
      (d.rxPeer = some peer ↔ first.route.peer = some peer) ∧
      (q.Follows dispatch.lcid peer ↔ first.route.peer = some peer) ∧
      ((∀ m ∈ ms, directory.SameNodes m.directory) → first.route.peer = some peer) := by
  intro run q
  obtain ⟨opened, d, found⟩ := registers_of_answered (consistent_after (consistent_new made) ms) answered numbered
  rw [show ((p.after ms).react ⟨directory, timers, .packet packet hint⟩).plane = q from
    (after_append p ms [_]).symm] at opened found
  have consistent : q.connections.Consistent := consistent_after (consistent_new made) run
  obtain ⟨first, direction, firstIs, same⟩ := founded_after made run found
  have named : d.rxPeer = first.route.peer := congrArg Descriptor.rxPeer same
  refine ⟨first, d, firstIs, found, by rw [named], by rw [← named]; exact follows_iff consistent found, fun still => ?_⟩
  have steady : ∀ m ∈ run, directory.SameNodes m.directory := by
    intro m member
    rcases List.mem_append.1 member with before | last
    · exact still m before
    · rw [List.mem_singleton.1 last]
      exact .refl directory
  obtain ⟨endpoints, direction', lookup, peerIs, -⟩ :=
    recorded_after (consistent_new made) (recorded_new made directory) steady _ d found
  have between : endpoints = packet.endpoints := FlowKey.endpoints_inj (consistent.valid.apart lookup opened)
  have roleIs : q.role = role := (role_after p run).trans (role_new made)
  have nodeIs : q.node = (p.after ms).node := (node_after p run).trans (node_after p ms).symm
  rw [← named, peerIs, between, roleIs, nodeIs, ← goes]
  exact (RoutingView.peer_of_route routed).symm

end

/-- The second packet to the second node: the descriptor follows the switches of that node, as of the first packet on. -/
theorem peer_recorded_iff_at_greeting :
    let q := (fresh 1).after greeting
    let run := greeting ++ [(Stimulus.packet .hello "voice").inPair]
    new ⟨1⟩ .peerDirect .default = .ok (fresh 1) ∧
      (q.submit .pair ⟨0, 0, []⟩ .hello "voice").result = .ok ⟨.first, some 1, .queued⟩ ∧
      (q.view .pair).route .peerDirect .hello = .ok ⟨⟨2⟩, [⟨2⟩], .direct, some ⟨2⟩, none⟩ ∧
      (((fresh 1).after run).flows.descriptor? .first).map (·.rxPeer) = some (some ⟨2⟩) ∧
      ((fresh 1).after run).Follows .first ⟨2⟩ := by
  intro q run
  have answered : (q.submit .pair ⟨0, 0, []⟩ .hello "voice").result = .ok ⟨.first, some 1, .queued⟩ := by
    decide +kernel
  have routed : (q.view .pair).route .peerDirect .hello = .ok ⟨⟨2⟩, [⟨2⟩], .direct, some ⟨2⟩, none⟩ := by
    decide +kernel
  have still : ∀ m ∈ greeting, Directory.pair.SameNodes m.directory := by
    simp [greeting, Stimulus.inPair, Directory.SameNodes.refl]
  obtain ⟨first, d, -, found, names, follows, steady⟩ :=
    peer_recorded_iff new_fresh.1 answered (by decide) routed rfl
  refine ⟨new_fresh.1, answered, routed, ?_, follows.2 (steady still)⟩
  have there : ((fresh 1).after run).flows.descriptor? .first = some d := found
  rw [there, Option.map_some, names.2 (steady still)]

/-- The directory of two nodes that do not reach each other, of which the first is served by a third. -/
def distantPair : Directory := { laterDirectory with reach := .empty }

/-- The first node sends a packet through its serving node, comes to reach the second node, and sends the same packet
again. -/
def encounter : List Moment :=
  [⟨distantPair, ⟨0, 0, []⟩, .packet .hello "voice"⟩,
    ⟨distantPair.connect ⟨1⟩ ⟨2⟩, ⟨0, 0, []⟩, .packet .hello "voice"⟩]

/-- The second packet goes to the second node on the same connection, but the descriptor names no peer. -/
theorem peer_unrecorded_at_encounter :
    let q := (fresh 1).after encounter
    let switch : Moment := ⟨distantPair.connect ⟨1⟩ ⟨2⟩, ⟨0, 0, []⟩, .pathSwitch ⟨2⟩ .infrastructure true⟩
    new ⟨1⟩ .peerDirect .default = .ok (fresh 1) ∧
      ((fresh 1).numberings encounter).map (fun n => (n.unit.lcid, n.unit.sn, n.route.peer)) =
        [(.first, 0, none), (.first, 1, some ⟨2⟩)] ∧
      (q.flows.descriptor? .first).map (fun d => (d.rxPeer, d.path)) = some (none, .direct) ∧
      (q.endingsAt switch).map (fun e => (e.done.peer, e.done.path)) = [(⟨2⟩, .infrastructure)] ∧
      ((q.react switch).plane.flows.descriptor? .first).map (·.path) = some .direct :=
  ⟨new_fresh.1, by decide +kernel, by decide +kernel, by decide +kernel, by decide +kernel⟩

end DataPlane
end Sidelink
