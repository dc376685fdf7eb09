import Sidelink.Proofs.Connections
import Sidelink.Proofs.WakeUp

/-!
Packets without a route. A packet is routed on the current path of its destination before it is given a connection and
a number, and one that has no route there leaves all tables as they were (`DataPlane.Traceless`). A packet for a peer is
routed once more when it leaves, and the second route can fail where the first did not: if the peer switches to a path
without a serving node and none of its buffers drains, the packet itself ends the switch (`DataPlane.Strands`). As long
as no peer departs, a peer that switches has a buffer that drains (`DataPlane.Busy`), and no packet comes to that.
-/
namespace Sidelink

/-! ## Routes to peers -/

namespace RoutingView
variable {v : RoutingView} {role : Role} {packet : Packet} {peer : NodeId}

/-- A packet for a peer has a route exactly if the peer's current path has a next hop. -/
theorem route_of_way (way : v.directory.way? v.node role packet.endpoints = some (.toPeer peer)) :
    v.route role packet =
      match v.nextHop? peer (v.switches.currentPath peer) with
      | none => .error .noServingNode
      | some hop => .ok ⟨hop, [peer], v.switches.currentPath peer, some peer, none⟩ := by
  have serving : (v.directory.serving? v.node).map (fun serving => Way.toHop serving .infrastructure) ≠
      some (.toPeer peer) := by
    cases v.directory.serving? v.node <;> simp
  obtain rfl := Directory.peerDirect_of_toPeer way
  simp only [Directory.way?] at way
  simp only [RoutingView.route, sidelinkRoute, destination?]
  split at way
  · cases way
  · rename_i single
    rw [if_neg single]
    obtain ⟨destination, found, goes⟩ := Option.bind_eq_some_iff.1 way
    split at goes
    · rename_i near
      cases goes
      rw [found]
      exact if_pos near
    · exact absurd goes serving

theorem nextHop?_eq_none_iff {path : Path} :
    v.nextHop? peer path = none ↔ path = .infrastructure ∧ v.directory.serving? v.node = none := by
  cases path <;> simp [nextHop?]

end RoutingView

namespace DataPlane
variable {p q : DataPlane} {directory : Directory} {timers : Timers} {packet : Packet} {hint : String}
  {dispatch : Dispatch} {peer : NodeId}

/-! ## Packets that are answered -/

/-- Whether a packet that was dropped left all tables as they were, with the answer that it was dropped. -/
structure Traceless (p : DataPlane) (directory : Directory) (packet : Packet) (dispatch : Dispatch) (q : DataPlane) :
    Prop where
  /-- The ids of flows, and the descriptors of connections. -/
  flows : q.flows = p.flows
  /-- The numbers of connections. -/
  convergence : q.convergence = p.convergence
  sn : dispatch.sn = none
  lcid : dispatch.lcid = (p.flows.lookup? (p.flowKey directory packet)).getD .notFound

/-- A packet that is answered has no route and leaves no trace, or it has a route and is given a number. -/
theorem answered_cases (answered : (p.submit directory timers packet hint).result = .ok dispatch) :
    ((∃ reason, (p.view directory).route p.role packet = .error reason) ∧
        p.Traceless directory packet dispatch (p.submit directory timers packet hint).plane) ∨
      (∃ route, (p.view directory).route p.role packet = .ok route) ∧ dispatch.sn ≠ none := by
  rcases submit_spec p directory timers packet hint with ⟨missing, -⟩ | ⟨q, route, unit, found, -, sent⟩
  · have rejection := rejection_of_unnumbered missing
    generalize p.submit directory timers packet hint = submission at answered rejection ⊢
    cases rejection with
    | unknownMode | exhausted | numberless => cases answered
    | routeless known unrouted =>
      obtain rfl := Except.ok.inj answered
      exact Or.inl ⟨⟨_, unrouted⟩, rfl, rfl, rfl, rfl⟩
  · obtain ⟨-, routed, -⟩ := numbered?_eq_some found
    rw [sent] at answered
    obtain rfl := Except.ok.inj answered
    exact Or.inr ⟨⟨route, routed⟩, Option.some_ne_none _⟩

/-! ## Packets that are routed twice -/

/-- Whether a peer is on a path that leads to it, but ends its switch as soon as it is looked at, on a path where nobody
serves the node. -/
structure Strands (p : DataPlane) (directory : Directory) (peer : NodeId) : Prop where
  near : p.switches.currentPath peer ≠ .infrastructure
  switching : ∃ check, p.switches.phase peer = .switching .infrastructure check
  drained : ¬ p.Drains peer
  unserved : directory.serving? p.node = none

/-- A packet for a peer has a route before the peer strands. -/
theorem Strands.routed (strands : p.Strands directory peer)
    (way : directory.way? p.node p.role packet.endpoints = some (.toPeer peer)) :
    ∃ route, (p.view directory).route p.role packet = .ok route := by
  rw [RoutingView.route_of_way (v := p.view directory) way]
  cases leads : (p.view directory).nextHop? peer ((p.view directory).switches.currentPath peer) with
  | none => exact absurd (RoutingView.nextHop?_eq_none_iff.1 leads).1 strands.near
  | some hop => exact ⟨_, rfl⟩

section
variable {unit : DeferredSdu} {reason : DropReason}

/-- A unit that is offered to a buffer is not dropped for want of a route. -/
theorem routed_offer {hop : NodeId} {l : Lcid} {sn : UInt32} {mode : DeliveryMode} {path : Path} {sdu : Bytes}
    {recipients : List NodeId} (unrouted : reason ≠ .queueFull) :
    (p.offer hop l sn mode path sdu recipients).1 ≠ .dropped reason := by
  intro dropped
  simp only [offer] at dropped
  split at dropped
  · cases dropped
  · exact unrouted (Outcome.dropped.inj dropped).symm
  · cases dropped

/-- A unit for a peer is dropped for want of a route only where the path that the peer is on then has none. -/
theorem unrouted_sendToPeer (unrouted : reason ≠ .queueFull)
    (dropped : (p.sendToPeer directory timers peer unit).1 = .dropped reason) :
    let q := (p.reevaluate directory timers peer).1
    q.switches.isSwitching peer = false ∧ (q.view directory).nextHop? peer (q.switches.currentPath peer) = none := by
  simp only [sendToPeer] at dropped ⊢
  generalize (p.reevaluate directory timers peer).1 = q at dropped ⊢
  split at dropped
  · split at dropped
    · cases dropped
    · exact absurd (Outcome.dropped.inj dropped).symm unrouted
  · rename_i still
    refine ⟨Bool.not_eq_true _ ▸ still, ?_⟩
    split at dropped
    · assumption
    · exact absurd dropped (routed_offer unrouted)

/-- The path of a peer changes only where its switch ends, so a unit that had a route loses it there. -/
theorem strands_of_unrouted {hop : NodeId}
    (leads : (p.view directory).nextHop? peer (p.switches.currentPath peer) = some hop)
    (unrouted : reason ≠ .queueFull) (dropped : (p.sendToPeer directory timers peer unit).1 = .dropped reason) :
    p.Strands directory peer := by
  obtain ⟨still, lost⟩ := unrouted_sendToPeer unrouted dropped
  have node : (p.reevaluate directory timers peer).1.node = p.node := (outbound_reevaluate p directory timers peer).node
  rw [nextHop?_congr directory node] at lost
  rw [reevaluate, switches_applyStep] at still lost
  have looked := PathSwitches.looked_reevaluate p.switches p.links p.buffers timers peer
  generalize p.switches.reevaluate p.links p.buffers timers peer = step at looked still lost
  cases looked with
  | calm _ =>
    rw [leads] at lost
    cases lost
  | waits switching draining =>
    rw [leads] at lost
    cases lost
  | asks switching draining =>
    rw [PathSwitches.isSwitching_setPhase] at still
    cases still
  | @ends target check switching drained =>
    have ended : (p.switches.complete p.links p.buffers (timers.withdraw check) peer target).switches.currentPath peer =
        target := by simp [PathSwitches.complete, PathSwitches.currentPath]
    rw [ended] at lost
    obtain ⟨rfl, unserved⟩ := RoutingView.nextHop?_eq_none_iff.1 lost
    refine ⟨fun infrastructure => ?_, ⟨check, switching⟩, fun drains => ?_, unserved⟩
    · rw [infrastructure, lost] at leads
      cases leads
    · exact Bool.noConfusion (drained.symm.trans drains)

/-- A packet with a number is dropped for want of a route only where its peer strands. -/
theorem Numbered.strands {route : Route} (numbered : Numbered p directory packet q route.way unit)
    (routed : ∃ route, (p.view directory).route p.role packet = .ok route) (unrouted : reason ≠ .queueFull)
    (dropped : (q.sendOn directory timers route unit).1 = .dropped reason) :
    ∃ peer, directory.way? p.node p.role packet.endpoints = some (.toPeer peer) ∧ p.Strands directory peer := by
  have way := numbered.way
  unfold sendOn at dropped
  cases peerIs : route.peer with
  | none =>
    rw [peerIs] at dropped
    exact absurd dropped (routed_offer unrouted)
  | some peer =>
    rw [peerIs] at dropped
    rw [Route.way, peerIs] at way
    refine ⟨peer, way, ?_⟩
    obtain ⟨node, -⟩ := numbered.chain.fixed
    obtain ⟨first, routed⟩ := routed
    rw [RoutingView.route_of_way (v := p.view directory) way] at routed
    cases leads : (p.view directory).nextHop? peer (p.switches.currentPath peer) with
    | none =>
      rw [show (p.view directory).switches = p.switches from rfl, leads] at routed
      cases routed
    | some hop =>
      rw [← numbered.switches, ← nextHop?_congr directory node] at leads
      obtain ⟨near, switching, drained, unserved⟩ := strands_of_unrouted leads unrouted dropped
      rw [numbered.switches] at near switching
      rw [Drains, numbered.buffers, numbered.links] at drained
      exact ⟨near, switching, drained, node ▸ unserved⟩

end

/-- A packet that is dropped for want of a route leaves no trace exactly if its peer does not strand. -/
theorem traceless_iff_not_strands {reason : DropReason}
    (answered : (p.submit directory timers packet hint).result = .ok dispatch)
    (dropped : dispatch.outcome = .dropped reason) (unrouted : reason ≠ .queueFull) :
    p.Traceless directory packet dispatch (p.submit directory timers packet hint).plane ↔
      ∀ peer, directory.way? p.node p.role packet.endpoints = some (.toPeer peer) → ¬ p.Strands directory peer := by
  rcases answered_cases answered with ⟨⟨cause, routeless⟩, traceless⟩ | ⟨routed, numbered⟩
  · refine iff_of_true traceless fun peer way strands => ?_
    obtain ⟨route, routed⟩ := strands.routed way
    rw [routeless] at routed
    cases routed
  · refine iff_of_false (fun traceless => numbered traceless.sn) fun calm => ?_
    rcases submit_spec p directory timers packet hint with ⟨-, unnumbered⟩ | ⟨q, route, unit, -, given, sent⟩
    · exact numbered (unnumbered.outcome dispatch answered).1
    · rw [sent] at answered
      obtain rfl := Except.ok.inj answered
      obtain ⟨peer, way, strands⟩ := given.strands routed unrouted dropped
      exact calm peer way strands

/-! ## Runs without departures of peers -/

/-- Among moments at which no peer departs and nothing but positions and serving nodes changes in the directory, the
peers that switch have buffers that drain. -/
theorem busy_run {node : NodeId} {role : Role} {settings : PlaneSettings} {d : Directory} {ms : List Moment}
    (made : new node role settings = .ok p)
    (steady : ∀ m ∈ ms, d.SameNodes m.directory ∧ ∀ peer, m.stimulus ≠ .peerDeparted peer) : (p.after ms).Busy [] := by
  have run {q : DataPlane} {hs : List Effect} (sound : Sound node settings hs ⟨q, []⟩) (gated : Gated d ⟨q, []⟩)
      (busy : q.Busy []) : (q.after ms).Busy [] := by
    induction ms generalizing q hs with
    | nil => exact busy
    | cons m rest ih =>
      obtain ⟨same, present⟩ := steady m List.mem_cons_self
      obtain ⟨effects, soundAfter, gatedAfter⟩ := gated_react sound gated same
      exact ih (fun n member => steady n (List.mem_cons_of_mem _ member)) soundAfter gatedAfter
        (busy_react sound gated busy same present)
  refine run (sound_new made) (gated_new made d) fun peer switching => ?_
  obtain ⟨-, rfl⟩ := eq_of_new made
  cases switching

/-- A packet that is dropped for want of a route, at any node and whatever happened before, leaves no trace unless the
peer that it is for ends its switch at that very moment on a path where nobody serves the node. This does not happen
where no peer departed, and nothing but positions and serving nodes changed in the directory. -/
theorem routeless_traceless_iff {node : NodeId} {role : Role} {settings : PlaneSettings} {ms : List Moment}
    (made : new node role settings = .ok p)
    (answered : ((p.after ms).submit directory timers packet hint).result = .ok dispatch)
    (dropped : dispatch.outcome = .dropped .unknownDestination ∨ dispatch.outcome = .dropped .noServingNode) :
    let q := p.after ms
    (q.Traceless directory packet dispatch (q.submit directory timers packet hint).plane ↔
        ∀ peer, directory.way? node role packet.endpoints = some (.toPeer peer) → ¬ q.Strands directory peer) ∧
      ∀ d : Directory, (∀ m ∈ ms, d.SameNodes m.directory ∧ ∀ peer, m.stimulus ≠ .peerDeparted peer) →
        ∀ peer, ¬ q.Strands directory peer := by
  intro q
  have nodeIs : q.node = node := by
    obtain ⟨effects, -, sound⟩ := sound_run made ms
    exact sound.served.node_eq
  have roleIs : q.role = role := (role_after p ms).trans (role_new made)
  refine ⟨?_, fun d steady peer strands => ?_⟩
  · rw [← nodeIs, ← roleIs]
    rcases dropped with unknown | unserved
    · exact traceless_iff_not_strands answered unknown (by decide)
    · exact traceless_iff_not_strands answered unserved (by decide)
  · obtain ⟨check, switching⟩ := strands.switching
    have switches : q.switches.isSwitching peer = true :=
      (PathSwitches.isSwitching_eq_true_iff _ _).2 ⟨_, check, switching⟩
    exact strands.drained ((busy_run made steady peer switches).resolve_left List.not_mem_nil)

/-- Nobody is known under the token that the packet is for. -/
theorem routeless_traceless_iff_at_unknown :
    let q := (fresh 1).after switchover
    let packet : Packet := ⟨.token 1 9, .udp, [0xab]⟩
    let dispatch : Dispatch := ⟨.notFound, none, .dropped .unknownDestination⟩
    new ⟨1⟩ .peerDirect .default = .ok (fresh 1) ∧
      (q.submit .pair ⟨0, 0, []⟩ packet "voice").result = .ok dispatch ∧
      q.Traceless .pair packet dispatch (q.submit .pair ⟨0, 0, []⟩ packet "voice").plane := by
  intro q packet dispatch
  have answer : (q.submit .pair ⟨0, 0, []⟩ packet "voice").result.toOption = some dispatch := by decide +kernel
  have answered : (q.submit .pair ⟨0, 0, []⟩ packet "voice").result = .ok dispatch := by
    cases result : (q.submit .pair ⟨0, 0, []⟩ packet "voice").result with
    | error cause =>
      rw [result] at answer
      cases answer
    | ok found =>
      rw [result] at answer
      exact congrArg Except.ok (Option.some.inj answer)
  obtain ⟨traceless, calm⟩ := routeless_traceless_iff new_fresh.1 answered (Or.inl rfl)
  have steady : ∀ m ∈ switchover, Directory.pair.SameNodes m.directory ∧ ∀ peer, m.stimulus ≠ .peerDeparted peer := by
    simp [switchover, Stimulus.inPair, Directory.SameNodes.refl]
  exact ⟨new_fresh.1, answered, traceless.2 fun peer _ => calm .pair steady peer⟩

/-- The first node sends a packet and begins to switch the path of the second node to the infrastructure, where nobody
serves the first node. The second node departs, and with it the buffer that drains. -/
def stranding : List Moment :=
  [.packet .hello "voice", .pathSwitch ⟨2⟩ .infrastructure false, .peerDeparted ⟨2⟩].map Stimulus.inPair

/-- A packet of a new flow to the second node is given a connection and a number, and is dropped all the same. -/
theorem trace_left_at_stranding :
    let q := (fresh 1).after stranding
    let packet : Packet := ⟨.token 3 2, .udp, [0xab]⟩
    let s := q.submit .pair ⟨0, 0, []⟩ packet "voice"
    new ⟨1⟩ .peerDirect .default = .ok (fresh 1) ∧
      s.result.toOption = some ⟨⟨2⟩, some 0, .dropped .noServingNode⟩ ∧
      q.flows.lookup? (q.flowKey .pair packet) = none ∧ q.flows.descriptors.keys = [⟨1⟩] ∧ q.convergence.keys = [⟨1⟩] ∧
      s.plane.flows.lookup? (q.flowKey .pair packet) = some ⟨2⟩ ∧ s.plane.flows.descriptors.keys = [⟨1⟩, ⟨2⟩] ∧
      (s.plane.convergence.get? ⟨2⟩).map (·.issued) = some 1 ∧
      ∀ dispatch, s.result = .ok dispatch → ¬ q.Traceless .pair packet dispatch s.plane := by
  intro q packet s
  have fresh_flow : q.flows.descriptors.keys = [⟨1⟩] := by decide +kernel
  have described : s.plane.flows.descriptors.keys = [⟨1⟩, ⟨2⟩] := by decide +kernel
  refine ⟨new_fresh.1, by decide +kernel, by decide +kernel, fresh_flow, by decide +kernel, by decide +kernel, described,
    by decide +kernel, fun dispatch _ traceless => ?_⟩
  rw [traceless.flows, fresh_flow] at described
  cases described

end DataPlane
end Sidelink
