import Sidelink.Proofs.Placement

/-!
What a node does to the switches of its peers. It changes them by the steps of a switch, each of which is a look at the
peer's buffers (`PathSwitches.Looked`), and by letting units wait; everything else leaves them alone. A packet that has
a route is numbered first (`DataPlane.numbered?`) and then goes to a buffer or to a peer; one that is not numbered is
counted and answered, and that is all (`DataPlane.Rejection`).
-/
namespace Sidelink

/-! ## Steps of a switch -/

/-- Withdraws a check that is scheduled. -/
def Timers.withdraw (t : Timers) : Option EventId → Timers
  | some id => t.cancel id
  | none => t

/-- The check that is scheduled in a phase. -/
def SwitchPhase.check? : SwitchPhase → Option EventId
  | .switching _ check => check
  | .active | .switched => none

namespace PathSwitches

/-- Everything that a look at the switch of a peer can do. -/
inductive Looked (s : PathSwitches) (links : PeerLinks) (buffers : TransmitBuffers) (timers : Timers)
    (peer : NodeId) : SwitchStep → Prop
  /-- The peer does not switch. -/
  | calm (still : s.isSwitching peer = false) : Looked s links buffers timers peer ⟨s, buffers, timers, none⟩
  /-- A buffer drains, and a check is scheduled. -/
  | waits {target : Path} {id : EventId} (switching : s.phase peer = .switching target (some id))
      (draining : TransmitBuffers.anyDraining buffers (links.keys peer) = true) :
      Looked s links buffers timers peer ⟨s, buffers, timers, none⟩
  /-- A buffer drains, and no check was scheduled yet. -/
  | asks {target : Path} (switching : s.phase peer = .switching target none)
      (draining : TransmitBuffers.anyDraining buffers (links.keys peer) = true) :
      Looked s links buffers timers peer
        ⟨s.setPhase peer (.switching target (some timers.nextId)), buffers,
          (timers.start (timers.now.plusMicros s.interval) peer).2, none⟩
  | ends {target : Path} {check : Option EventId} (switching : s.phase peer = .switching target check)
      (drained : TransmitBuffers.anyDraining buffers (links.keys peer) = false) :
      Looked s links buffers timers peer (s.complete links buffers (timers.withdraw check) peer target)

theorem looked_reevaluate (s : PathSwitches) (links : PeerLinks) (buffers : TransmitBuffers) (timers : Timers)
    (peer : NodeId) : Looked s links buffers timers peer (s.reevaluate links buffers timers peer) := by
  unfold reevaluate
  split
  · rename_i target check switching
    split
    · rename_i draining
      cases check with
      | some id => exact .waits switching draining
      | none => exact .asks switching draining
    · rename_i drained
      have ended : Looked s links buffers timers peer (s.complete links buffers (timers.withdraw check) peer target) :=
        .ends switching (Bool.not_eq_true _ ▸ drained)
      cases check <;> exact ended
  · rename_i other
    refine .calm (Bool.not_eq_true _ ▸ fun switching => ?_)
    obtain ⟨target, check, phase⟩ := (isSwitching_eq_true_iff s peer).1 switching
    exact other target check phase

/-- The switches when a switch of a peer begins. -/
def begun (s : PathSwitches) (peer : NodeId) (path : Path) : PathSwitches :=
  { s.setPhase peer (.switching path none) with counters := { s.counters with started := s.counters.started + 1 } }

theorem start_eq (s : PathSwitches) (links : PeerLinks) (buffers : TransmitBuffers) (timers : Timers)
    (peer : NodeId) (path : Path) (clear : Bool) :
    s.start links buffers timers peer path clear =
      let held := TransmitBuffers.onKeys buffers (links.keys peer) TransmitBuffer.hold
      let timers := timers.withdraw (s.phase peer).check?
      if clear = true then
        let s := s.begun peer path
        ({ s with
          counters := { s.counters with
            discarded :=
              s.counters.discarded + TransmitBuffers.queuedAt held (links.keys peer) } } : PathSwitches).complete
          links (TransmitBuffers.onKeys held (links.keys peer) TransmitBuffer.discard) timers peer path
      else (s.begun peer path).reevaluate links held timers peer := by
  unfold start
  cases s.phase peer with
  | active => rfl
  | switched => rfl
  | switching target check => cases check <;> rfl

theorem checkFired_eq (s : PathSwitches) (links : PeerLinks) (buffers : TransmitBuffers) (timers : Timers)
    (peer : NodeId) :
    (s.isSwitching peer = false ∧ s.checkFired links buffers timers peer = ⟨s, buffers, timers, none⟩) ∨
      ∃ target check, s.phase peer = .switching target check ∧ s.checkFired links buffers timers peer =
        (s.setPhase peer (.switching target none)).reevaluate links buffers timers peer := by
  unfold checkFired isSwitching
  cases phase : s.phase peer with
  | active => exact Or.inl ⟨rfl, rfl⟩
  | switched => exact Or.inl ⟨rfl, rfl⟩
  | switching target check => exact Or.inr ⟨target, check, rfl, rfl⟩

end PathSwitches

/-! ## What leaves switches alone -/

namespace DataPlane
variable {p q : DataPlane} {directory : Directory} {timers : Timers}

@[simp] theorem switches_advance (p : DataPlane) (now : SimTime) : (p.advance now).switches = p.switches := by
  unfold advance
  split <;> rfl

theorem switches_flush (p : DataPlane) (peer : NodeId) (path : Path) (nextHop : Option NodeId) (d : DeferredSdu) :
    (p.flush peer path nextHop d).switches = p.switches := by
  cases nextHop with
  | none => rfl
  | some hop => exact switches_offer _ hop path d

@[simp] theorem timers_applyStep (p : DataPlane) (directory : Directory) (step : SwitchStep) :
    (p.applyStep directory step).2 = step.timers := by
  unfold applyStep
  cases step.completion <;> rfl

@[simp] theorem switches_applyStep (p : DataPlane) (directory : Directory) (step : SwitchStep) :
    (p.applyStep directory step).1.switches = step.switches := by
  have flushed (peer : NodeId) (path : Path) (nextHop : Option NodeId) (waiting : List DeferredSdu) (q : DataPlane) :
      (waiting.foldl (fun p d => p.flush peer path nextHop d) q).switches = q.switches := by
    induction waiting generalizing q with
    | nil => rfl
    | cons d rest ih => exact (ih _).trans (switches_flush q peer path nextHop d)
  unfold applyStep
  cases step.completion with
  | none => rfl
  | some done => exact flushed _ _ _ _ _

theorem switches_number {l : Lcid} {sn : UInt32} {entity : ConvergenceEntity}
    (numbered : p.number l = some (sn, entity, q)) : q.switches = p.switches := by
  obtain ⟨-, rfl⟩ := number_eq_some_iff.1 numbered
  rfl

theorem switches_transmit (p : DataPlane) (now : SimTime) (limit : Nat) :
    (p.transmit now limit).2.switches = p.switches := by
  simp only [transmit]
  split
  · exact switches_advance p now
  · exact switches_advance p now

theorem Inbound.switches (inbound : Inbound p q) : q.switches = p.switches := by
  obtain ⟨_, _, _, _, _, rfl⟩ := inbound
  rfl

theorem switches_replaceReceivers (p : DataPlane) (path : Path) (clear : Bool) (keys : List EntityKey) :
    (p.replaceReceivers path clear keys).2.switches = p.switches :=
  (inbound_replaceReceivers p path clear keys).switches

theorem switches_deliver (p : DataPlane) (frame : Frame) : (p.deliver frame).2.switches = p.switches :=
  (inbound_deliver p frame).switches

theorem switches_submitControl (p : DataPlane) (directory : Directory) (timers : Timers) (payload : Bytes) :
    (p.submitControl directory timers payload).plane.switches = p.switches ∧
      (p.submitControl directory timers payload).timers = timers := by
  simp only [submitControl]
  split
  · exact ⟨switches_advance p timers.now, rfl⟩
  · split
    · exact ⟨switches_advance p timers.now, rfl⟩
    · rename_i sn entity q numbered
      refine ⟨?_, rfl⟩
      exact (switches_offer q _ _ ⟨_, _, _, _, _⟩).trans
        ((switches_number numbered).trans (switches_advance p timers.now))

/-! ## Packets with a number -/

/-- The data plane once a packet that has a route was given its number, with the route and the unit of the packet. -/
def numbered? (p : DataPlane) (directory : Directory) (timers : Timers) (packet : Packet) (hint : String) :
    Option (DataPlane × Route × DeferredSdu) :=
  let p := (p.advance timers.now).count fun c => { c with submitted := c.submitted + 1 }
  let profile := p.settings.profiles.classify hint
  match DeliveryMode.ofCode? profile.modeCode.toNat, (p.view directory).route p.role packet with
  | some mode, .ok route =>
    let direction := (p.view directory).direction p.role packet
    match p.flows.lookupOrCreate (.ofEndpoints packet.endpoints direction) with
    | none => none
    | some (lcid, created, flows) =>
      let flows := if created || !flows.descriptors.contains lcid
        then flows.setDescriptor (p.describe lcid profile direction route) else flows
      match { p with flows }.number lcid with
      | none => none
      | some (sn, entity, p) =>
        let sdu := (entity.compress ⟨sn, packet.headers, none, packet.payload⟩).encode
        some ({ p with
            flows := p.flows.modifyDescriptor lcid fun d => { d with path := route.path, lastSn := some sn } },
          route, ⟨lcid, sn, mode, sdu, route.recipients⟩)
  | _, _ => none

/-- Sends a unit on its way. -/
def sendOn (p : DataPlane) (directory : Directory) (timers : Timers) (route : Route) (unit : DeferredSdu) :
    Outcome × DataPlane × Timers :=
  match route.peer with
  | some peer => p.sendToPeer directory timers peer unit
  | none =>
    let (outcome, p) := p.offer route.nextHop unit.lcid unit.sn unit.mode route.path unit.sdu unit.recipients
    (outcome, p, timers)

/-- What holds of a packet with a number. -/
structure Numbered (p : DataPlane) (directory : Directory) (packet : Packet) (q : DataPlane) (way : Way)
    (unit : DeferredSdu) : Prop where
  chain : Chain (· = directory) ⟨p, []⟩ [.issued packet unit.lcid unit.sn] ⟨q, [⟨way, unit⟩]⟩
  links : q.links = p.links
  buffers : q.buffers = p.buffers
  switches : q.switches = p.switches
  way : directory.way? p.node p.role packet.endpoints = some way
  made : ∃ entity, q.convergence.get? unit.lcid = some entity ∧
    unit.sdu = (entity.compress ⟨unit.sn, packet.headers, none, packet.payload⟩).encode

/-- A packet that was not given a number changes nothing that matters to others. -/
structure Unnumbered (p : DataPlane) (timers : Timers) (submission : Submission) : Prop where
  alike : Alike p submission.plane
  switches : submission.plane.switches = p.switches
  timers : submission.timers = timers
  outcome : ∀ dispatch, submission.result = .ok dispatch →
    dispatch.sn = none ∧ ∃ reason, dispatch.outcome = .dropped reason ∧ reason ≠ .queueFull

theorem route_ne_queueFull (v : RoutingView) (role : Role) (packet : Packet) :
    v.route role packet ≠ .error .queueFull := by
  have serving : v.servingRoute packet ≠ .error .queueFull := by
    unfold RoutingView.servingRoute
    split <;> simp
  cases role with
  | mobile => exact serving
  | baseStation =>
    simp only [RoutingView.route, RoutingView.downlinkRoute]
    split <;> simp
  | peerDirect =>
    simp only [RoutingView.route, RoutingView.sidelinkRoute]
    split
    · simp
    · split
      · simp
      · split
        · split <;> simp
        · exact serving

/-- Everything there is to say about a packet that is given a number, and about the node then. -/
theorem numbered?_eq_some {packet : Packet} {hint : String} {route : Route} {unit : DeferredSdu}
    (found : p.numbered? directory timers packet hint = some (q, route, unit)) :
    let profile := p.settings.profiles.classify hint
    let direction := (p.view directory).direction p.role packet
    DeliveryMode.ofCode? profile.modeCode.toNat = some unit.mode ∧ (p.view directory).route p.role packet = .ok route ∧
      ∃ anew flows entity,
        p.flows.lookupOrCreate (.ofEndpoints packet.endpoints direction) = some (unit.lcid, anew, flows) ∧
        ((p.convergence.get? unit.lcid).getD (.new unit.lcid p.settings.compression)).next? = some (unit.sn, entity) ∧
        unit.sdu = (entity.compress ⟨unit.sn, packet.headers, none, packet.payload⟩).encode ∧
        unit.recipients = route.recipients ∧
        q = { p.noted timers.now with
          flows :=
            (if anew || !flows.descriptors.contains unit.lcid
              then flows.setDescriptor (p.describe unit.lcid profile direction route) else flows).modifyDescriptor
              unit.lcid fun d => { d with path := route.path, lastSn := some unit.sn }
          convergence := p.convergence.insert unit.lcid entity } := by
  simp only [numbered?, noted_eq] at found
  split at found
  · rename_i mode route' decoded routed
    split at found
    · cases found
    · rename_i lcid anew flows created
      split at found
      · cases found
      · rename_i sn entity r numbered
        obtain ⟨next, rfl⟩ := number_eq_some_iff.1 numbered
        obtain ⟨rfl, rfl, rfl⟩ : _ ∧ _ ∧ _ := by simpa only [Option.some.injEq, Prod.mk.injEq] using found
        exact ⟨decoded, routed, anew, flows, entity, created, next, rfl, rfl, rfl⟩
  · cases found

/-- What becomes of a packet that is not given a number, and why. The packet is counted, and nothing else is left of
it. -/
inductive Rejection (p : DataPlane) (directory : Directory) (timers : Timers) (packet : Packet) (hint : String) :
    Submission → Prop
  | unknownMode (unknown : DeliveryMode.ofCode? (p.settings.profiles.classify hint).modeCode.toNat = none) :
      Rejection p directory timers packet hint
        ⟨.error (.fault (.unknownMode (p.settings.profiles.classify hint).modeCode hint)), p.noted timers.now, timers⟩
  | routeless {mode : DeliveryMode} {reason : DropReason}
      (known : DeliveryMode.ofCode? (p.settings.profiles.classify hint).modeCode.toNat = some mode)
      (unrouted : (p.view directory).route p.role packet = .error reason) :
      Rejection p directory timers packet hint
        ⟨.ok ⟨(p.flows.lookup? (.ofEndpoints packet.endpoints
            ((p.view directory).direction p.role packet))).getD .notFound, none, .dropped reason⟩,
          (p.noted timers.now).count fun c => { c with routingDrops := c.routingDrops + 1 }, timers⟩
  | exhausted {mode : DeliveryMode} {route : Route}
      (known : DeliveryMode.ofCode? (p.settings.profiles.classify hint).modeCode.toNat = some mode)
      (routed : (p.view directory).route p.role packet = .ok route)
      (full : p.flows.lookupOrCreate (.ofEndpoints packet.endpoints
        ((p.view directory).direction p.role packet)) = none) :
      Rejection p directory timers packet hint ⟨.error (.fault .lcidsExhausted), p.noted timers.now, timers⟩
  | numberless {mode : DeliveryMode} {route : Route} {given : Lcid × Bool × FlowTable}
      (known : DeliveryMode.ofCode? (p.settings.profiles.classify hint).modeCode.toNat = some mode)
      (routed : (p.view directory).route p.role packet = .ok route)
      (created : p.flows.lookupOrCreate (.ofEndpoints packet.endpoints
        ((p.view directory).direction p.role packet)) = some given) :
      Rejection p directory timers packet hint ⟨.error .numbersExhausted, p.noted timers.now, timers⟩

theorem rejection_of_unnumbered {packet : Packet} {hint : String}
    (missing : p.numbered? directory timers packet hint = none) :
    p.Rejection directory timers packet hint (p.submit directory timers packet hint) := by
  simp only [numbered?, noted_eq] at missing
  simp only [submit, noted_eq]
  cases known : DeliveryMode.ofCode? ((p.noted timers.now).settings.profiles.classify hint).modeCode.toNat with
  | none => exact .unknownMode known
  | some mode =>
    simp only
    cases routed : ((p.noted timers.now).view directory).route (p.noted timers.now).role packet with
    | error reason => exact .routeless known routed
    | ok route =>
      rw [known, routed] at missing
      simp only [send] at missing ⊢
      cases created : (p.noted timers.now).flows.lookupOrCreate
          (.ofEndpoints packet.endpoints
            (((p.noted timers.now).view directory).direction (p.noted timers.now).role packet)) with
      | none => exact .exhausted known routed created
      | some given =>
        obtain ⟨lcid, anew, flows⟩ := given
        rw [created] at missing
        simp only at missing ⊢
        generalize (if anew || !flows.descriptors.contains lcid then
          flows.setDescriptor ((p.noted timers.now).describe lcid _ _ route) else flows) = table at missing ⊢
        cases numbered : DataPlane.number { p.noted timers.now with flows := table } lcid with
        | none => exact .numberless known routed created
        | some answer =>
          rw [numbered] at missing
          cases missing

/-- A packet is either not given a number, or is given one and sent on its way. -/
theorem submit_spec (p : DataPlane) (directory : Directory) (timers : Timers) (packet : Packet) (hint : String) :
    (p.numbered? directory timers packet hint = none ∧
        Unnumbered p timers (p.submit directory timers packet hint)) ∨
      ∃ q route unit, p.numbered? directory timers packet hint = some (q, route, unit) ∧
        Numbered p directory packet q route.way unit ∧
        p.submit directory timers packet hint =
          let (outcome, plane, timers) := q.sendOn directory timers route unit
          ⟨.ok ⟨unit.lcid, some unit.sn, outcome⟩, plane, timers⟩ := by
  have alike := alike_noted p timers.now
  have switches : (p.noted timers.now).switches = p.switches := rfl
  simp only [submit, numbered?, noted_eq]
  generalize p.noted timers.now = q at alike switches ⊢
  cases DeliveryMode.ofCode? (q.settings.profiles.classify hint).modeCode.toNat with
  | none => exact Or.inl ⟨rfl, alike, switches, rfl, fun dispatch answered => by cases answered⟩
  | some mode =>
    simp only
    cases routed : (q.view directory).route q.role packet with
    | error reason =>
      refine Or.inl ⟨rfl, alike.trans (by constructor <;> rfl), switches, rfl, fun dispatch answered => ?_⟩
      obtain rfl := Except.ok.inj answered
      refine ⟨rfl, reason, rfl, ?_⟩
      rintro rfl
      exact route_ne_queueFull _ _ _ routed
    | ok route =>
      simp only [send]
      cases created : q.flows.lookupOrCreate
          (.ofEndpoints packet.endpoints ((q.view directory).direction q.role packet)) with
      | none => exact Or.inl ⟨rfl, alike, switches, rfl, fun dispatch answered => by cases answered⟩
      | some answer =>
        obtain ⟨lcid, new, flows⟩ := answer
        simp only
        generalize tableIs : (if new || !flows.descriptors.contains lcid then
          flows.setDescriptor (q.describe lcid (q.settings.profiles.classify hint)
            ((q.view directory).direction q.role packet) route) else flows) = table
        have lcids : table.lcids = flows.lcids := by
          rw [← tableIs]
          split <;> rfl
        have next : table.next = flows.next := by
          rw [← tableIs]
          split <;> rfl
        cases numbered : { q with flows := table }.number lcid with
        | none => exact Or.inl ⟨rfl, alike, switches, rfl, fun dispatch answered => by cases answered⟩
        | some answer =>
          obtain ⟨sn, entity, r⟩ := answer
          obtain ⟨issued, rfl⟩ := number_eq_some_iff.1 numbered
          refine Or.inr ⟨_, _, _, rfl, ⟨?_, alike.links, alike.buffers, switches, ?_, entity, ?_, rfl⟩, ?_⟩
          · let first : DataPlane := { q with flows, convergence := q.convergence.insert lcid entity }
            have issue : Change directory ⟨q, []⟩ _ _ := .issue mode routed
              (show q.flows.create _ = some (lcid, flows) by rw [FlowTable.create, created]; rfl)
              (number_eq_some_iff.2 ⟨issued, rfl⟩ : DataPlane.number { q with flows } lcid = some (sn, entity, first))
            refine .before (.quiet alike) ((Chain.single issue).andThen (.quiet ?_))
            exact ⟨rfl, rfl, rfl, lcids, next, rfl, rfl, rfl, rfl, rfl⟩
          · have way := RoutingView.way_of_route routed
            rw [view, alike.node, alike.role] at way
            exact way
          · exact SortedMap.get?_insert_self _ _ _
          · unfold sendOn
            cases route.peer <;> rfl

/-- The unit of a numbered packet is what the packet makes under its number. -/
theorem Numbered.sdu_eq {node : NodeId} {settings : PlaneSettings} {hs : List Effect} {packet : Packet} {way : Way}
    {unit : DeferredSdu} (numbered : Numbered p directory packet q way unit) (sound : Sound node settings hs ⟨p, []⟩) :
    unit.sdu = packet.unit settings.compression unit.sn := by
  obtain ⟨entity, known, made⟩ := numbered.made
  have after := numbered.chain.invariant (fun _ change sound => sound_change change sound) sound
  rw [made, ConvergenceEntity.compress_eq_of_settings (b := .new .control settings.compression)
    (after.accounts.entity known).1]
  rfl

end DataPlane
end Sidelink
