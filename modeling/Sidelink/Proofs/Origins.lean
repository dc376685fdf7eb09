import Sidelink.Proofs.Boarding

/-!
Where the units come from that leave for a buffer. Units that wait for a peer were put there when their packets were
submitted, and leave when a switch of that peer ends (`Draws`). So every unit that leaves in a run waited for its peer
before, or is the unit of a packet of the run (`Numbering`) or of control traffic (`DataPlane.origin_run`). It goes where
the path of its peer leads at that point (`Boarding.Led`).
-/
namespace Sidelink

/-! ## Units that wait -/

/-- Whether no unit waits later that did not before, and those that are released waited for that peer. -/
structure Draws (s : PathSwitches) (es : List SwitchCompletion) (t : PathSwitches) : Prop where
  waiting : ∀ {peer unit}, unit ∈ t.deferred peer → unit ∈ s.deferred peer
  released : ∀ done ∈ es, ∀ unit ∈ done.deferred, unit ∈ s.deferred done.peer

namespace Draws
variable {s t u : PathSwitches} {es fs : List SwitchCompletion}

theorem of_fewer (waiting : ∀ {peer unit}, unit ∈ t.deferred peer → unit ∈ s.deferred peer) : Draws s [] t :=
  ⟨waiting, fun done member => by cases member⟩

theorem refl (s : PathSwitches) : Draws s [] s := of_fewer id

theorem trans (first : Draws s es t) (second : Draws t fs u) : Draws s (es ++ fs) u where
  waiting := fun waits => first.waiting (second.waiting waits)
  released := fun done member unit waited => by
    rcases List.mem_append.1 member with early | late
    · exact first.released done early unit waited
    · exact first.waiting (second.released done late unit waited)

theorem of_setPhase (s : PathSwitches) (peer : NodeId) (phase : SwitchPhase) : Draws s [] (s.setPhase peer phase) :=
  of_fewer fun waits => by rwa [PathSwitches.deferred_setPhase] at waits

theorem of_complete (s : PathSwitches) (links : PeerLinks) (buffers : TransmitBuffers) (timers : Timers)
    (peer : NodeId) (path : Path) :
    Draws s [⟨peer, path, s.deferred peer⟩] (s.complete links buffers timers peer path).switches where
  waiting := fun {other unit} waits => by
    rw [PathSwitches.deferred_insert (s := s) rfl] at waits
    split at waits
    · cases waits
    · exact waits
  released := fun done member unit waited => by
    obtain rfl := List.mem_singleton.1 member
    exact waited

theorem of_looked {links : PeerLinks} {buffers : TransmitBuffers} {timers : Timers} {peer : NodeId} {step : SwitchStep}
    (looked : s.Looked links buffers timers peer step) : Draws s step.completion.toList step.switches := by
  cases looked with
  | calm still => exact .refl s
  | waits switching draining => exact .refl s
  | asks switching draining => exact .of_setPhase s _ _
  | ends switching drained => exact .of_complete s _ _ _ _ _

theorem of_start (s : PathSwitches) (links : PeerLinks) (buffers : TransmitBuffers) (timers : Timers)
    (peer : NodeId) (path : Path) (clear : Bool) :
    Draws s (s.start links buffers timers peer path clear).completion.toList
      (s.start links buffers timers peer path clear).switches := by
  have begun : Draws s [] (s.begun peer path) :=
    of_fewer fun waits => PathSwitches.deferred_setPhase s peer (.switching path none) _ ▸ waits
  rw [PathSwitches.start_eq]
  cases clear with
  | true =>
    simp only [if_true]
    generalize discarded : (PathSwitches.counters (s.begun peer path)).discarded + _ = n
    have counted : Draws (s.begun peer path) []
        { s.begun peer path with counters := { (s.begun peer path).counters with discarded := n } } := of_fewer id
    exact (begun.trans counted).trans (of_complete _ links _ _ peer path)
  | false => exact begun.trans (of_looked (PathSwitches.looked_reevaluate _ links _ _ peer))

theorem of_checkFired (s : PathSwitches) (links : PeerLinks) (buffers : TransmitBuffers) (timers : Timers)
    (peer : NodeId) :
    Draws s (s.checkFired links buffers timers peer).completion.toList
      (s.checkFired links buffers timers peer).switches := by
  rcases s.checkFired_eq links buffers timers peer with ⟨-, same⟩ | ⟨target, check, -, looks⟩
  · rw [same]
    exact .refl s
  · rw [looks]
    exact (of_setPhase s peer (.switching target none)).trans
      (of_looked (PathSwitches.looked_reevaluate _ links buffers timers peer))

end Draws

namespace DataPlane
variable {p q : DataPlane} {directory : Directory} {timers : Timers}

theorem draws_applyStep {step : SwitchStep} (draws : Draws p.switches step.completion.toList step.switches) :
    Draws p.switches ((p.ended directory step).map Ending.done) (p.applyStep directory step).1.switches := by
  rw [switches_applyStep, done_ended]
  exact draws

theorem draws_endingsOf (p : DataPlane) (directory : Directory) (timers : Timers) (peers : List NodeId) :
    Draws p.switches ((p.endingsOf directory timers peers).map Ending.done)
      (peers.foldl (fun (p, timers) peer => p.reevaluate directory timers peer) (p, timers)).1.switches := by
  induction peers generalizing p timers with
  | nil => exact .refl _
  | cons peer rest ih =>
    simp only [endingsOf, List.map_append, List.foldl_cons]
    exact (draws_applyStep (.of_looked (PathSwitches.looked_reevaluate _ _ _ _ _))).trans (ih _ _)

/-- A unit that is sent on its way is the only one that may wait now and did not before. -/
theorem waiting_sendOn (p : DataPlane) (directory : Directory) (timers : Timers) (route : Route) (unit : DeferredSdu)
    {peer : NodeId} {other : DeferredSdu}
    (waits : other ∈ (p.sendOn directory timers route unit).2.1.switches.deferred peer) :
    other ∈ p.switches.deferred peer ∨ other = unit ∧ route.way = .toPeer peer := by
  unfold sendOn at waits
  cases peerIs : route.peer with
  | none =>
    rw [peerIs] at waits
    have same := switches_offer p route.nextHop route.path unit
    simp only [same] at waits
    exact Or.inl waits
  | some own =>
    have looked {unit : DeferredSdu} (waits : unit ∈ (p.reevaluate directory timers own).1.switches.deferred peer) :
        unit ∈ p.switches.deferred peer := (draws_endingsOf p directory timers [own]).waiting waits
    rw [peerIs] at waits
    simp only [sendToPeer] at waits
    generalize (p.reevaluate directory timers own).1 = q at looked waits
    split at waits
    · have deferred : other ∈ (q.switches.defer own unit).2.deferred peer := by
        split at waits <;> exact waits
      unfold PathSwitches.defer at deferred
      split at deferred
      · exact Or.inl (looked deferred)
      · rename_i state found
        split at deferred
        · exact Or.inl (looked deferred)
        · have waited := PathSwitches.deferred_waited (s := q.switches) found unit peer
          change other ∈ (q.switches.setEntry own _).deferred peer at deferred
          rw [waited] at deferred
          split at deferred
          · rename_i same
            rcases List.mem_append.1 deferred with before | new
            · exact Or.inl (looked (same ▸ before))
            · exact Or.inr ⟨List.mem_singleton.1 new, by rw [Route.way, peerIs, same]⟩
          · exact Or.inl (looked deferred)
    · split at waits
      · exact Or.inl (looked waits)
      · rename_i hop _
        let linked : DataPlane := { q with links := q.links.add own ⟨hop, unit.lcid⟩ }
        have same := switches_offer linked hop (q.switches.currentPath own) unit
        simp only at waits
        rw [same] at waits
        exact Or.inl (looked waits)

end DataPlane

/-! ## Packets that are numbered -/

/-- A packet that is given a number, with its route and its unit. -/
structure Numbering where
  packet : Packet
  hint : String
  route : Route
  unit : DeferredSdu

namespace DataPlane
variable {p q : DataPlane} {directory : Directory} {timers : Timers}

/-- The packet that is given a number at a moment. -/
def numberingsAt (p : DataPlane) (m : Moment) : List Numbering :=
  match m.stimulus with
  | .packet packet hint =>
    (p.numbered? m.directory m.timers packet hint).toList.map fun (_, route, unit) => ⟨packet, hint, route, unit⟩
  | _ => []

/-- The packets that are given numbers in a run, in order. -/
def numberings (p : DataPlane) (ms : List Moment) : List Numbering := p.collect numberingsAt ms

theorem numberings_append (p : DataPlane) (ms ns : List Moment) :
    p.numberings (ms ++ ns) = p.numberings ms ++ (p.after ms).numberings ns := collect_append _ p ms ns

theorem mem_numberingsAt {m : Moment} {n : Numbering} (member : n ∈ p.numberingsAt m) :
    m.stimulus = .packet n.packet n.hint ∧
      ∃ q, p.numbered? m.directory m.timers n.packet n.hint = some (q, n.route, n.unit) := by
  obtain ⟨directory, timers, stimulus⟩ := m
  cases stimulus with
  | packet packet hint =>
    obtain ⟨⟨q, route, unit⟩, found, rfl⟩ := List.mem_map.1 member
    exact ⟨rfl, q, Option.mem_toList.1 found⟩
  | control | opportunity | drainCheck | pathSwitch | peerDeparted | departed | arrival => cases member

/-- A packet of a run that is given a number goes the way of its endpoints at that moment, in the mode that its hint
stands for. -/
theorem mem_numberings {ms : List Moment} {n : Numbering} (member : n ∈ p.numberings ms) :
    (∃ m ∈ ms, m.directory.way? p.node p.role n.packet.endpoints = some n.route.way) ∧
      DeliveryMode.ofCode? (p.settings.profiles.classify n.hint).modeCode.toNat = some n.unit.mode := by
  induction ms generalizing p with
  | nil => cases member
  | cons m rest ih =>
    simp only [numberings, collect, List.mem_append] at member
    rcases member with now | later
    · obtain ⟨-, q, found⟩ := mem_numberingsAt now
      refine ⟨⟨m, List.mem_cons_self, ?_⟩, (numbered?_eq_some found).1⟩
      rcases submit_spec p m.directory m.timers n.packet n.hint with ⟨missing, -⟩ | ⟨r, route, unit, same, numbered, -⟩
      · rw [missing] at found
        cases found
      · rw [same] at found
        obtain ⟨rfl, rfl, rfl⟩ : r = q ∧ route = n.route ∧ unit = n.unit := by
          simpa only [Option.some.injEq, Prod.mk.injEq] using found
        exact numbered.way
    · obtain ⟨node, role, settings⟩ := fixed_react p m
      obtain ⟨⟨m', there, way⟩, mode⟩ := ih later
      rw [node, role] at way
      rw [settings] at mode
      exact ⟨⟨m', List.mem_cons_of_mem _ there, way⟩, mode⟩

/-- What waits after a moment did so before, or is the unit of a packet that was submitted then. -/
theorem waiting_react {m : Moment} {peer : NodeId} {unit : DeferredSdu}
    (waits : unit ∈ (p.react m).plane.switches.deferred peer) :
    unit ∈ p.switches.deferred peer ∨ ∃ n ∈ p.numberingsAt m, n.unit = unit ∧ n.route.way = .toPeer peer := by
  obtain ⟨directory, timers, stimulus⟩ := m
  cases stimulus with
  | packet packet hint =>
    simp only [react, numberingsAt] at waits ⊢
    rcases submit_spec p directory timers packet hint with
      ⟨missing, unnumbered⟩ | ⟨q, route, own, found, numbered, sent⟩
    · rw [unnumbered.switches] at waits
      exact Or.inl waits
    · rw [sent] at waits
      rw [found, ← numbered.switches]
      refine (waiting_sendOn q directory timers route own waits).imp_right ?_
      rintro ⟨rfl, way⟩
      exact ⟨_, List.mem_singleton.2 rfl, rfl, way⟩
  | control payload =>
    simp only [react, (switches_submitControl p directory timers payload).1] at waits
    exact Or.inl waits
  | opportunity limit =>
    rw [← switches_transmit p timers.now limit]
    exact Or.inl ((draws_endingsOf _ directory timers _).waiting waits)
  | drainCheck peer =>
    rw [← switches_advance p timers.now]
    exact Or.inl ((draws_applyStep (.of_checkFired _ _ _ _ _)).waiting waits)
  | pathSwitch peer path clear =>
    simp only [react, switchPath, switches_replaceReceivers] at waits
    rw [← switches_advance p timers.now]
    exact Or.inl ((draws_applyStep (.of_start _ _ _ _ _ _ _)).waiting waits)
  | peerDeparted peer => exact Or.inl waits
  | departed => cases waits
  | arrival frame =>
    simp only [react, switches_deliver] at waits
    exact Or.inl waits

/-- The units that a switch releases waited for its peer. -/
theorem released_endingsAt {m : Moment} {e : Ending} (member : e ∈ p.endingsAt m) {unit : DeferredSdu}
    (waited : unit ∈ e.done.deferred) : unit ∈ p.switches.deferred e.done.peer := by
  have from_ {s t : PathSwitches} {es : List Ending} (draws : Draws s (es.map Ending.done) t) (same : s = p.switches)
      (here : e ∈ es) : unit ∈ p.switches.deferred e.done.peer :=
    same ▸ draws.released e.done (List.mem_map_of_mem here) unit waited
  obtain ⟨directory, timers, stimulus⟩ := m
  cases stimulus with
  | packet packet hint =>
    simp only [endingsAt] at member
    rcases submit_spec p directory timers packet hint with ⟨missing, -⟩ | ⟨q, route, own, found, numbered, -⟩
    · rw [missing] at member
      cases member
    · rw [found] at member
      exact from_ (draws_endingsOf q directory timers _) numbered.switches member
  | opportunity limit =>
    exact from_ (draws_endingsOf _ directory timers _) (switches_transmit p timers.now limit) member
  | drainCheck peer =>
    exact from_ (draws_applyStep (.of_checkFired _ _ _ _ _)) (switches_advance p timers.now) member
  | pathSwitch peer path clear =>
    exact from_ (draws_applyStep (.of_start _ _ _ _ _ _ _)) (switches_advance p timers.now) member
  | control | peerDeparted | departed | arrival => cases member

/-! ## Units that leave -/

/-- Everything that may be told of a unit which leaves for a peer when others are sent before it. -/
theorem mem_leavingAll {peer : NodeId} {path : Path} {nextHop : Option NodeId} {units : List DeferredSdu}
    {x : Boarding} (still : p.switches.isSwitching peer = false) (current : path = p.switches.currentPath peer)
    (leads : (p.view directory).nextHop? peer path = nextHop)
    (member : x ∈ p.leavingAll directory peer path nextHop units) :
    x.unit ∈ units ∧ x.way = .toPeer peer ∧ x.directory = directory ∧ x.plane.node = p.node ∧
      x.plane.Leads directory x.hop x.path x.way := by
  induction units generalizing p with
  | nil => cases member
  | cons d rest ih =>
    rw [leavingAll, List.mem_append] at member
    rcases member with own | later
    · cases nextHop with
      | none => cases own
      | some hop =>
        obtain rfl := List.mem_singleton.1 own
        exact ⟨List.mem_cons_self, rfl, rfl, rfl, still, current, leads⟩
    · have switches := switches_flush p peer path nextHop d
      have node := (outbound_flush p peer path nextHop d).node
      obtain ⟨unit, way, same, nodeIs, leading⟩ :=
        ih (by rw [switches]; exact still) (by rw [switches]; exact current)
          ((nextHop?_congr directory node peer path).trans leads) later
      exact ⟨List.mem_cons_of_mem _ unit, way, same, nodeIs.trans node, leading⟩

end DataPlane

/-- Whether a unit goes where its way leads from a node. -/
structure Boarding.Led (x : Boarding) (node : NodeId) (directory : Directory) : Prop where
  directory : x.directory = directory
  node : x.plane.node = node
  leads : x.plane.Leads x.directory x.hop x.path x.way

/-- Whether a unit is control traffic with some payload. -/
structure DeferredSdu.IsControl (unit : DeferredSdu) (payload : Bytes) : Prop where
  lcid : unit.lcid = .control
  mode : unit.mode = .transparent
  sdu : unit.sdu = (ConvergencePdu.mk unit.sn .bare none payload).encode

/-- Where a unit comes from that leaves: it waited for its peer, or is that of a packet or of control traffic. -/
inductive Boarding.Origin (s : PathSwitches) (ns : List Numbering) (ms : List Moment) (x : Boarding) : Prop
  | waited {peer : NodeId} (way : x.way = .toPeer peer) (waits : x.unit ∈ s.deferred peer)
  | packet {n : Numbering} (numbered : n ∈ ns) (unit : n.unit = x.unit) (way : n.route.way = x.way)
  | control {m : Moment} {payload : Bytes} {serving : NodeId} (member : m ∈ ms)
      (submitted : m.stimulus = .control payload) (unit : x.unit.IsControl payload)
      (way : x.way = .toHop serving .infrastructure)

namespace DataPlane
variable {p q : DataPlane} {directory : Directory} {timers : Timers} {x : Boarding}

/-- A unit that a switch releases goes to its peer on the new path. -/
theorem mem_leaving_ending {m : Moment} {e : Ending} (ends : e ∈ p.endingsAt m) (member : x ∈ e.leaving) :
    x.Led p.node m.directory ∧ x.way = .toPeer e.done.peer ∧ x.unit ∈ p.switches.deferred e.done.peer := by
  obtain ⟨same, q, tasks, effects, chain, comes⟩ := reaches_endingsAt ends
  have still : e.released.switches.isSwitching e.done.peer = false := by
    refine (PathSwitches.isSwitching_congr comes.plane.peers e.done.peer).trans ?_
    simp [switched, PathSwitches.isSwitching, PathSwitches.phase]
  have current : e.done.path = e.released.switches.currentPath e.done.peer := by
    have paths : e.released.switches.paths = (q.switched e.done.peer e.done.path).switches.paths := comes.plane.paths
    simp [PathSwitches.currentPath, paths, switched]
  obtain ⟨unit, way, directory, node, leads⟩ := mem_leavingAll still current rfl member
  have there : e.released.node = p.node := comes.plane.node.trans chain.fixed.1
  exact ⟨⟨directory.trans same, node.trans there, directory ▸ leads⟩, way, released_endingsAt ends unit⟩

theorem mem_leaving {route : Route} {unit : DeferredSdu} (member : x ∈ p.leaving directory timers route unit) :
    x.Led p.node directory ∧ x.unit = unit ∧ x.way = route.way := by
  unfold leaving at member
  unfold Route.way
  cases peerIs : route.peer with
  | none =>
    rw [peerIs] at member
    obtain rfl := List.mem_singleton.1 member
    exact ⟨⟨rfl, rfl, rfl, rfl⟩, rfl, rfl⟩
  | some peer =>
    have node := (outbound_reevaluate p directory timers peer).node
    rw [peerIs] at member
    simp only at member
    generalize (p.reevaluate directory timers peer).1 = q at node member
    split at member
    · cases member
    · rename_i still
      obtain ⟨hop, leads, rfl⟩ := List.mem_map.1 member
      exact ⟨⟨rfl, node, Bool.not_eq_true _ ▸ still, rfl, Option.mem_toList.1 leads⟩, rfl, rfl⟩

theorem mem_leavingControl {payload : Bytes} (member : x ∈ p.leavingControl directory payload) :
    x.Led p.node directory ∧ x.unit.IsControl payload ∧ ∃ serving, x.way = .toHop serving .infrastructure := by
  unfold leavingControl at member
  split at member
  · cases member
  · rename_i serving _
    split at member
    · cases member
    · rename_i sn entity q numbered
      obtain ⟨-, rfl⟩ := number_eq_some_iff.1 numbered
      obtain rfl := List.mem_singleton.1 member
      exact ⟨⟨rfl, rfl, rfl, rfl⟩, ⟨rfl, rfl, rfl⟩, serving, rfl⟩

/-- A unit that leaves at a moment goes where its way leads, and waited before or is of what was submitted then. -/
theorem origin_boardingsAt {m : Moment} (member : x ∈ p.boardingsAt m) :
    x.Led p.node m.directory ∧ x.Origin p.switches (p.numberingsAt m) [m] := by
  rcases List.mem_append.1 member with released | own
  · obtain ⟨e, ends, here⟩ := List.mem_flatMap.1 released
    obtain ⟨led, way, waits⟩ := mem_leaving_ending ends here
    exact ⟨led, .waited way waits⟩
  · obtain ⟨directory, timers, stimulus⟩ := m
    cases stimulus with
    | packet packet hint =>
      simp only [leavingAt] at own
      rcases submit_spec p directory timers packet hint with ⟨missing, -⟩ | ⟨q, route, unit, found, numbered, -⟩
      · rw [missing] at own
        cases own
      · rw [found] at own
        obtain ⟨⟨same, node, leads⟩, unitIs, way⟩ := mem_leaving own
        have known : (⟨packet, hint, route, unit⟩ : Numbering) ∈
            p.numberingsAt ⟨directory, timers, .packet packet hint⟩ := by
          simp only [numberingsAt, found]
          exact List.mem_singleton.2 rfl
        exact ⟨⟨same, node.trans numbered.chain.fixed.1, leads⟩, .packet known unitIs.symm way.symm⟩
    | control payload =>
      obtain ⟨⟨same, node, leads⟩, control, serving, way⟩ := mem_leavingControl own
      exact ⟨⟨same, node.trans (alike_advance p timers.now).node, leads⟩,
        .control List.mem_cons_self rfl control way⟩
    | opportunity | drainCheck | pathSwitch | peerDeparted | departed | arrival => cases own

/-- What waits after a run did so before, or is the unit of a packet of the run. -/
theorem waiting_run {ms : List Moment} {peer : NodeId} {unit : DeferredSdu}
    (waits : unit ∈ (p.after ms).switches.deferred peer) :
    unit ∈ p.switches.deferred peer ∨ ∃ n ∈ p.numberings ms, n.unit = unit ∧ n.route.way = .toPeer peer := by
  induction ms generalizing p with
  | nil => exact Or.inl waits
  | cons m rest ih =>
    simp only [numberings, collect, List.mem_append]
    rcases ih waits with here | ⟨n, member, own⟩
    · refine (waiting_react here).imp_right ?_
      rintro ⟨n, member, own⟩
      exact ⟨n, Or.inl member, own⟩
    · exact Or.inr ⟨n, Or.inr member, own⟩

/-- A unit that leaves in a run goes where its way leads at that moment, and waited before the run or is of what was
submitted in it. -/
theorem origin_run {ms : List Moment} (member : x ∈ p.boardings ms) :
    (∃ m ∈ ms, x.Led p.node m.directory) ∧ x.Origin p.switches (p.numberings ms) ms := by
  induction ms generalizing p with
  | nil => cases member
  | cons m rest ih =>
    simp only [boardings, numberings, collect, List.mem_append] at member ⊢
    rcases member with now | later
    · obtain ⟨led, origin⟩ := origin_boardingsAt now
      refine ⟨⟨m, List.mem_cons_self, led⟩, ?_⟩
      cases origin with
      | waited way waits => exact .waited way waits
      | packet numbered unit way => exact .packet (List.mem_append_left _ numbered) unit way
      | control one submitted unit way =>
        obtain rfl := List.mem_singleton.1 one
        exact .control List.mem_cons_self submitted unit way
    · obtain ⟨⟨n, there, led⟩, origin⟩ := ih later
      rw [(fixed_react p m).1] at led
      refine ⟨⟨n, List.mem_cons_of_mem _ there, led⟩, ?_⟩
      cases origin with
      | waited way waits =>
        rcases waiting_react waits with before | ⟨n, numbered, unit, route⟩
        · exact .waited way before
        · exact .packet (List.mem_append_left _ numbered) unit (route.trans way.symm)
      | packet numbered unit way => exact .packet (List.mem_append_right _ numbered) unit way
      | control there submitted unit way => exact .control (List.mem_cons_of_mem _ there) submitted unit way

/-! ## Numbers -/

/-- A packet is numbered exactly if its dispatch has a number. -/
theorem numbered_numberingsAt (p : DataPlane) (m : Moment) :
    (p.numberingsAt m).map (fun n => (n.packet, n.unit.lcid, n.unit.sn)) =
      (p.react m).dispatched.filterMap Dispatch.numbered? := by
  obtain ⟨directory, timers, stimulus⟩ := m
  cases stimulus with
  | packet packet hint =>
    simp only [numberingsAt, react, Submission.dispatched]
    rcases submit_spec p directory timers packet hint with ⟨missing, unnumbered⟩ | ⟨q, route, unit, found, -, sent⟩
    · rw [missing]
      cases result : (p.submit directory timers packet hint).result with
      | error cause => rfl
      | ok dispatch => simp [Dispatch.numbered?, (unnumbered.outcome dispatch result).1]
    · rw [found, sent]
      rfl
  | control | opportunity | drainCheck | pathSwitch | peerDeparted | departed | arrival => rfl

theorem numbered_numberings (p : DataPlane) (ms : List Moment) :
    (p.numberings ms).map (fun n => (n.packet, n.unit.lcid, n.unit.sn)) =
      (p.dispatched ms).filterMap Dispatch.numbered? := by
  induction ms generalizing p with
  | nil => rfl
  | cons m rest ih =>
    simp only [numberings, dispatched, collect, List.map_append, List.filterMap_append, numbered_numberingsAt]
    exact congrArg (_ ++ ·) (ih _)

/-- Control traffic apart, the connections of units are those of packets. -/
theorem traffic_of_numberings {node : NodeId} {settings : PlaneSettings} {hs : List Effect}
    (sound : Sound node settings hs ⟨p, []⟩) {ms : List Moment} {n : Numbering} (member : n ∈ p.numberings ms) :
    n.unit.lcid ≠ .control := by
  obtain ⟨effects, chain, ⟨issued, -, -⟩, -⟩ := p.run_chain ms
  have later := (chain.invariant (fun _ change sound => sound_change change sound) sound).accounts
  have given : (n.packet, n.unit.lcid, n.unit.sn) ∈ issuedOf (hs ++ effects) := by
    rw [issuedOf_append, issued, ← numbered_numberings]
    exact List.mem_append_right _ (List.mem_map_of_mem member)
  exact (later.issued given).1

section
variable {node : NodeId} {role : Role} {settings : PlaneSettings}

theorem idle_new (made : new node role settings = .ok p) (peer : NodeId) : p.switches.deferred peer = [] := by
  obtain ⟨-, rfl⟩ := eq_of_new made
  rfl

/-- A unit of a packet goes the way of its packet. -/
theorem numbered_of_boarding (made : new node role settings = .ok p) {ms : List Moment} {x : Boarding}
    (member : x ∈ p.boardings ms) (traffic : x.unit.lcid ≠ .control) :
    ∃ n ∈ p.numberings ms, n.unit = x.unit ∧ n.route.way = x.way := by
  cases (origin_run member).2 with
  | waited way waits =>
    rw [idle_new made] at waits
    cases waits
  | packet numbered unit way => exact ⟨_, numbered, unit, way⟩
  | control there submitted unit way => exact absurd unit.lcid traffic

end

end DataPlane
end Sidelink
