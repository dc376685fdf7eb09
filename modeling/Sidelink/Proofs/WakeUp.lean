import Sidelink.Proofs.Checks
import Sidelink.Proofs.Gates

/-!
No switch is forgotten. A peer that switches is looked at again, since exactly one drain check about it waits in the
calendar; and it is not kept waiting for nothing, since one of its buffers drains whenever the node has dealt with
something (`DataPlane.Busy`). For the latter a look at a peer must not disturb the buffers of others, which holds as
long as no buffer is linked to two peers (`PeerLinks.Apart`).
-/
namespace Sidelink

/-! ## Buffers of different peers -/

/-- Whether no buffer is linked to two peers. -/
def PeerLinks.Apart (l : PeerLinks) : Prop := ∀ {peer other k}, l.Joins peer k → l.Joins other k → peer = other

theorem Gated.apart {d : Directory} {s : Stage} (gated : Gated d s) (valid : s.plane.flows.Valid) :
    s.plane.links.Apart := fun one two =>
  Option.some.inj (DataPlane.belongs_unique valid (gated.links one) (gated.links two))

theorem TransmitBuffers.anyDraining_onKeys {links : PeerLinks} (apart : links.Apart) {buffers : TransmitBuffers}
    (f : TransmitBuffer → TransmitBuffer) {peer other : NodeId} (different : other ≠ peer)
    (draining : anyDraining buffers (links.keys other) = true) :
    anyDraining (onKeys buffers (links.keys peer) f) (links.keys other) = true := by
  rw [anyDraining_eq_true_iff] at draining ⊢
  obtain ⟨k, member, b, found, drains⟩ := draining
  have elsewhere : k ∉ links.keys peer := fun own =>
    different (apart ((PeerLinks.mem_keys_iff _ _ _).1 member) ((PeerLinks.mem_keys_iff _ _ _).1 own))
  refine ⟨k, member, b, ?_, drains⟩
  rw [get?_onKeys, found, Option.map_some, if_neg elsewhere]

namespace PathSwitches
variable {s s' : PathSwitches} {links : PeerLinks} {buffers buffers' : TransmitBuffers} {timers : Timers}
  {peer : NodeId} {step : SwitchStep}

theorem mem_switchingPeers (switching : s.isSwitching peer = true) : peer ∈ s.switchingPeers := by
  refine List.mem_filter.2 ⟨(SortedMap.mem_keys_iff _ _).2 ?_, switching⟩
  rw [SortedMap.contains_eq_true_iff]
  cases known : s.peers.get? peer with
  | none => simp [isSwitching, PathSwitches.phase, known] at switching
  | some state => exact ⟨state, rfl⟩

/-- Whether a step of a switch disturbs no other peer, and leaves no buffer of its own peer to wait for but one that
drains. -/
structure Spares (s : PathSwitches) (links : PeerLinks) (buffers : TransmitBuffers) (peer : NodeId)
    (step : SwitchStep) : Prop where
  switching : ∀ other, other ≠ peer → step.switches.isSwitching other = s.isSwitching other
  draining : ∀ other, other ≠ peer → TransmitBuffers.anyDraining buffers (links.keys other) = true →
    TransmitBuffers.anyDraining step.buffers (links.keys other) = true
  own : step.switches.isSwitching peer = true → TransmitBuffers.anyDraining step.buffers (links.keys peer) = true

theorem Spares.before (spares : s'.Spares links buffers' peer step)
    (switching : ∀ other, other ≠ peer → s'.isSwitching other = s.isSwitching other)
    (draining : ∀ other, other ≠ peer → TransmitBuffers.anyDraining buffers (links.keys other) = true →
      TransmitBuffers.anyDraining buffers' (links.keys other) = true) : s.Spares links buffers peer step where
  switching := fun other different => (spares.switching other different).trans (switching other different)
  draining := fun other different before => spares.draining other different (draining other different before)
  own := spares.own

theorem spares_complete (apart : links.Apart) (path : Path) :
    s.Spares links buffers peer (s.complete links buffers timers peer path) where
  switching := fun other different => isSwitching_insert (s := s) rfl different
  draining := fun other different => TransmitBuffers.anyDraining_onKeys apart _ different
  own := fun switching => by simp [complete, isSwitching, PathSwitches.phase] at switching

theorem spares_looked (apart : links.Apart) (looked : s.Looked links buffers timers peer step) :
    s.Spares links buffers peer step := by
  cases looked with
  | calm still => exact ⟨fun _ _ => rfl, fun _ _ => id, fun switching => absurd switching (Bool.not_eq_true _ ▸ still)⟩
  | waits switching draining => exact ⟨fun _ _ => rfl, fun _ _ => id, fun _ => draining⟩
  | asks switching draining =>
    exact ⟨fun other different => isSwitching_insert rfl different, fun _ _ => id, fun _ => draining⟩
  | ends switching drained => exact spares_complete apart _

theorem spares_start (apart : links.Apart) (path : Path) (clear : Bool) :
    s.Spares links buffers peer (s.start links buffers timers peer path clear) := by
  have begun (other : NodeId) (different : other ≠ peer) :
      (s.begun peer path).isSwitching other = s.isSwitching other :=
    isSwitching_insert rfl different
  have held (other : NodeId) (different : other ≠ peer)
      (draining : TransmitBuffers.anyDraining buffers (links.keys other) = true) :
      TransmitBuffers.anyDraining (TransmitBuffers.onKeys buffers (links.keys peer) TransmitBuffer.hold)
        (links.keys other) = true :=
    TransmitBuffers.anyDraining_onKeys apart _ different draining
  rw [start_eq]
  cases clear with
  | false => exact (spares_looked apart (looked_reevaluate _ _ _ _ _)).before begun held
  | true =>
    refine (spares_complete apart path).before begun fun other different draining => ?_
    exact TransmitBuffers.anyDraining_onKeys apart _ different (held other different draining)

theorem spares_checkFired (apart : links.Apart) :
    s.Spares links buffers peer (s.checkFired links buffers timers peer) := by
  rcases s.checkFired_eq links buffers timers peer with ⟨still, same⟩ | ⟨target, check, -, looks⟩
  · rw [same]
    exact ⟨fun _ _ => rfl, fun _ _ => id, fun switching => absurd switching (Bool.not_eq_true _ ▸ still)⟩
  · rw [looks]
    exact (spares_looked apart (looked_reevaluate _ _ _ _ _)).before
      (fun other different => isSwitching_insert rfl different) fun _ _ => id

end PathSwitches

/-! ## Buffers that drain -/

namespace DataPlane
variable {p q : DataPlane} {directory : Directory} {timers : Timers} {peer : NodeId}

/-- Whether a buffer that is linked to a peer drains. -/
def Drains (p : DataPlane) (peer : NodeId) : Prop :=
  TransmitBuffers.anyDraining p.buffers (p.links.keys peer) = true

/-- Whether every peer that switches, some that are yet to be looked at apart, has a buffer that drains. -/
def Busy (p : DataPlane) (unseen : List NodeId) : Prop :=
  ∀ peer, p.switches.isSwitching peer = true → peer ∈ unseen ∨ p.Drains peer

theorem drains_iff (p : DataPlane) (peer : NodeId) :
    p.Drains peer ↔ ∃ k, p.links.Joins peer k ∧ ∃ b, p.buffers.get? k = some b ∧ b.isDraining = true := by
  simp only [Drains, TransmitBuffers.anyDraining_eq_true_iff, PeerLinks.mem_keys_iff]

theorem Drains.of_same (drains : p.Drains peer) (buffers : q.buffers = p.buffers) (links : q.links = p.links) :
    q.Drains peer := by
  rw [Drains, buffers, links]
  exact drains

theorem Busy.of_same {unseen : List NodeId} (busy : p.Busy unseen) (buffers : q.buffers = p.buffers)
    (links : q.links = p.links) (switching : ∀ peer, q.switches.isSwitching peer = p.switches.isSwitching peer) :
    q.Busy unseen := by
  intro peer switches
  rw [switching] at switches
  exact (busy peer switches).imp_right fun drains => drains.of_same buffers links

theorem Busy.of_alike {unseen : List NodeId} (busy : p.Busy unseen) (alike : Alike p q) : q.Busy unseen :=
  busy.of_same alike.buffers alike.links (PathSwitches.isSwitching_congr alike.peers)

/-- A buffer that drains takes nothing, and goes on draining. -/
theorem isDraining_offer {b : TransmitBuffer} (drains : b.isDraining = true) (sn : UInt32) (sdu : Bytes)
    (recipients : List NodeId) : (b.offer sn sdu recipients).2.isDraining = true := by
  have holds : b.holding = true := by
    simp only [TransmitBuffer.isDraining, Bool.and_eq_true] at drains
    exact drains.1
  unfold TransmitBuffer.offer
  rw [if_pos holds]
  exact drains

theorem drains_offer (drains : p.Drains peer) (hop : NodeId) (path : Path) (d : DeferredSdu) :
    (p.offer hop d.lcid d.sn d.mode path d.sdu d.recipients).2.Drains peer := by
  have alike := alike_offer p hop path d
  refine Drains.of_same (p := p.stored hop path d) ?_ alike.buffers alike.links
  rw [drains_iff] at drains ⊢
  obtain ⟨k, joined, b, found, draining⟩ := drains
  by_cases same : k = ⟨hop, d.lcid⟩
  · subst same
    refine ⟨_, joined, _, SortedMap.get?_insert_self _ _ _, ?_⟩
    rw [bufferFor, found]
    exact isDraining_offer draining _ _ _
  · exact ⟨k, joined, b, (SortedMap.get?_insert_of_ne _ same _).trans found, draining⟩

theorem drains_link (drains : p.Drains peer) (other : NodeId) (key : EntityKey) :
    Drains { p with links := p.links.add other key } peer := by
  rw [drains_iff] at drains ⊢
  obtain ⟨k, joined, there⟩ := drains
  exact ⟨k, (PeerLinks.joins_add _ _ _ _ _).2 (Or.inr joined), there⟩

theorem drains_flush (drains : p.Drains peer) (other : NodeId) (path : Path) (nextHop : Option NodeId)
    (d : DeferredSdu) : (p.flush other path nextHop d).Drains peer := by
  cases nextHop with
  | none => exact drains
  | some hop => exact drains_offer (drains_link drains other ⟨hop, d.lcid⟩) hop path d

theorem drains_applyStep {step : SwitchStep}
    (drains : TransmitBuffers.anyDraining step.buffers (p.links.keys peer) = true) :
    (p.applyStep directory step).1.Drains peer := by
  have flushed (other : NodeId) (path : Path) (nextHop : Option NodeId) (waiting : List DeferredSdu) (q : DataPlane)
      (before : q.Drains peer) : (waiting.foldl (fun p d => p.flush other path nextHop d) q).Drains peer := by
    induction waiting generalizing q with
    | nil => exact before
    | cons d rest ih => exact ih _ (drains_flush before other path nextHop d)
  unfold applyStep
  cases step.completion with
  | none => exact drains
  | some done => exact flushed _ _ _ _ _ drains

/-- A step that spares other peers leaves one peer less to look at. -/
theorem busy_applyStep {step : SwitchStep} {unseen : List NodeId} (busy : p.Busy (peer :: unseen))
    (spares : p.switches.Spares p.links p.buffers peer step) : (p.applyStep directory step).1.Busy unseen := by
  intro other switching
  rw [switches_applyStep] at switching
  by_cases same : other = peer
  · subst same
    exact Or.inr (drains_applyStep (spares.own switching))
  · rw [spares.switching other same] at switching
    rcases busy other switching with member | drains
    · exact Or.inl ((List.mem_cons.1 member).resolve_left same)
    · exact Or.inr (drains_applyStep (spares.draining other same drains))

theorem Busy.mono {unseen more : List NodeId} (busy : p.Busy unseen) (included : ∀ peer ∈ unseen, peer ∈ more) :
    p.Busy more := fun peer switching => (busy peer switching).imp_left (included peer)

section
variable {d : Directory} {node : NodeId} {settings : PlaneSettings} {hs : List Effect} {tasks : List Task}

theorem busy_reevaluate {unseen : List NodeId} (busy : p.Busy (peer :: unseen)) (apart : p.links.Apart) :
    (p.reevaluate directory timers peer).1.Busy unseen :=
  busy_applyStep busy (PathSwitches.spares_looked apart (PathSwitches.looked_reevaluate _ _ _ _ _))

theorem busy_reevaluateAll {unseen : List NodeId} (sound : Sound node settings hs ⟨p, tasks⟩)
    (gated : Gated d ⟨p, tasks⟩) (same : d.SameNodes directory) (busy : p.Busy unseen) :
    (unseen.foldl (fun (p, timers) peer => p.reevaluate directory timers peer) (p, timers)).1.Busy [] := by
  induction unseen generalizing p timers hs with
  | nil => exact busy
  | cons peer rest ih =>
    obtain ⟨soundAfter, gatedAfter⟩ := gated.chain (fun _ is => is ▸ same)
      (reevaluate_chain p directory timers peer tasks) sound
    exact ih soundAfter gatedAfter (busy_reevaluate busy (gated.apart sound.accounts.flows))

theorem busy_sendToPeer (apart : p.links.Apart) (busy : p.Busy []) (unit : DeferredSdu) :
    (p.sendToPeer directory timers peer unit).2.1.Busy [] := by
  have looked : (p.reevaluate directory timers peer).1.Busy [] :=
    busy_reevaluate (busy.mono fun _ member => by cases member) apart
  simp only [sendToPeer]
  generalize (p.reevaluate directory timers peer).1 = q at looked ⊢
  split
  · have waits : Busy { q with switches := (q.switches.defer peer unit).2 } [] :=
      looked.of_same rfl rfl fun other =>
        PathSwitches.isSwitching_of_phase (PathSwitches.phase_defer q.switches peer unit other)
    split <;> exact waits
  · split
    · exact looked
    · rename_i hop _
      let linked : DataPlane := { q with links := q.links.add peer ⟨hop, unit.lcid⟩ }
      intro other switching
      rw [switches_offer linked hop (q.switches.currentPath peer) unit] at switching
      exact (looked other switching).imp_right fun drains => drains_offer (drains_link drains peer _) hop _ unit

theorem busy_sendOn (apart : p.links.Apart) (busy : p.Busy []) (route : Route) (unit : DeferredSdu) :
    (p.sendOn directory timers route unit).2.1.Busy [] := by
  unfold sendOn
  cases route.peer with
  | none =>
    intro other switching
    rw [switches_offer p route.nextHop route.path unit] at switching
    exact (busy other switching).imp_right fun drains => drains_offer drains _ _ unit
  | some peer => exact busy_sendToPeer apart busy unit

theorem busy_submitControl (busy : p.Busy []) (payload : Bytes) :
    (p.submitControl directory timers payload).plane.Busy [] := by
  have before := busy.of_alike (alike_advance p timers.now)
  simp only [submitControl]
  generalize p.advance timers.now = q at before ⊢
  cases directory.serving? q.node with
  | none => exact before
  | some serving =>
    simp only
    cases numbered : q.number .control with
    | none => exact before
    | some answer =>
      obtain ⟨sn, entity, r⟩ := answer
      obtain ⟨-, rfl⟩ := number_eq_some_iff.1 numbered
      intro other switching
      let unit : DeferredSdu :=
        ⟨.control, sn, .transparent, (ConvergencePdu.mk sn .bare none payload).encode, [serving]⟩
      let numbered : DataPlane := { q with convergence := q.convergence.insert .control entity }
      rw [switches_offer numbered serving .infrastructure unit] at switching
      exact (before other switching).imp_right fun drains =>
        drains_offer (p := numbered) drains serving .infrastructure unit

/-- Whenever a node has dealt with something, the peers that switch have buffers that drain, unless buffers are gone
with a peer that departed. -/
theorem busy_react (sound : Sound node settings hs ⟨p, []⟩) (gated : Gated d ⟨p, []⟩) (busy : p.Busy []) {m : Moment}
    (same : d.SameNodes m.directory) (present : ∀ peer, m.stimulus ≠ .peerDeparted peer) :
    (p.react m).plane.Busy [] := by
  obtain ⟨directory, timers, stimulus⟩ := m
  have apart : p.links.Apart := gated.apart sound.accounts.flows
  have known : ∀ d', d' = directory → d.SameNodes d' := fun _ is => is ▸ same
  -- Moving the clock changes neither buffers nor links.
  have alike := alike_advance p timers.now
  have advanced : ∀ peer, (p.advance timers.now).Busy [peer] := fun peer =>
    (busy.of_alike alike).mono fun _ member => by cases member
  have apartLater : (p.advance timers.now).links.Apart := by
    rw [alike.links]
    exact apart
  cases stimulus with
  | packet packet hint =>
    simp only [react]
    rcases submit_spec p directory timers packet hint with ⟨-, unnumbered⟩ | ⟨q, route, unit, -, numbered, sent⟩
    · exact busy.of_alike unnumbered.alike
    · rw [sent]
      refine busy_sendOn ?_ ?_ route unit
      · rw [numbered.links]
        exact apart
      · exact busy.of_same numbered.buffers numbered.links fun peer => by rw [numbered.switches]
  | control payload => exact busy_submitControl busy payload
  | opportunity limit =>
    obtain ⟨effects, chain, -⟩ := transmit_leaves p directory timers.now limit
    obtain ⟨soundAfter, gatedAfter⟩ := gated.chain known chain sound
    exact busy_reevaluateAll soundAfter gatedAfter same fun peer switching =>
      Or.inl (PathSwitches.mem_switchingPeers switching)
  | drainCheck peer => exact busy_applyStep (advanced peer) (PathSwitches.spares_checkFired apartLater)
  | pathSwitch peer path clear =>
    have started : ((p.advance timers.now).applyStep directory
        ((p.advance timers.now).switches.start (p.advance timers.now).links (p.advance timers.now).buffers timers peer
          path clear)).1.Busy [] :=
      busy_applyStep (advanced peer) (PathSwitches.spares_start apartLater path clear)
    exact started.of_alike (inbound_replaceReceivers _ _ _ _).alike
  | peerDeparted peer => exact absurd rfl (present peer)
  | departed => intro peer switching; cases switching
  | arrival frame => exact busy.of_alike (inbound_deliver p frame).alike

end

end DataPlane

/-! ## Runs -/

/-- Whether positions and serving nodes are all that may change in the directory, and no peer departs. -/
def Turn.Steady (d : Directory) : Turn → Prop
  | .moment directory _ stimulus => d.SameNodes directory ∧ ∀ peer, stimulus ≠ .peerDeparted peer
  | .due directory _ => d.SameNodes directory
  | .entered _ _ => True

namespace Attended
variable {w : Attended} {node : NodeId} {settings : PlaneSettings} {d : Directory}

/-- Whether the peers that switch have buffers that drain. -/
structure Attentive (node : NodeId) (settings : PlaneSettings) (d : Directory) (w : Attended) : Prop where
  sound : ∃ effects, Sound node settings effects ⟨w.plane, []⟩
  gated : Gated d ⟨w.plane, []⟩
  busy : w.plane.Busy []

theorem Attentive.deal (attentive : w.Attentive node settings d) {directory : Directory} (same : d.SameNodes directory)
    (now : SimTime) {stimulus : Stimulus} (present : ∀ peer, stimulus ≠ .peerDeparted peer) :
    (w.deal directory now stimulus).Attentive node settings d := by
  obtain ⟨effects, sound⟩ := attentive.sound
  let m : Moment := ⟨directory, ⟨now, w.calendar.nextId, []⟩, stimulus⟩
  obtain ⟨more, soundAfter, gatedAfter⟩ := DataPlane.gated_react sound attentive.gated (m := m) same
  exact ⟨⟨more, soundAfter⟩, gatedAfter,
    DataPlane.busy_react sound attentive.gated attentive.busy (m := m) same present⟩

theorem Attentive.step (attentive : w.Attentive node settings d) {turn : Turn} (steady : turn.Steady d) :
    (w.step turn).Attentive node settings d := by
  cases turn with
  | moment directory now stimulus => exact attentive.deal steady.1 now steady.2
  | entered time event => exact ⟨attentive.sound, attentive.gated, attentive.busy⟩
  | due directory now =>
    unfold Attended.step
    cases w.calendar.pop with
    | none => exact attentive
    | some answer =>
      obtain ⟨entry, calendar⟩ := answer
      have before : ({ w with calendar } : Attended).Attentive node settings d :=
        ⟨attentive.sound, attentive.gated, attentive.busy⟩
      cases event : entry.event with
      | drainCheck n peer =>
        simp only [event]
        split
        · have present : ∀ other, Stimulus.drainCheck peer ≠ .peerDeparted other := by simp
          exact before.deal steady now present
        · exact before
      | packet flow | opportunity | arrival n frame | pathSwitch n peer path clear =>
        simp only [event]
        exact before

theorem Attentive.after (attentive : w.Attentive node settings d) {turns : List Turn}
    (steady : ∀ turn ∈ turns, turn.Steady d) : (w.after turns).Attentive node settings d := by
  induction turns generalizing w with
  | nil => exact attentive
  | cons turn rest ih =>
    exact ih (attentive.step (steady turn List.mem_cons_self)) fun t member => steady t (List.mem_cons_of_mem _ member)

/-- Whatever happens to a new node that is told of its drain checks by the calendar, as long as it does not depart: a
peer switches exactly if one drain check about it waits, which is the one that its switch remembers, and none waits for
other peers. If no peer departs either, and positions and serving nodes are all that changes in the directory, a peer
that switches has a buffer that drains, so no switch waits once its queues are empty. -/
theorem no_lost_wakeup {role : Role} {p : DataPlane} (made : DataPlane.new node role settings = .ok p)
    {turns : List Turn} (proper : ∀ turn ∈ turns, turn.Proper node) :
    let w := (⟨p, .empty⟩ : Attended).after turns
    (∀ peer, (w.plane.switches.isSwitching peer = true ↔
        ∃ target id, w.plane.switches.phase peer = .switching target (some id) ∧ w.calendar.checks node peer = [id]) ∧
      (w.plane.switches.isSwitching peer = false → w.calendar.checks node peer = [])) ∧
    ∀ d : Directory, (∀ turn ∈ turns, turn.Steady d) → ∀ peer, w.plane.switches.isSwitching peer = true →
      ∃ k ∈ w.plane.links.keys peer, ∃ b, w.plane.buffers.get? k = some b ∧ b.isDraining = true := by
  intro w
  have vigilant : w.Vigilant node := (vigilant_new made).after proper
  refine ⟨fun peer => ?_, fun d steady peer switching => ?_⟩
  · have checks := vigilant.watched.checks peer
    cases phase : w.plane.switches.phase peer with
    | active | switched => simp [PathSwitches.isSwitching, phase, checks, SwitchPhase.check?]
    | switching target check =>
      have switching : w.plane.switches.isSwitching peer = true :=
        (PathSwitches.isSwitching_eq_true_iff _ _).2 ⟨target, check, phase⟩
      obtain ⟨id, armed⟩ := vigilant.armed peer switching
      rw [phase, SwitchPhase.check?] at armed
      rw [phase, armed] at checks
      refine ⟨iff_of_true switching ⟨target, id, by rw [armed], checks⟩, fun still => ?_⟩
      exact absurd switching (Bool.not_eq_true _ ▸ still)
  · have new : (⟨p, .empty⟩ : Attended).Attentive node settings d := by
      refine ⟨⟨_, DataPlane.sound_new made⟩, DataPlane.gated_new made d, fun peer switching => ?_⟩
      obtain ⟨-, rfl⟩ := DataPlane.eq_of_new made
      cases switching
    have drains := ((new.after steady).busy peer switching).resolve_left List.not_mem_nil
    exact (TransmitBuffers.anyDraining_eq_true_iff _ _).1 drains

/-- The first node sends a packet and begins to switch the path of the second node. Something else is due, then the
drain check, which finds that the packet has not left; and another switch replaces the one under way. -/
def replaced : List Turn :=
  [.moment .pair 0 (.packet .hello "voice"), .moment .pair 0 (.pathSwitch ⟨2⟩ .infrastructure false),
    .entered 500 .opportunity, .due .pair 500, .due .pair 1000, .moment .pair 1500 (.pathSwitch ⟨2⟩ .direct false)]

/-- The first check is spent, and that of the earlier switch is withdrawn. -/
theorem no_lost_wakeup_at_replaced :
    let w := (⟨.fresh 1, .empty⟩ : Attended).after replaced
    DataPlane.new ⟨1⟩ .peerDirect .default = .ok (.fresh 1) ∧ (∀ turn ∈ replaced, turn.Proper ⟨1⟩) ∧
      (∀ turn ∈ replaced, turn.Steady .pair) ∧ w.calendar.nextId = 4 ∧
      w.plane.switches.phase ⟨2⟩ = .switching .direct (some 3) ∧ w.calendar.checks ⟨1⟩ ⟨2⟩ = [3] ∧
      (∀ peer, (w.plane.switches.isSwitching peer = true ↔
          ∃ target id, w.plane.switches.phase peer = .switching target (some id) ∧ w.calendar.checks ⟨1⟩ peer = [id]) ∧
        (w.plane.switches.isSwitching peer = false → w.calendar.checks ⟨1⟩ peer = [])) ∧
      ∀ peer, w.plane.switches.isSwitching peer = true →
        ∃ k ∈ w.plane.links.keys peer, ∃ b, w.plane.buffers.get? k = some b ∧ b.isDraining = true := by
  intro w
  have proper : ∀ turn ∈ replaced, turn.Proper ⟨1⟩ := by simp [replaced, Turn.Proper]
  have steady : ∀ turn ∈ replaced, turn.Steady .pair := by simp [replaced, Turn.Steady, Directory.SameNodes.refl]
  obtain ⟨checks, draining⟩ := no_lost_wakeup DataPlane.new_fresh.1 proper
  have phase : w.plane.switches.phase ⟨2⟩ = .switching .direct (some 3) := by decide +kernel
  have switching : w.plane.switches.isSwitching ⟨2⟩ = true :=
    (PathSwitches.isSwitching_eq_true_iff _ _).2 ⟨_, _, phase⟩
  obtain ⟨target, id, phase', waits⟩ := (checks ⟨2⟩).1.1 switching
  obtain ⟨-, remembered⟩ := SwitchPhase.switching.inj (phase'.symm.trans phase)
  refine ⟨DataPlane.new_fresh.1, proper, steady, by decide +kernel, phase, ?_, checks, draining .pair steady⟩
  rw [waits, Option.some.inj remembered]

end Attended
end Sidelink
