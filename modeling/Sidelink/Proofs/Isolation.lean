import Sidelink.Proofs.Descriptors

/-!
A switch of one peer does not disturb the others. Whatever step the switch takes, in whatever state the node is, the
switches of other peers stay where they are, and so do all buffers except those of the peer and those that units go
to which waited for it; descriptors of other peers, receivers of other nodes, the flows and the numbering are not
touched (`DataPlane.Isolates`). The steps of the switches themselves are confined first (`PathSwitches.Confined`), then
what the node does after such a step.
-/
namespace Sidelink

/-! ## Steps of a switch -/

namespace PathSwitches
variable {s s' : PathSwitches} {links : PeerLinks} {buffers buffers' : TransmitBuffers} {timers : Timers}
  {peer : NodeId} {path? : Option Path} {step : SwitchStep}

/-- The path that a peer switches to, if it does. -/
def target? (s : PathSwitches) (peer : NodeId) : Option Path :=
  match s.phase peer with
  | .switching target _ => some target
  | .active | .switched => none

/-- Whether a step of a switch concerns its own peer only, and the buffers of that peer. If the step ends the switch,
then on the path given, and the units that waited for the peer are handed out. -/
structure Confined (s : PathSwitches) (links : PeerLinks) (buffers : TransmitBuffers) (peer : NodeId)
    (path? : Option Path) (step : SwitchStep) : Prop where
  peers : ∀ other, other ≠ peer → step.switches.peers.get? other = s.peers.get? other
  paths : ∀ other, other ≠ peer → step.switches.paths.get? other = s.paths.get? other
  buffers : ∀ key, key ∉ links.keys peer → step.buffers.get? key = buffers.get? key
  completion : ∀ done, step.completion = some done →
    done.peer = peer ∧ path? = some done.path ∧ done.deferred = s.deferred peer

theorem Confined.before (confined : s'.Confined links buffers' peer path? step)
    (peers : ∀ other, other ≠ peer → s'.peers.get? other = s.peers.get? other) (paths : s'.paths = s.paths)
    (deferred : s'.deferred peer = s.deferred peer)
    (elsewhere : ∀ key, key ∉ links.keys peer → buffers'.get? key = buffers.get? key) :
    s.Confined links buffers peer path? step where
  peers := fun other different => (confined.peers other different).trans (peers other different)
  paths := fun other different => (confined.paths other different).trans (by rw [paths])
  buffers := fun key apart => (confined.buffers key apart).trans (elsewhere key apart)
  completion := fun done ends => by
    obtain ⟨same, path, units⟩ := confined.completion done ends
    exact ⟨same, path, units.trans deferred⟩

theorem get?_onKeys_of_not_mem {keys : List EntityKey} {key : EntityKey} (apart : key ∉ keys)
    (f : TransmitBuffer → TransmitBuffer) :
    (TransmitBuffers.onKeys buffers keys f).get? key = buffers.get? key := by
  rw [TransmitBuffers.get?_onKeys]
  simp only [if_neg apart, Option.map_id']

theorem confined_still (s : PathSwitches) (links : PeerLinks) (buffers : TransmitBuffers) (timers : Timers)
    (peer : NodeId) (path? : Option Path) : s.Confined links buffers peer path? ⟨s, buffers, timers, none⟩ :=
  ⟨fun _ _ => rfl, fun _ _ => rfl, fun _ _ => rfl, fun _ ends => by cases ends⟩

theorem confined_complete (s : PathSwitches) (links : PeerLinks) (buffers : TransmitBuffers) (timers : Timers)
    (peer : NodeId) (path : Path) :
    s.Confined links buffers peer (some path) (s.complete links buffers timers peer path) where
  peers := fun other different => SortedMap.get?_insert_of_ne _ different _
  paths := fun other different => SortedMap.get?_insert_of_ne _ different _
  buffers := fun key apart => get?_onKeys_of_not_mem apart _
  completion := fun done ends => by
    obtain rfl := Option.some.inj ends
    exact ⟨rfl, rfl, rfl⟩

/-- A look at the switch of a peer ends it, if at all, on the path that the peer switches to. -/
theorem confined_looked (looked : s.Looked links buffers timers peer step) :
    s.Confined links buffers peer (s.target? peer) step := by
  cases looked with
  | calm still => exact confined_still s links buffers timers peer _
  | waits switching draining => exact confined_still s links buffers timers peer _
  | asks switching draining =>
    exact (confined_still _ links buffers _ peer _).before
      (fun other different => SortedMap.get?_insert_of_ne _ different _) rfl (s.deferred_setPhase peer _ peer)
      fun _ _ => rfl
  | ends switching drained =>
    rw [target?, switching]
    exact confined_complete s links buffers _ peer _

theorem confined_start (s : PathSwitches) (links : PeerLinks) (buffers : TransmitBuffers) (timers : Timers)
    (peer : NodeId) (path : Path) (clear : Bool) :
    s.Confined links buffers peer (some path) (s.start links buffers timers peer path clear) := by
  have others (other : NodeId) (different : other ≠ peer) :
      (s.begun peer path).peers.get? other = s.peers.get? other :=
    SortedMap.get?_insert_of_ne _ different _
  have waiting : (s.begun peer path).deferred peer = s.deferred peer := s.deferred_setPhase peer _ peer
  have held (key : EntityKey) (apart : key ∉ links.keys peer) :
      (TransmitBuffers.onKeys buffers (links.keys peer) TransmitBuffer.hold).get? key = buffers.get? key :=
    get?_onKeys_of_not_mem apart _
  rw [start_eq]
  cases clear with
  | true =>
    exact (confined_complete _ links _ _ peer path).before others rfl waiting fun key apart =>
      (get?_onKeys_of_not_mem apart _).trans (held key apart)
  | false =>
    have begun : (s.begun peer path).target? peer = some path := by
      rw [target?, PathSwitches.phase, begun, setPhase, SortedMap.get?_insert_self]
    have confined := confined_looked (looked_reevaluate (s.begun peer path) links
      (TransmitBuffers.onKeys buffers (links.keys peer) TransmitBuffer.hold)
      (timers.withdraw (s.phase peer).check?) peer)
    rw [begun] at confined
    exact confined.before others rfl waiting held

theorem confined_checkFired (s : PathSwitches) (links : PeerLinks) (buffers : TransmitBuffers) (timers : Timers)
    (peer : NodeId) : s.Confined links buffers peer (s.target? peer) (s.checkFired links buffers timers peer) := by
  rcases s.checkFired_eq links buffers timers peer with ⟨-, same⟩ | ⟨target, check, switching, looks⟩
  · rw [same]
    exact confined_still s links buffers timers peer _
  · have goal : (s.setPhase peer (.switching target none)).target? peer = s.target? peer := by
      rw [target?, target?, switching, PathSwitches.phase, setPhase, SortedMap.get?_insert_self]
    have confined := confined_looked
      (looked_reevaluate (s.setPhase peer (.switching target none)) links buffers timers peer)
    rw [looks, ← goal]
    exact confined.before (fun other different => SortedMap.get?_insert_of_ne _ different _) rfl
      (s.deferred_setPhase peer _ peer) fun _ _ => rfl

end PathSwitches

/-! ## Units that are sent on -/

theorem PeerLinks.joins_add_of_ne (l : PeerLinks) {peer other : NodeId} (different : other ≠ peer)
    (key k : EntityKey) : (l.add peer key).Joins other k ↔ l.Joins other k := by
  rw [joins_add]
  exact or_iff_right fun same => different same.1

namespace DataPlane
variable {p q : DataPlane} {directory : Directory} {peer : NodeId} {path? : Option Path}

/-- Whether a switch of a peer to a path may lead units to a buffer that waited for the peer. -/
def SendsOnTo (p : DataPlane) (directory : Directory) (peer : NodeId) (path? : Option Path) (key : EntityKey) :
    Prop :=
  ∃ path hop, path? = some path ∧ (p.view directory).nextHop? peer path = some hop ∧
    ∃ d ∈ p.switches.deferred peer, key = ⟨hop, d.lcid⟩

theorem buffers_flushAll {path : Path} {nextHop : Option NodeId} {key : EntityKey} {waiting : List DeferredSdu}
    (elsewhere : ∀ hop, nextHop = some hop → ∀ d ∈ waiting, key ≠ ⟨hop, d.lcid⟩) :
    (waiting.foldl (fun p d => p.flush peer path nextHop d) p).buffers.get? key = p.buffers.get? key := by
  induction waiting generalizing p with
  | nil => rfl
  | cons d rest ih =>
    refine (ih fun hop same e later => elsewhere hop same e (List.mem_cons_of_mem _ later)).trans ?_
    cases nextHop with
    | none => rfl
    | some hop =>
      have other := elsewhere hop rfl d List.mem_cons_self
      have stored := (alike_offer { p with links := p.links.add peer ⟨hop, d.lcid⟩ } hop path d).buffers
      exact (congrArg (SortedMap.get? · key) stored).trans (SortedMap.get?_insert_of_ne _ other _)

theorem links_flushAll (peer : NodeId) (path : Path) (nextHop : Option NodeId) (waiting : List DeferredSdu)
    {other : NodeId} (different : other ≠ peer) (k : EntityKey) :
    (waiting.foldl (fun p d => p.flush peer path nextHop d) p).links.Joins other k ↔ p.links.Joins other k := by
  induction waiting generalizing p with
  | nil => exact Iff.rfl
  | cons d rest ih =>
    refine ih.trans ?_
    cases nextHop with
    | none => exact Iff.rfl
    | some hop =>
      have joined := (alike_offer { p with links := p.links.add peer ⟨hop, d.lcid⟩ } hop path d).links
      exact (iff_of_eq (congrArg (PeerLinks.Joins · other k) joined)).trans
        (PeerLinks.joins_add_of_ne _ different _ _)

/-! ## Isolation -/

/-- Whether the differences between two data planes are confined to a peer and its switch to a path: to the switches of
the peer, its buffers and those that units go to which waited for it, its descriptors, and the receivers from it. -/
structure Isolates (p : DataPlane) (directory : Directory) (peer : NodeId) (path? : Option Path) (q : DataPlane) :
    Prop where
  phase : ∀ other, other ≠ peer → q.switches.phase other = p.switches.phase other
  currentPath : ∀ other, other ≠ peer → q.switches.currentPath other = p.switches.currentPath other
  deferred : ∀ other, other ≠ peer → q.switches.deferred other = p.switches.deferred other
  links : ∀ other, other ≠ peer → ∀ key, q.links.Joins other key ↔ p.links.Joins other key
  buffers : ∀ key, key ∉ p.links.keys peer → ¬ p.SendsOnTo directory peer path? key →
    q.buffers.get? key = p.buffers.get? key
  descriptors : ∀ l d, p.flows.descriptor? l = some d → d.rxPeer ≠ some peer → q.flows.descriptor? l = some d
  receivers : ∀ key, key.node ≠ peer → q.receivers.get? key = p.receivers.get? key
  /-- The connections of flows, and the number of the next one. -/
  lcids : q.flows.lcids = p.flows.lcids
  next : q.flows.next = p.flows.next
  /-- There are the same descriptors, and they tell the same apart from paths. -/
  pathless : q.flows.pathless = p.flows.pathless
  convergence : q.convergence = p.convergence

theorem FlowTable.descriptor?_setPeerPath_of_ne {t : FlowTable} {path : Path} {l : Lcid} {d : Descriptor}
    (found : t.descriptor? l = some d) (other : d.rxPeer ≠ some peer) :
    (t.setPeerPath peer path).descriptor? l = some d := by
  rw [FlowTable.descriptor?] at found ⊢
  rw [FlowTable.setPeerPath, SortedMap.get?_mapEntries, found, Option.map_some, if_neg other]

/-- What a node does after a step of a switch that is confined to its peer. -/
theorem isolates_applyStep {step : SwitchStep} (confined : p.switches.Confined p.links p.buffers peer path? step) :
    p.Isolates directory peer path? (p.applyStep directory step).1 := by
  have outbound := outbound_applyStep p directory step
  have switches := switches_applyStep p directory step
  refine
    { phase := fun other different => ?_, currentPath := fun other different => ?_
      deferred := fun other different => ?_, links := ?_, buffers := ?_, descriptors := ?_
      receivers := fun key _ => congrArg (SortedMap.get? · key) outbound.receivers
      lcids := outbound.lcids, next := outbound.next, pathless := outbound.pathless
      convergence := outbound.convergence }
  · simp only [switches, PathSwitches.phase, confined.peers other different]
  · simp only [switches, PathSwitches.currentPath, confined.paths other different]
  · simp only [switches, PathSwitches.deferred, confined.peers other different]
  all_goals simp only [applyStep]
  · intro other different key
    cases completion : step.completion with
    | none => exact Iff.rfl
    | some done =>
      obtain ⟨rfl, -, -⟩ := confined.completion done completion
      exact links_flushAll _ _ _ _ different key
  · intro key apart away
    refine Eq.trans ?_ (confined.buffers key apart)
    cases completion : step.completion with
    | none => rfl
    | some done =>
      obtain ⟨rfl, path, units⟩ := confined.completion done completion
      refine buffers_flushAll fun hop nextHop d waits same => away ?_
      rw [nextHop?_congr directory rfl] at nextHop
      exact ⟨done.path, hop, path, nextHop, d, units ▸ waits, same⟩
  · intro l d found other
    cases completion : step.completion with
    | none => exact found
    | some done =>
      obtain ⟨rfl, -, -⟩ := confined.completion done completion
      simp only [applyCompletion, flows_flushAll]
      exact FlowTable.descriptor?_setPeerPath_of_ne found other

theorem Isolates.of_advance (now : SimTime) (isolates : (p.advance now).Isolates directory peer path? q) :
    p.Isolates directory peer path? q := by
  unfold advance at isolates
  split at isolates
  · exact isolates
  · exact ⟨isolates.phase, isolates.currentPath, isolates.deferred, isolates.links, isolates.buffers,
      isolates.descriptors, isolates.receivers, isolates.lcids, isolates.next, isolates.pathless,
      isolates.convergence⟩

theorem receivers_handUpAll (p : DataPlane) (key : EntityKey) (path : Path) (sdus : List Bytes) :
    (p.handUpAll key path sdus).2.receivers = p.receivers := by
  induction sdus generalizing p with
  | nil => rfl
  | cons sdu rest ih =>
    have first : (p.handUp key path sdu).2.receivers = p.receivers := by
      unfold handUp
      split <;> rfl
    have both := (ih _).trans first
    simp only [handUpAll]
    cases (p.handUp key path sdu).1 <;> exact both

theorem get?_replaceReceivers_of_not_mem (path : Path) (clear : Bool) {keys : List EntityKey} {k : EntityKey}
    (apart : k ∉ keys) : (p.replaceReceivers path clear keys).2.receivers.get? k = p.receivers.get? k := by
  induction keys generalizing p with
  | nil => rfl
  | cons key rest ih =>
    obtain ⟨other, later⟩ := List.ne_and_not_mem_of_not_mem_cons apart
    unfold replaceReceivers
    split
    · exact ih later
    · refine (ih later).trans ?_
      rw [receivers_handUpAll]
      exact SortedMap.get?_insert_of_ne _ other _

/-- Replacing the receivers of a peer goes unnoticed by the others. -/
theorem Isolates.replaceReceivers (isolates : p.Isolates directory peer path? q) (path : Path) (clear : Bool) :
    p.Isolates directory peer path?
      (q.replaceReceivers path clear (q.receivers.keys.filter (·.node = peer))).2 := by
  have replaced (key : EntityKey) (other : key.node ≠ peer) :
      (q.replaceReceivers path clear (q.receivers.keys.filter (·.node = peer))).2.receivers.get? key =
        q.receivers.get? key :=
    get?_replaceReceivers_of_not_mem path clear fun member =>
      other (of_decide_eq_true (List.mem_filter.1 member).2)
  obtain ⟨receivers, remote, received, delivered, errors, after⟩ :=
    inbound_replaceReceivers q path clear (q.receivers.keys.filter (·.node = peer))
  rw [after] at replaced ⊢
  exact { isolates with receivers := fun key other => (replaced key other).trans (isolates.receivers key other) }

/-- Whatever state a node is in, a switch of a peer and a drain check about it leave alone, of every other peer, where
the peer is in its switches, its path and the units that wait for it; every buffer that is neither linked to the peer
nor the next one of a unit that waited for it; the descriptors of other peers; the receivers of other nodes; and all
flows, descriptors but for paths, and numbering. -/
theorem switches_isolated (p : DataPlane) (directory : Directory) (timers : Timers) (peer : NodeId) :
    (∀ path clear, p.Isolates directory peer (some path) (p.switchPath directory timers peer path clear).2.1) ∧
      p.Isolates directory peer (p.switches.target? peer) (p.drainCheck directory timers peer).1 := by
  refine ⟨fun path clear => .of_advance timers.now ?_, .of_advance timers.now ?_⟩
  · exact (isolates_applyStep (PathSwitches.confined_start _ _ _ timers peer path clear)).replaceReceivers path clear
  · rw [← switches_advance p timers.now]
    exact isolates_applyStep (PathSwitches.confined_checkFired _ _ _ timers peer)

end DataPlane
end Sidelink
