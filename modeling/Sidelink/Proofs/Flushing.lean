import Sidelink.Proofs.Gates

/-!
What becomes of the units that wait for a peer when its switch ends. The switches that end in a run are listed with
the data plane at that point (`DataPlane.endings`), as many as the node counts; a unit that waits does so until the
switch of its peer ends (`Releases`). Units may wait as long as there are no more of them than a queue has room for
data units, but a unit may take several data units, so the buffer of the new path takes them all only if it has room
for all their data units, the number of which it can compute (`DataPlane.flushed_eq_iff`).
-/
namespace Sidelink

/-- A switch that ended, with the data plane at that point, whose buffers take units again. -/
structure Ending where
  plane : DataPlane
  directory : Directory
  done : SwitchCompletion

/-- A unit at the buffer that it is for, with its number and its recipients. -/
def DeferredSdu.parcel (hop : NodeId) (d : DeferredSdu) : EntityKey × UInt32 × Bytes × List NodeId :=
  (⟨hop, d.lcid⟩, d.sn, d.sdu, d.recipients)

def Admission.parcel (x : Admission) : EntityKey × UInt32 × Bytes × List NodeId :=
  (x.key, x.sn, x.sdu, x.recipients)

namespace Ending

/-- The node that the peer's units are sent to from then on. -/
def nextHop? (e : Ending) : Option NodeId := (e.plane.view e.directory).nextHop? e.done.peer e.done.path

/-- The units that buffers take of those that waited. -/
def admitted (e : Ending) : List Admission := e.plane.completed e.directory e.done

end Ending

/-! ## Where switches end -/

namespace DataPlane

/-- The switch that a step ends, if it ends one. -/
def ended (p : DataPlane) (directory : Directory) (step : SwitchStep) : List Ending :=
  step.completion.toList.map fun done =>
    ⟨{ p with switches := step.switches, buffers := step.buffers }, directory, done⟩

/-- The switches that end while peers are looked at one after the other. -/
def endingsOf (p : DataPlane) (directory : Directory) (timers : Timers) : List NodeId → List Ending
  | [] => []
  | peer :: rest =>
    let (q, timers') := p.reevaluate directory timers peer
    p.ended directory (p.switches.reevaluate p.links p.buffers timers peer) ++ q.endingsOf directory timers' rest

/-- The switches that end at a moment. -/
def endingsAt (p : DataPlane) (m : Moment) : List Ending :=
  match m.stimulus with
  | .packet packet hint =>
    match p.numbered? m.directory m.timers packet hint with
    | some (q, route, _) => q.endingsOf m.directory m.timers route.peer.toList
    | none => []
  | .opportunity limit =>
    let p := (p.transmit m.timers.now limit).2
    p.endingsOf m.directory m.timers p.switches.switchingPeers
  | .drainCheck peer =>
    let p := p.advance m.timers.now
    p.ended m.directory (p.switches.checkFired p.links p.buffers m.timers peer)
  | .pathSwitch peer path clear =>
    let p := p.advance m.timers.now
    p.ended m.directory (p.switches.start p.links p.buffers m.timers peer path clear)
  | .control _ | .peerDeparted _ | .departed | .arrival _ => []

/-- The switches that end in a run, in order. -/
def endings (p : DataPlane) (ms : List Moment) : List Ending := p.collect endingsAt ms

end DataPlane

/-! ## What waits until a switch ends -/

/-- Whether some switches ended between two states of the switches, and none else, and units waited meanwhile. -/
structure Releases (s : PathSwitches) (es : List SwitchCompletion) (t : PathSwitches) : Prop where
  completed : t.counters.completed = s.counters.completed + es.length
  kept : ∀ {peer unit}, unit ∈ s.deferred peer →
    unit ∈ t.deferred peer ∨ ∃ done ∈ es, done.peer = peer ∧ unit ∈ done.deferred

namespace Releases
variable {s t u : PathSwitches} {es fs : List SwitchCompletion}

/-- More units may wait, and counters other than that of switches that are done may change. -/
theorem of_more (completed : t.counters.completed = s.counters.completed)
    (kept : ∀ {peer unit}, unit ∈ s.deferred peer → unit ∈ t.deferred peer) : Releases s [] t :=
  ⟨completed, fun waits => Or.inl (kept waits)⟩

theorem refl (s : PathSwitches) : Releases s [] s := of_more rfl id

theorem trans (first : Releases s es t) (second : Releases t fs u) : Releases s (es ++ fs) u where
  completed := by rw [second.completed, first.completed, List.length_append, Nat.add_assoc]
  kept := fun {peer unit} waits => by
    rcases first.kept waits with later | ⟨done, member, own⟩
    · rcases second.kept later with after | ⟨done, member, own⟩
      · exact Or.inl after
      · exact Or.inr ⟨done, List.mem_append_right _ member, own⟩
    · exact Or.inr ⟨done, List.mem_append_left _ member, own⟩

theorem andThen (first : Releases s es t) (second : Releases t [] u) : Releases s es u := by
  simpa using first.trans second

theorem of_setPhase (s : PathSwitches) (peer : NodeId) (phase : SwitchPhase) : Releases s [] (s.setPhase peer phase) :=
  of_more rfl fun waits => by rwa [PathSwitches.deferred_setPhase]

theorem of_complete (s : PathSwitches) (links : PeerLinks) (buffers : TransmitBuffers) (timers : Timers)
    (peer : NodeId) (path : Path) :
    Releases s [⟨peer, path, s.deferred peer⟩] (s.complete links buffers timers peer path).switches where
  completed := rfl
  kept := fun {other unit} waits => by
    by_cases same : other = peer
    · subst same
      exact Or.inr ⟨_, List.mem_cons_self, rfl, waits⟩
    · left
      rw [PathSwitches.deferred_insert (s := s) rfl, if_neg same]
      exact waits

theorem of_looked {links : PeerLinks} {buffers : TransmitBuffers} {timers : Timers} {peer : NodeId} {step : SwitchStep}
    (looked : s.Looked links buffers timers peer step) : Releases s step.completion.toList step.switches := by
  cases looked with
  | calm still => exact .refl s
  | waits switching draining => exact .refl s
  | asks switching draining => exact .of_setPhase s _ _
  | ends switching drained => exact .of_complete s _ _ _ _ _

theorem of_begun (s : PathSwitches) (peer : NodeId) (path : Path) : Releases s [] (s.begun peer path) :=
  of_more rfl fun waits => (PathSwitches.deferred_setPhase s peer (.switching path none) _).symm ▸ waits

theorem of_start (s : PathSwitches) (links : PeerLinks) (buffers : TransmitBuffers) (timers : Timers)
    (peer : NodeId) (path : Path) (clear : Bool) :
    Releases s (s.start links buffers timers peer path clear).completion.toList
      (s.start links buffers timers peer path clear).switches := by
  rw [PathSwitches.start_eq]
  have begun := of_begun s peer path
  cases clear with
  | true =>
    simp only [if_true]
    generalize discarded : (PathSwitches.counters (s.begun peer path)).discarded + _ = n
    have counted : Releases (s.begun peer path) []
        { s.begun peer path with counters := { (s.begun peer path).counters with discarded := n } } := of_more rfl id
    exact (begun.andThen counted).trans (of_complete _ links _ _ peer path)
  | false => exact begun.trans (of_looked (PathSwitches.looked_reevaluate _ links _ _ peer))

theorem of_checkFired (s : PathSwitches) (links : PeerLinks) (buffers : TransmitBuffers) (timers : Timers)
    (peer : NodeId) :
    Releases s (s.checkFired links buffers timers peer).completion.toList
      (s.checkFired links buffers timers peer).switches := by
  rcases s.checkFired_eq links buffers timers peer with ⟨-, same⟩ | ⟨target, check, -, looks⟩
  · rw [same]
    exact .refl s
  · rw [looks]
    exact (of_setPhase s peer (.switching target none)).trans
      (of_looked (PathSwitches.looked_reevaluate _ links buffers timers peer))

end Releases

namespace DataPlane
variable {p : DataPlane} {directory : Directory} {timers : Timers}

theorem done_ended (p : DataPlane) (directory : Directory) (step : SwitchStep) :
    (p.ended directory step).map Ending.done = step.completion.toList := by
  unfold ended
  cases step.completion <;> rfl

theorem releases_applyStep {step : SwitchStep} (releases : Releases p.switches step.completion.toList step.switches) :
    Releases p.switches ((p.ended directory step).map Ending.done) (p.applyStep directory step).1.switches := by
  rw [switches_applyStep, done_ended]
  exact releases

theorem releases_endingsOf (p : DataPlane) (directory : Directory) (timers : Timers) (peers : List NodeId) :
    Releases p.switches ((p.endingsOf directory timers peers).map Ending.done)
      (peers.foldl (fun (p, timers) peer => p.reevaluate directory timers peer) (p, timers)).1.switches := by
  induction peers generalizing p timers with
  | nil => exact .refl _
  | cons peer rest ih =>
    simp only [endingsOf, List.map_append, List.foldl_cons]
    exact (releases_applyStep (.of_looked (PathSwitches.looked_reevaluate _ _ _ _ _))).trans (ih _ _)

/-- A unit for a peer waits, or nothing changes for those that do. -/
theorem releases_sendToPeer (p : DataPlane) (directory : Directory) (timers : Timers) (peer : NodeId)
    (unit : DeferredSdu) :
    Releases p.switches ((p.endingsOf directory timers [peer]).map Ending.done)
        (p.sendToPeer directory timers peer unit).2.1.switches ∧
      ((p.sendToPeer directory timers peer unit).1 = .deferred →
        unit ∈ (p.sendToPeer directory timers peer unit).2.1.switches.deferred peer) := by
  have looked := releases_endingsOf p directory timers [peer]
  simp only [List.foldl_cons, List.foldl_nil] at looked
  simp only [sendToPeer]
  generalize (p.reevaluate directory timers peer).1 = q at looked ⊢
  split
  · cases known : q.switches.peers.get? peer with
    | none =>
      simp only [PathSwitches.defer, known]
      exact ⟨looked, fun h => by cases h⟩
    | some state =>
      simp only [PathSwitches.defer, known]
      split
      · exact ⟨looked.andThen (.of_more rfl id), fun h => by cases h⟩
      · have waited (other : NodeId) := PathSwitches.deferred_waited (s := q.switches) known unit other
        refine ⟨looked.andThen (.of_more rfl fun {other unit'} waits => ?_), fun _ => ?_⟩
        · change unit' ∈ (q.switches.setEntry peer _).deferred other
          rw [waited]
          split
          · rename_i same
            exact List.mem_append_left _ (same ▸ waits)
          · exact waits
        · change unit ∈ (q.switches.setEntry peer _).deferred peer
          rw [waited, if_pos rfl]
          exact List.mem_append_right _ List.mem_cons_self
  · split
    · exact ⟨looked, fun h => by cases h⟩
    · rename_i hop _
      let linked : DataPlane := { q with links := q.links.add peer ⟨hop, unit.lcid⟩ }
      have same := switches_offer linked hop (q.switches.currentPath peer) unit
      refine ⟨?_, fun h => ?_⟩
      · rw [← same] at looked
        exact looked
      · simp only [offer] at h
        split at h <;> cases h

theorem releases_sendOn (p : DataPlane) (directory : Directory) (timers : Timers) (route : Route) (unit : DeferredSdu) :
    Releases p.switches ((p.endingsOf directory timers route.peer.toList).map Ending.done)
        (p.sendOn directory timers route unit).2.1.switches ∧
      ((p.sendOn directory timers route unit).1 = .deferred →
        ∃ peer, route.peer = some peer ∧ unit ∈ (p.sendOn directory timers route unit).2.1.switches.deferred peer) := by
  unfold sendOn
  cases route.peer with
  | none =>
    have same := switches_offer p route.nextHop route.path unit
    refine ⟨?_, fun h => ?_⟩
    · simp only [same]
      exact .refl _
    · simp only [offer] at h
      split at h <;> cases h
  | some peer =>
    obtain ⟨releases, waits⟩ := releases_sendToPeer p directory timers peer unit
    exact ⟨releases, fun h => ⟨peer, rfl, waits h⟩⟩

/-- What waits at a moment does so afterwards, unless a switch ends or the node itself departs. -/
theorem releases_react (p : DataPlane) {m : Moment} (stays : m.stimulus ≠ .departed) :
    Releases p.switches ((p.endingsAt m).map Ending.done) (p.react m).plane.switches := by
  obtain ⟨directory, timers, stimulus⟩ := m
  cases stimulus with
  | packet packet hint =>
    simp only [react, endingsAt]
    rcases submit_spec p directory timers packet hint with
      ⟨missing, unnumbered⟩ | ⟨q, route, unit, found, numbered, sent⟩
    · rw [missing, unnumbered.switches]
      exact .refl _
    · rw [found, sent, ← numbered.switches]
      exact (releases_sendOn q directory timers route unit).1
  | control payload =>
    simp only [react, endingsAt, (switches_submitControl p directory timers payload).1]
    exact .refl _
  | opportunity limit =>
    simp only [react, endingsAt, ← switches_transmit p timers.now limit]
    exact releases_endingsOf _ directory timers _
  | drainCheck peer =>
    simp only [react, endingsAt, drainCheck]
    rw [← switches_advance p timers.now]
    exact releases_applyStep (.of_checkFired _ _ _ _ _)
  | pathSwitch peer path clear =>
    simp only [react, endingsAt, switchPath, switches_replaceReceivers]
    rw [← switches_advance p timers.now]
    exact releases_applyStep (.of_start _ _ _ _ _ _ _)
  | peerDeparted peer => exact .refl _
  | departed => exact absurd rfl stays
  | arrival frame =>
    simp only [react, endingsAt, switches_deliver]
    exact .refl _

end DataPlane

/-! ## Packets that wait -/

/-- Whether a unit is that of a packet, under the number that the packet was given. -/
def DeferredSdu.IsOf (settings : PlaneSettings) (x : Packet × Dispatch) (unit : DeferredSdu) : Prop :=
  x.2.lcid = unit.lcid ∧ x.2.sn = some unit.sn ∧ unit.sdu = x.1.unit settings.compression unit.sn

namespace DataPlane
variable {node : NodeId} {role : Role} {settings : PlaneSettings} {p : DataPlane} {hs : List Effect}

/-- A packet that is said to wait does so. -/
theorem waits_react (sound : Sound node settings hs ⟨p, []⟩) (m : Moment) {x : Packet × Dispatch}
    (answered : x ∈ (p.react m).dispatched) (waits : x.2.outcome = .deferred) :
    ∃ peer unit, DeferredSdu.IsOf settings x unit ∧
      m.directory.way? p.node p.role x.1.endpoints = some (.toPeer peer) ∧
      unit ∈ (p.react m).plane.switches.deferred peer := by
  obtain ⟨directory, timers, stimulus⟩ := m
  cases stimulus with
  | packet packet hint =>
    simp only [react, Submission.dispatched] at answered ⊢
    rcases submit_spec p directory timers packet hint with ⟨-, unnumbered⟩ | ⟨q, route, unit, -, numbered, sent⟩
    · cases result : (p.submit directory timers packet hint).result with
      | error cause =>
        rw [result] at answered
        cases answered
      | ok dispatch =>
        rw [result] at answered
        obtain rfl := List.mem_singleton.1 answered
        obtain ⟨-, reason, dropped, -⟩ := unnumbered.outcome dispatch result
        rw [dropped] at waits
        cases waits
    · rw [sent] at answered ⊢
      obtain rfl := List.mem_singleton.1 answered
      obtain ⟨peer, peerIs, member⟩ := (releases_sendOn q directory timers route unit).2 waits
      have way := numbered.way
      rw [Route.way, peerIs] at way
      exact ⟨peer, unit, ⟨rfl, rfl, numbered.sdu_eq sound⟩, way, member⟩
  | _ => cases answered

theorem sound_react (sound : Sound node settings hs ⟨p, []⟩) (m : Moment) :
    ∃ effects, Sound node settings effects ⟨(p.react m).plane, []⟩ := by
  obtain ⟨effects, chain, -⟩ := react_chain p m
  exact ⟨_, chain.invariant (fun _ change sound => sound_change change sound) sound⟩

theorem releases_run (p : DataPlane) {ms : List Moment} (stays : ∀ m ∈ ms, m.stimulus ≠ .departed) :
    Releases p.switches ((p.endings ms).map Ending.done) (p.after ms).switches := by
  induction ms generalizing p with
  | nil => exact .refl _
  | cons m rest ih =>
    simp only [endings, collect, List.map_append]
    exact (releases_react p (stays m List.mem_cons_self)).trans
      (ih _ fun n member => stays n (List.mem_cons_of_mem _ member))

/-- Every packet that was said to wait still does, or the switch of its peer ended. -/
theorem waits_run (sound : Sound node settings hs ⟨p, []⟩) {ms : List Moment}
    (stays : ∀ m ∈ ms, m.stimulus ≠ .departed) {x : Packet × Dispatch} (answered : x ∈ p.dispatched ms)
    (waits : x.2.outcome = .deferred) :
    ∃ peer unit, DeferredSdu.IsOf settings x unit ∧
      (∃ m ∈ ms, m.directory.way? p.node p.role x.1.endpoints = some (.toPeer peer)) ∧
      (unit ∈ (p.after ms).switches.deferred peer ∨
        ∃ e ∈ p.endings ms, e.done.peer = peer ∧ unit ∈ e.done.deferred) := by
  induction ms generalizing p hs with
  | nil => cases answered
  | cons m rest ih =>
    simp only [dispatched, collect, List.mem_append] at answered
    simp only [endings, collect, List.mem_append]
    have later : ∀ n ∈ rest, n.stimulus ≠ .departed := fun n member => stays n (List.mem_cons_of_mem _ member)
    rcases answered with now | after
    · obtain ⟨peer, unit, own, way, member⟩ := waits_react sound m now waits
      refine ⟨peer, unit, own, ⟨m, List.mem_cons_self, way⟩, ?_⟩
      refine ((releases_run _ later).kept member).imp_right ?_
      rintro ⟨done, ended, is⟩
      obtain ⟨e, member, rfl⟩ := List.mem_map.1 ended
      exact ⟨e, Or.inr member, is⟩
    · obtain ⟨effects, soundAfter⟩ := sound_react sound m
      obtain ⟨peer, unit, own, ⟨n, member, way⟩, place⟩ := ih soundAfter later after
      rw [soundAfter.served.node_eq, ← sound.served.node_eq, show (p.react m).plane.role = p.role from role_after p [m]]
        at way
      refine ⟨peer, unit, own, ⟨n, List.mem_cons_of_mem _ member, way⟩, place.imp_right ?_⟩
      rintro ⟨e, ended, is⟩
      exact ⟨e, Or.inr ended, is⟩

/-! ## Room for units that waited -/

/-- The units of one connection among those that waited. -/
abbrev waitingOn (l : Lcid) (units : List DeferredSdu) : List DeferredSdu := units.filter (·.lcid = l)

/-- How many data units a buffer makes of some units. -/
def load (b : TransmitBuffer) (units : List DeferredSdu) : Nat :=
  units.foldr (fun d n => b.pduCount d.sdu.length + n) 0

/-- Whether a buffer can compute how many data units it makes of each of some units. -/
def CountsAll (b : TransmitBuffer) (units : List DeferredSdu) : Prop := ∀ d ∈ units, b.Counts d.sdu.length

/-- Whether the buffer of a next hop has room for all units of a connection that waited, and can tell. -/
def RoomFor (p : DataPlane) (hop : NodeId) (path : Path) (units : List DeferredSdu) (l : Lcid) : Prop :=
  ∀ first, (waitingOn l units).head? = some first →
    (p.bufferFor hop path first).holding = false ∧ CountsAll (p.bufferFor hop path first) (waitingOn l units) ∧
      (p.bufferFor hop path first).queue.length + load (p.bufferFor hop path first) (waitingOn l units) ≤
        (p.bufferFor hop path first).capacity

theorem load_congr {b c : TransmitBuffer} (mode : c.mode = b.mode) (size : c.dataSize = b.dataSize)
    (units : List DeferredSdu) : load c units = load b units := by
  simp only [load, TransmitBuffer.pduCount, mode, size]

theorem countsAll_congr {b c : TransmitBuffer} (mode : c.mode = b.mode) (size : c.dataSize = b.dataSize)
    (units : List DeferredSdu) : CountsAll c units ↔ CountsAll b units := by
  simp only [CountsAll, TransmitBuffer.counts_iff, mode, size]

/-- A buffer that has taken a unit has as much more to send, and cuts units as before. -/
theorem offer_of_taken {b : TransmitBuffer} {d : DeferredSdu}
    (taken : (b.offer d.sn d.sdu d.recipients).1 = some true) :
    (b.offer d.sn d.sdu d.recipients).2.queue.length = b.queue.length + b.pduCount d.sdu.length := by
  rw [offer_queue, if_pos taken, List.length_append, List.length_map, TransmitBuffer.length_pdus]

variable {p : DataPlane} {hop : NodeId} {path : Path}

theorem buffers_flush (p : DataPlane) (peer : NodeId) (path : Path) (hop : NodeId) (d : DeferredSdu) :
    (p.flush peer path (some hop) d).buffers =
        p.buffers.insert ⟨hop, d.lcid⟩ ((p.bufferFor hop path d).offer d.sn d.sdu d.recipients).2 ∧
      (p.flush peer path (some hop) d).settings = p.settings := by
  have alike := alike_offer (p.join (.toPeer peer) ⟨hop, d.lcid⟩) hop path d
  exact ⟨alike.buffers, alike.settings⟩

theorem pduCount_ne_zero (cuts : p.Cuts) (valid : p.settings.link.fault? = none) (d : DeferredSdu) (length : Nat) :
    (p.bufferFor hop path d).pduCount length ≠ 0 := by
  have cut : 0 < (p.bufferFor hop path d).dataSize := by
    rw [follows_bufferFor cuts hop path d]
    exact LinkSettings.dataSize_pos valid _
  have segments := segmentCount_pos length cut
  unfold TransmitBuffer.pduCount
  split <;> omega

theorem lcid_of_head? {l : Lcid} {units : List DeferredSdu} {first : DeferredSdu}
    (found : (waitingOn l units).head? = some first) : first.lcid = l :=
  of_decide_eq_true (List.mem_filter.1 (List.mem_of_head? found)).2

/-- The buffer of a connection after a unit was offered to that of another. -/
theorem bufferFor_flush_of_ne (peer : NodeId) {d first : DeferredSdu} (other : first.lcid ≠ d.lcid) :
    (p.flush peer path (some hop) d).bufferFor hop path first = p.bufferFor hop path first := by
  obtain ⟨buffers, settings⟩ := buffers_flush p peer path hop d
  have apart : (⟨hop, first.lcid⟩ : EntityKey) ≠ ⟨hop, d.lcid⟩ := fun same => other (congrArg EntityKey.lcid same)
  unfold bufferFor
  rw [buffers, settings, SortedMap.get?_insert_of_ne _ apart]

theorem bufferFor_flush_of_eq (peer : NodeId) {d first : DeferredSdu} (same : first.lcid = d.lcid) :
    (p.flush peer path (some hop) d).bufferFor hop path first =
      ((p.bufferFor hop path d).offer d.sn d.sdu d.recipients).2 := by
  unfold bufferFor
  rw [(buffers_flush p peer path hop d).1, same, SortedMap.get?_insert_self, Option.getD_some]
  rfl

theorem roomFor_other {d : DeferredSdu} {l : Lcid} (other : d.lcid ≠ l) (peer : NodeId) (rest : List DeferredSdu) :
    p.RoomFor hop path (d :: rest) l ↔ (p.flush peer path (some hop) d).RoomFor hop path rest l := by
  have same : waitingOn l (d :: rest) = waitingOn l rest := List.filter_cons_of_neg (by simpa using other)
  unfold RoomFor
  rw [same]
  refine forall_congr' fun first => imp_congr_right fun found => ?_
  have elsewhere : first.lcid ≠ d.lcid := fun h => other (h.symm.trans (lcid_of_head? found))
  rw [bufferFor_flush_of_ne peer elsewhere]

theorem roomFor_own (peer : NodeId) (d : DeferredSdu) (rest : List DeferredSdu)
    (some_pdu : (p.bufferFor hop path d).pduCount d.sdu.length ≠ 0) :
    p.RoomFor hop path (d :: rest) d.lcid ↔
      ((p.bufferFor hop path d).offer d.sn d.sdu d.recipients).1 = some true ∧
        (p.flush peer path (some hop) d).RoomFor hop path rest d.lcid := by
  have own : waitingOn d.lcid (d :: rest) = d :: waitingOn d.lcid rest := List.filter_cons_of_pos (by simp)
  have here : p.RoomFor hop path (d :: rest) d.lcid ↔
      (p.bufferFor hop path d).holding = false ∧
        ((p.bufferFor hop path d).Counts d.sdu.length ∧
          CountsAll (p.bufferFor hop path d) (waitingOn d.lcid rest)) ∧
        (p.bufferFor hop path d).queue.length + (p.bufferFor hop path d).pduCount d.sdu.length +
            load (p.bufferFor hop path d) (waitingOn d.lcid rest) ≤ (p.bufferFor hop path d).capacity := by
    unfold RoomFor
    rw [own]
    simp only [List.head?_cons, Option.some.injEq, forall_eq', load, List.foldr_cons, Nat.add_assoc, CountsAll,
      List.forall_mem_cons]
  rw [here]
  generalize bufferIs : p.bufferFor hop path d = b at some_pdu ⊢
  have after {first : DeferredSdu} (found : (waitingOn d.lcid rest).head? = some first) :
      (p.flush peer path (some hop) d).bufferFor hop path first = (b.offer d.sn d.sdu d.recipients).2 :=
    (bufferFor_flush_of_eq peer (lcid_of_head? found)).trans (by rw [bufferIs])
  obtain ⟨mode, -, size, holding⟩ := offer_unchanged b d.sn d.sdu d.recipients
  have capacity := capacity_offer b d.sn d.sdu d.recipients
  have cost := load_congr mode size (waitingOn d.lcid rest)
  have counted := countsAll_congr mode size (waitingOn d.lcid rest)
  have takes := offer_taken_iff b d.sn d.sdu d.recipients
  constructor
  · rintro ⟨free, ⟨counts, others⟩, room⟩
    have taken := takes.2 ⟨free, counts, Nat.pos_of_ne_zero some_pdu, by omega⟩
    refine ⟨taken, fun first found => ?_⟩
    rw [after found, holding, capacity, cost, counted, offer_of_taken taken]
    exact ⟨free, others, room⟩
  · rintro ⟨taken, later⟩
    obtain ⟨free, counts, -, room⟩ := takes.1 taken
    cases found : (waitingOn d.lcid rest).head? with
    | none =>
      rw [List.head?_eq_none_iff.1 found]
      exact ⟨free, ⟨counts, fun _ member => by cases member⟩, room⟩
    | some first =>
      obtain ⟨-, others, roomAfter⟩ := later first found
      rw [after found] at others
      rw [after found, capacity, cost, offer_of_taken taken] at roomAfter
      exact ⟨free, ⟨counts, counted.1 others⟩, roomAfter⟩

/-- There is room for all units exactly if there is room for the first, and then for the others. -/
theorem roomFor_cons_iff (cuts : p.Cuts) (valid : p.settings.link.fault? = none) (peer : NodeId) (d : DeferredSdu)
    (rest : List DeferredSdu) :
    (∀ l, p.RoomFor hop path (d :: rest) l) ↔
      ((p.bufferFor hop path d).offer d.sn d.sdu d.recipients).1 = some true ∧
        ∀ l, (p.flush peer path (some hop) d).RoomFor hop path rest l := by
  have some_pdu : (p.bufferFor hop path d).pduCount d.sdu.length ≠ 0 := pduCount_ne_zero cuts valid d d.sdu.length
  constructor
  · intro room
    obtain ⟨taken, later⟩ := (roomFor_own peer d rest some_pdu).1 (room d.lcid)
    refine ⟨taken, fun l => ?_⟩
    by_cases same : d.lcid = l
    · exact same ▸ later
    · exact (roomFor_other same peer rest).1 (room l)
  · rintro ⟨taken, later⟩ l
    by_cases same : d.lcid = l
    · exact same ▸ (roomFor_own peer d rest some_pdu).2 ⟨taken, later d.lcid⟩
    · exact (roomFor_other same peer rest).2 (later l)

theorem cuts_flush (cuts : p.Cuts) (peer : NodeId) (path : Path) (hop : NodeId) (d : DeferredSdu) :
    (p.flush peer path (some hop) d).Cuts := by
  have alike := alike_offer (p.join (.toPeer peer) ⟨hop, d.lcid⟩) hop path d
  have stored := cuts_stored cuts (.toPeer peer) hop path d
  intro key b found
  rw [flush_of_some, alike.buffers] at found
  rw [flush_of_some, alike.settings]
  exact stored key b found

theorem length_flushed_le (p : DataPlane) (peer : NodeId) (path : Path) (hop : NodeId) (units : List DeferredSdu) :
    (p.flushed peer path (some hop) units).length ≤ units.length := by
  induction units generalizing p with
  | nil => exact Nat.le_refl _
  | cons d rest ih =>
    have one : (p.offered hop path d).length ≤ 1 := by
      unfold offered
      simp only
      split <;> simp
    have := ih (p.flush peer path (some hop) d)
    simp only [flushed, List.length_append, List.length_cons]
    omega

theorem offered_of_taken {d : DeferredSdu}
    (taken : ((p.bufferFor hop path d).offer d.sn d.sdu d.recipients).1 = some true) :
    (p.offered hop path d).map Admission.parcel = [d.parcel hop] := by
  have one : p.offered hop path d = _ := if_pos taken
  rw [one]
  rfl

theorem offered_of_untaken {d : DeferredSdu}
    (untaken : ¬ ((p.bufferFor hop path d).offer d.sn d.sdu d.recipients).1 = some true) :
    p.offered hop path d = [] :=
  if_neg untaken

/-- All units that waited are taken exactly if the buffers have room for all of them. -/
theorem flushed_eq_iff (cuts : p.Cuts) (valid : p.settings.link.fault? = none) (peer : NodeId)
    (units : List DeferredSdu) :
    (p.flushed peer path (some hop) units).map Admission.parcel = units.map (DeferredSdu.parcel hop) ↔
      ∀ l, p.RoomFor hop path units l := by
  induction units generalizing p with
  | nil => exact ⟨fun _ l first found => (by cases found), fun _ => rfl⟩
  | cons d rest ih =>
    have validAfter : (p.flush peer path (some hop) d).settings.link.fault? = none := by
      rw [(buffers_flush p peer path hop d).2]
      exact valid
    have later := ih (p := p.flush peer path (some hop) d) (cuts_flush cuts peer path hop d) validAfter
    rw [roomFor_cons_iff cuts valid peer d rest, ← later]
    simp only [flushed, List.map_append, List.map_cons]
    by_cases taken : ((p.bufferFor hop path d).offer d.sn d.sdu d.recipients).1 = some true
    · rw [offered_of_taken taken]
      simp [taken]
    · rw [offered_of_untaken taken]
      refine iff_of_false (fun all => ?_) fun h => taken h.1
      have length := congrArg List.length all
      have := length_flushed_le (p.flush peer path (some hop) d) peer path hop rest
      simp at length
      omega

end DataPlane

/-! ## The data plane where a switch ends -/

/-- Whether a switch ends in a data plane, of whose buffers none drains any more. -/
structure Ending.From (e : Ending) (q : DataPlane) : Prop where
  switching : ∃ check, q.switches.phase e.done.peer = .switching e.done.path check
  drained : TransmitBuffers.anyDraining q.buffers (q.links.keys e.done.peer) = false
  plane : Alike (q.switched e.done.peer e.done.path) e.plane
  deferred : e.done.deferred = q.switches.deferred e.done.peer

namespace DataPlane
variable {p : DataPlane} {directory : Directory} {timers : Timers} {e : Ending}

theorem ended_complete {peer : NodeId} {path : Path} {check : Option EventId}
    (switching : p.switches.phase peer = .switching path check)
    (drained : TransmitBuffers.anyDraining p.buffers (p.links.keys peer) = false)
    (member : e ∈ p.ended directory (p.switches.complete p.links p.buffers timers peer path)) :
    e.From p ∧ e.directory = directory := by
  obtain rfl := List.mem_singleton.1 member
  exact ⟨⟨⟨check, switching⟩, drained, ⟨rfl, rfl, rfl, rfl, rfl, rfl, rfl, rfl, rfl, rfl⟩, rfl⟩, rfl⟩

theorem ended_reevaluate {peer : NodeId}
    (member : e ∈ p.ended directory (p.switches.reevaluate p.links p.buffers timers peer)) :
    e.From p ∧ e.directory = directory := by
  have looked := PathSwitches.looked_reevaluate p.switches p.links p.buffers timers peer
  generalize p.switches.reevaluate p.links p.buffers timers peer = step at looked member
  cases looked with
  | calm still => cases member
  | waits switching draining => cases member
  | asks switching draining => cases member
  | ends switching drained => exact ended_complete switching drained member

/-- Whether a switch ends while a node deals with something. -/
def Reaches (p : DataPlane) (directory : Directory) (tasks : List Task) (e : Ending) : Prop :=
  e.directory = directory ∧ ∃ q effects, Chain (· = directory) ⟨p, tasks⟩ effects ⟨q, tasks⟩ ∧ e.From q

theorem Reaches.of_chain {q : DataPlane} {effects : List Effect} {tasks : List Task}
    (chain : Chain (· = directory) ⟨p, tasks⟩ effects ⟨q, tasks⟩) (reaches : q.Reaches directory tasks e) :
    p.Reaches directory tasks e := by
  obtain ⟨same, r, es, later, from_⟩ := reaches
  exact ⟨same, r, _, chain.trans later, from_⟩

theorem reaches_of_ended {peer : NodeId} (tasks : List Task)
    (member : e ∈ p.ended directory (p.switches.reevaluate p.links p.buffers timers peer)) :
    p.Reaches directory tasks e := by
  obtain ⟨here, same⟩ := ended_reevaluate member
  exact ⟨same, p, [], .refl _, here⟩

theorem reaches_endingsOf {peers : List NodeId} (tasks : List Task)
    (member : e ∈ p.endingsOf directory timers peers) : p.Reaches directory tasks e := by
  induction peers generalizing p timers with
  | nil => cases member
  | cons peer rest ih =>
    simp only [endingsOf, List.mem_append] at member
    rcases member with now | later
    · exact reaches_of_ended tasks now
    · exact .of_chain (reevaluate_chain p directory timers peer tasks) (ih later)

theorem reaches_start {peer : NodeId} {path : Path} {clear : Bool}
    (member : e ∈ p.ended directory (p.switches.start p.links p.buffers timers peer path clear)) :
    p.Reaches directory [] e := by
  rw [PathSwitches.start_eq] at member
  cases clear with
  | false =>
    exact .of_chain (starting_chain p directory peer path []) (reaches_of_ended (p := p.starting peer path) [] member)
  | true =>
    refine .of_chain (clearing_chain p directory peer path []) ?_
    obtain ⟨here, same⟩ := ended_complete (p := p.clearing peer path) (phase_clearing p peer path)
      (anyDraining_discard _ _) member
    exact ⟨same, _, [], .refl _, here⟩

theorem reaches_checkFired {peer : NodeId}
    (member : e ∈ p.ended directory (p.switches.checkFired p.links p.buffers timers peer)) :
    p.Reaches directory [] e := by
  rcases p.switches.checkFired_eq p.links p.buffers timers peer with ⟨-, same⟩ | ⟨target, check, switching, looks⟩
  · rw [same] at member
    cases member
  · rw [looks] at member
    exact .of_chain (.single (.recheck switching)) (reaches_of_ended
      (p := { p with switches := p.switches.setPhase peer (.switching target none) }) [] member)

/-- Every switch that ends at a moment does so in a data plane that the node comes to. -/
theorem reaches_endingsAt {m : Moment} (member : e ∈ p.endingsAt m) :
    e.directory = m.directory ∧ ∃ q tasks effects, Chain (· = m.directory) ⟨p, []⟩ effects ⟨q, tasks⟩ ∧ e.From q := by
  have whole (reaches : p.Reaches m.directory [] e) :
      e.directory = m.directory ∧
        ∃ q tasks effects, Chain (· = m.directory) ⟨p, []⟩ effects ⟨q, tasks⟩ ∧ e.From q := by
    obtain ⟨same, q, effects, chain, from_⟩ := reaches
    exact ⟨same, q, [], effects, chain, from_⟩
  obtain ⟨directory, timers, stimulus⟩ := m
  cases stimulus with
  | packet packet hint =>
    simp only [endingsAt] at member
    rcases submit_spec p directory timers packet hint with ⟨missing, -⟩ | ⟨q, route, unit, found, numbered, -⟩
    · rw [missing] at member
      cases member
    · rw [found] at member
      obtain ⟨same, r, effects, chain, from_⟩ := reaches_endingsOf [⟨route.way, unit⟩] member
      exact ⟨same, r, _, _, numbered.chain.trans chain, from_⟩
  | opportunity limit =>
    obtain ⟨effects, chain, -⟩ := transmit_leaves p directory timers.now limit
    exact whole (.of_chain chain (reaches_endingsOf [] member))
  | drainCheck peer =>
    exact whole (.of_chain (.quietly (alike_advance p timers.now)) (reaches_checkFired member))
  | pathSwitch peer path clear =>
    exact whole (.of_chain (.quietly (alike_advance p timers.now)) (reaches_start member))
  | control | peerDeparted | departed | arrival => cases member

/-! ## What a run does with the units that waited -/

theorem stepped_eq (p : DataPlane) (directory : Directory) (step : SwitchStep) :
    p.stepped directory step = (p.ended directory step).flatMap Ending.admitted := by
  unfold stepped ended
  cases step.completion with
  | none => rfl
  | some done => exact (List.flatMap_singleton _ _).symm

theorem settledAll_eq (p : DataPlane) (directory : Directory) (timers : Timers) (peers : List NodeId) :
    p.settledAll directory timers peers = (p.endingsOf directory timers peers).flatMap Ending.admitted := by
  induction peers generalizing p timers with
  | nil => rfl
  | cons peer rest ih =>
    simp only [settledAll, endingsOf, List.flatMap_append, ih, reevaluated, stepped_eq]

/-- The units that buffers take when a packet is submitted: those that waited for its peer come first. -/
theorem submitted_eq (p : DataPlane) (directory : Directory) (timers : Timers) (packet : Packet) (hint : String) :
    p.submitted directory timers packet hint =
      match p.numbered? directory timers packet hint with
      | none => []
      | some (q, route, unit) =>
        match route.peer with
        | some peer => q.sentToPeer directory timers peer unit
        | none => q.offered route.nextHop route.path unit := by
  simp only [submitted, numbered?]
  generalize (p.advance timers.now).count (fun c => { c with submitted := c.submitted + 1 }) = q
  cases DeliveryMode.ofCode? (q.settings.profiles.classify hint).modeCode.toNat with
  | none => rfl
  | some mode =>
    simp only
    cases (q.view directory).route q.role packet with
    | error reason => rfl
    | ok route =>
      simp only [routed]
      cases q.flows.lookupOrCreate (.ofEndpoints packet.endpoints ((q.view directory).direction q.role packet)) with
      | none => rfl
      | some answer =>
        obtain ⟨lcid, new, flows⟩ := answer
        simp only
        generalize (if new || !flows.descriptors.contains lcid then
          flows.setDescriptor (q.describe lcid (q.settings.profiles.classify hint)
            ((q.view directory).direction q.role packet) route) else flows) = table
        cases { q with flows := table }.number lcid <;> rfl

/-- What buffers take of the units that waited is part of what they take at that moment. -/
theorem admitted_endingsAt (p : DataPlane) (m : Moment) :
    ((p.endingsAt m).flatMap Ending.admitted).Sublist (p.admissions m) := by
  obtain ⟨directory, timers, stimulus⟩ := m
  cases stimulus with
  | packet packet hint =>
    simp only [endingsAt, admissions, submitted_eq]
    cases p.numbered? directory timers packet hint with
    | none => exact List.nil_sublist _
    | some answer =>
      obtain ⟨q, route, unit⟩ := answer
      simp only
      cases route.peer with
      | none => exact List.nil_sublist _
      | some peer =>
        simp only [Option.toList_some, ← settledAll_eq, settledAll, List.append_nil, sentToPeer]
        exact List.sublist_append_left _ _
  | opportunity limit =>
    simp only [endingsAt, admissions, settledAll_eq]
    exact List.Sublist.refl _
  | drainCheck peer | pathSwitch peer path clear =>
    simp only [endingsAt, admissions, stepped_eq]
    exact List.Sublist.refl _
  | control | peerDeparted | departed | arrival => exact List.nil_sublist _

theorem admitted_endings (p : DataPlane) (ms : List Moment) :
    ((p.endings ms).flatMap Ending.admitted).Sublist (p.admitted ms) := by
  induction ms generalizing p with
  | nil => exact List.Sublist.refl _
  | cons m rest ih =>
    simp only [endings, admitted, collect, List.flatMap_append]
    exact (admitted_endingsAt p m).append (ih (p.react m).plane)

end DataPlane

namespace Ending
variable {e : Ending} {q : DataPlane} {tasks : List Task} {hop : NodeId}

/-- Where a switch ends, the units that waited are next. -/
theorem From.chain (comes : e.From q) (directory : Directory) (tasks : List Task) :
    Chain (· = directory) ⟨q, tasks⟩ []
      ⟨e.plane, e.done.deferred.map (fun d => ⟨.toPeer e.done.peer, d⟩) ++ tasks⟩ := by
  obtain ⟨check, switching⟩ := comes.switching
  rw [comes.deferred]
  exact .before (.complete switching comes.drained) (.quietly comes.plane)

theorem admitted_iff (cuts : e.plane.Cuts) (valid : e.plane.settings.link.fault? = none)
    (leads : e.nextHop? = some hop) :
    e.admitted.map Admission.parcel = e.done.deferred.map (DeferredSdu.parcel hop) ↔
      ∀ l, e.plane.RoomFor hop e.done.path e.done.deferred l := by
  let r : DataPlane :=
    { e.plane with
      flows := e.plane.flows.setPeerPath e.done.peer e.done.path
      counters := { e.plane.counters with switchesCompleted := e.plane.counters.switchesCompleted + 1 } }
  have flushes : e.admitted = r.flushed e.done.peer e.done.path (some hop) e.done.deferred := by
    rw [← leads]
    rfl
  rw [flushes]
  exact DataPlane.flushed_eq_iff (p := r) cuts valid e.done.peer e.done.deferred

/-- The buffers of a peer are empty where its switch ends, and take units. -/
theorem From.vacant {d : Directory} (comes : e.From q) (valid : q.flows.Valid) (gated : Gated d ⟨q, tasks⟩)
    {unit : DeferredSdu} (waited : unit ∈ e.done.deferred) (hop : NodeId) (path : Path) :
    (e.plane.bufferFor hop path unit).holding = false ∧ (e.plane.bufferFor hop path unit).queue = [] ∧
      (e.plane.bufferFor hop path unit).capacity = q.settings.link.queueCapacity := by
  have there : e.plane.buffers.get? ⟨hop, unit.lcid⟩ = (q.buffers.get? ⟨hop, unit.lcid⟩).map fun b =>
      if ⟨hop, unit.lcid⟩ ∈ q.links.keys e.done.peer then b.resume else b := by
    rw [comes.plane.buffers, DataPlane.switched, TransmitBuffers.get?_onKeys]
  have settings : e.plane.settings = q.settings := comes.plane.settings
  unfold DataPlane.bufferFor
  rw [there, settings]
  cases found : q.buffers.get? ⟨hop, unit.lcid⟩ with
  | none => exact ⟨rfl, rfl, rfl⟩
  | some b =>
    obtain ⟨check, switching⟩ := comes.switching
    obtain ⟨owner, belongs, joined⟩ := gated.buffers found
    rw [comes.deferred] at waited
    have own := DataPlane.belongs_unique valid belongs (gated.waiting e.done.peer unit waited)
    have joins := joined e.done.peer own
    have member := (PeerLinks.mem_keys_iff _ _ _).2 joins
    have holds := (gated.holding found).2
      ⟨e.done.peer, joins, (PathSwitches.isSwitching_eq_true_iff _ _).2 ⟨_, check, switching⟩⟩
    have idle : b.isDraining = false := by
      rw [← Bool.not_eq_true]
      intro draining
      have busy := (TransmitBuffers.anyDraining_eq_true_iff _ _).2 ⟨_, member, b, found, draining⟩
      exact Bool.noConfusion (comes.drained.symm.trans busy)
    have empty : b.queue = [] := by simpa [TransmitBuffer.isDraining, holds] using idle
    simp only [Option.map_some, Option.getD_some]
    rw [if_pos member]
    exact ⟨rfl, empty, (gated.refused found).2⟩

/-- Whether the units of a connection that waited make no more data units than a queue has room for, as far as the
buffer of the next hop can tell. -/
def Fits (e : Ending) (settings : PlaneSettings) (hop : NodeId) (l : Lcid) : Prop :=
  ∀ first, (DataPlane.waitingOn l e.done.deferred).head? = some first →
    DataPlane.CountsAll (e.plane.bufferFor hop e.done.path first) (DataPlane.waitingOn l e.done.deferred) ∧
      DataPlane.load (e.plane.bufferFor hop e.done.path first) (DataPlane.waitingOn l e.done.deferred) ≤
        settings.link.queueCapacity

theorem From.roomFor_iff {d : Directory} (comes : e.From q) (valid : q.flows.Valid) (gated : Gated d ⟨q, tasks⟩)
    (hop : NodeId) (l : Lcid) :
    e.plane.RoomFor hop e.done.path e.done.deferred l ↔ e.Fits q.settings hop l := by
  unfold DataPlane.RoomFor Fits
  refine forall_congr' fun first => imp_congr_right fun found => ?_
  obtain ⟨free, empty, capacity⟩ :=
    comes.vacant valid gated (List.mem_filter.1 (List.mem_of_head? found)).1 hop e.done.path
  rw [empty, capacity]
  simp [free]

end Ending

namespace DataPlane
variable {node : NodeId} {role : Role} {settings : PlaneSettings} {p : DataPlane} {hs : List Effect} {e : Ending}

/-- A switch that ends in a run does so in a data plane that the node comes to. -/
theorem reaches_endings {ms : List Moment} (member : e ∈ p.endings ms) :
    ∃ q tasks effects, Chain (fun d => ∃ m ∈ ms, d = m.directory) ⟨p, []⟩ effects ⟨q, tasks⟩ ∧ e.From q := by
  induction ms generalizing p with
  | nil => cases member
  | cons m rest ih =>
    simp only [endings, collect, List.mem_append] at member
    rcases member with now | later
    · obtain ⟨-, q, tasks, effects, chain, comes⟩ := reaches_endingsAt now
      refine ⟨q, tasks, effects, chain.mono ?_, comes⟩
      rintro d rfl
      exact ⟨m, List.mem_cons_self, rfl⟩
    · obtain ⟨q, tasks, effects, chain, comes⟩ := ih later
      obtain ⟨before, first, -⟩ := react_chain p m
      refine ⟨q, tasks, before ++ effects, (first.mono ?_).trans (chain.mono ?_), comes⟩
      · rintro d rfl
        exact ⟨m, List.mem_cons_self, rfl⟩
      · rintro d ⟨n, known, rfl⟩
        exact ⟨n, List.mem_cons_of_mem _ known, rfl⟩

/-- A packet of which a new node says that it waits does so until the switch of its peer ends; the endings of a run are
as many as the node counts. Where the new path has a next hop, its buffers take all units that waited, in order, exactly
if they have room for all the data units that these make; and if positions and serving nodes are all that changes in the
directory, exactly if the units of no connection make more data units than a queue has room for. The buffers have to be
able to compute how many these are. -/
theorem waiting_admitted_iff_room (made : new node role settings = .ok p) {ms : List Moment}
    (stays : ∀ m ∈ ms, m.stimulus ≠ .departed) :
    (p.after ms).switches.counters.completed = (p.endings ms).length ∧
      (∀ x ∈ p.dispatched ms, x.2.outcome = .deferred → ∃ peer unit, DeferredSdu.IsOf settings x unit ∧
        (∃ m ∈ ms, m.directory.way? node role x.1.endpoints = some (.toPeer peer)) ∧
        (unit ∈ (p.after ms).switches.deferred peer ∨
          ∃ e ∈ p.endings ms, e.done.peer = peer ∧ unit ∈ e.done.deferred)) ∧
      ((p.endings ms).flatMap Ending.admitted).Sublist (p.admitted ms) ∧
      ∀ e ∈ p.endings ms, ∀ hop, e.nextHop? = some hop →
        (e.admitted.map Admission.parcel = e.done.deferred.map (DeferredSdu.parcel hop) ↔
          ∀ l, e.plane.RoomFor hop e.done.path e.done.deferred l) ∧
        ∀ d : Directory, (∀ m ∈ ms, d.SameNodes m.directory) →
          ((∀ l, e.plane.RoomFor hop e.done.path e.done.deferred l) ↔ ∀ l, e.Fits settings hop l) := by
  have sound := sound_new made
  have valid := link_fault?_of_new made
  refine ⟨?_, fun x answered waits => ?_, admitted_endings p ms, fun e member hop leads => ⟨?_, fun d same => ?_⟩⟩
  · have count := (releases_run p stays).completed
    rw [List.length_map] at count
    obtain ⟨-, rfl⟩ := eq_of_new made
    exact count.trans (Nat.zero_add _)
  · have place := waits_run sound stays answered waits
    rwa [sound.served.node_eq, role_new made] at place
  · obtain ⟨q, tasks, effects, chain, comes⟩ := reaches_endings member
    have kept := (chain.mono fun _ _ => trivial).trans ((comes.chain e.directory tasks).mono fun _ _ => trivial)
    have after := @Chain.invariant (fun _ => True) _ _ _ (fun hs s => Sound node settings hs s)
      (fun _ change sound => sound_change change sound) [] sound kept
    exact Ending.admitted_iff after.served.cuts (after.served.settings_eq ▸ valid) leads
  · obtain ⟨q, tasks, effects, chain, comes⟩ := reaches_endings member
    have allowed : ∀ d', (∃ m ∈ ms, d' = m.directory) → d.SameNodes d' := by
      rintro _ ⟨m, known, rfl⟩
      exact same m known
    obtain ⟨soundThere, gated⟩ := (gated_new made d).chain allowed chain sound
    refine forall_congr' fun l => ?_
    rw [comes.roomFor_iff soundThere.accounts.flows gated, soundThere.served.settings_eq]

/-- Queues with room for two data units, so short that a packet takes both. -/
def tightQueues : PlaneSettings := { PlaneSettings.default with link := ⟨2, 20, 512⟩ }

def tight : DataPlane := ((new ⟨1⟩ .peerDirect tightQueues).toOption).getD default

theorem new_tight : new ⟨1⟩ .peerDirect tightQueues = .ok tight := rfl

/-- The first node sends a packet and switches the path of the second node, and some packets wait for the switch. -/
def crowd (packets : Nat) : List Moment :=
  (Stimulus.packet .hello "voice" :: .pathSwitch ⟨2⟩ .direct false ::
    (List.replicate packets (.packet .hello "voice") ++ [.opportunity 4])).map Stimulus.inPair

theorem waiting_admitted_iff_room_at_crowd :
    new ⟨1⟩ .peerDirect tightQueues = .ok tight ∧ (∀ m ∈ crowd 1, m.stimulus ≠ .departed) ∧
      (tight.endings (crowd 1)).map (fun e => (e.nextHop?, e.done.deferred.length)) = [(some ⟨2⟩, 1)] ∧
      (tight.after (crowd 1)).switches.counters.completed = (tight.endings (crowd 1)).length ∧
      ∀ e ∈ tight.endings (crowd 1), ∀ hop, e.nextHop? = some hop →
        (e.admitted.map Admission.parcel = e.done.deferred.map (DeferredSdu.parcel hop) ↔
          ∀ l, e.plane.RoomFor hop e.done.path e.done.deferred l) ∧
        ((∀ l, e.plane.RoomFor hop e.done.path e.done.deferred l) ↔ ∀ l, e.Fits tightQueues hop l) := by
  have stays : ∀ m ∈ crowd 1, m.stimulus ≠ .departed := by simp [crowd, Stimulus.inPair]
  have same : ∀ m ∈ crowd 1, Directory.pair.SameNodes m.directory := by
    simp [crowd, Stimulus.inPair, Directory.SameNodes.refl]
  obtain ⟨count, -, -, room⟩ := waiting_admitted_iff_room new_tight stays
  refine ⟨new_tight, stays, by decide +kernel, count, fun e member hop leads => ?_⟩
  obtain ⟨taken, fits⟩ := room e member hop leads
  exact ⟨taken, fits .pair same⟩

/-- Two packets wait, as there is room for two, but the queue of the new path has room for the data units of one: the
other is lost. -/
theorem waiting_lost_at_crowd :
    new ⟨1⟩ .peerDirect tightQueues = .ok tight ∧ (∀ m ∈ crowd 2, m.stimulus ≠ .departed ∧ m.directory = .pair) ∧
      (Packet.hello, ⟨.first, some 2, .deferred⟩) ∈ tight.dispatched (crowd 2) ∧
      (tight.endings (crowd 2)).map (fun e => (e.nextHop?, e.done.deferred.map (·.sn), e.admitted.map (·.sn))) =
        [(some ⟨2⟩, [1, 2], [1])] ∧
      (∀ x ∈ tight.admitted (crowd 2), x.sn ≠ 2) ∧ (tight.after (crowd 2)).switches.deferred ⟨2⟩ = [] :=
  ⟨new_tight, by simp [crowd, Stimulus.inPair], by decide +kernel, by decide +kernel, by decide +kernel,
    by decide +kernel⟩

end DataPlane
end Sidelink
