import Sidelink.Proofs.Pending
import Sidelink.Proofs.Steps
import Sidelink.Simulation.State

/-!
The drain checks of a node in the calendar that calls it back. While a peer switches, exactly one check about it waits,
under the number that its switch remembers, and none waits for any other peer (`PathSwitches.Watched`). A look at a
peer keeps this up: it asks for a check where a buffer drains and none was asked for, and withdraws the check where the
switch ends (`Tended.of_looked`). So does everything else that a node does, as long as it is told of a check only when
that is due (`Attended.Vigilant.after`).
-/
namespace Sidelink
open Simulation (Event carryOut)

/-! ## Drain checks in a calendar -/

/-- Whether an event is a drain check of a node about a peer. -/
def Simulation.Event.asks (node peer : NodeId) : Event → Bool
  | .drainCheck n q => n = node && q = peer
  | .packet _ | .opportunity | .arrival _ _ | .pathSwitch _ _ _ _ => false

theorem Simulation.Event.asks_eq_true_iff (node peer : NodeId) (event : Event) :
    event.asks node peer = true ↔ event = .drainCheck node peer := by
  cases event <;> simp [asks]

namespace Calendar
variable {c d : Calendar Event} {node peer other : NodeId} {id : EventId}

/-- The numbers of the drain checks about a peer that wait. -/
def checks (c : Calendar Event) (node peer : NodeId) : List EventId :=
  (c.pending.filter fun e => e.event.asks node peer).map Entry.id

theorem mem_checks : id ∈ c.checks node peer ↔ ∃ e ∈ c.pending, e.event.asks node peer = true ∧ e.id = id := by
  simp only [checks, List.mem_map, List.mem_filter, and_assoc]

/-- A check is about one peer. -/
theorem checks_apart (valid : c.Valid) (one : id ∈ c.checks node peer) (two : id ∈ c.checks node other) :
    peer = other := by
  obtain ⟨x, waits, asks, rfl⟩ := mem_checks.1 one
  obtain ⟨y, waits', asks', same⟩ := mem_checks.1 two
  rw [valid.eq_of_id waits' waits same, Simulation.Event.asks_eq_true_iff] at asks'
  rw [Simulation.Event.asks_eq_true_iff] at asks
  exact (Simulation.Event.drainCheck.inj (asks.symm.trans asks')).2

theorem checks_cons (node peer : NodeId) (first : Entry Event) (rest : List (Entry Event)) :
    ((first :: rest).filter fun e => e.event.asks node peer).map Entry.id =
      (if first.event.asks node peer then [first.id] else []) ++
        (rest.filter fun e => e.event.asks node peer).map Entry.id := by
  by_cases asks : first.event.asks node peer = true
  · rw [List.filter_cons, if_pos asks, if_pos asks]
    rfl
  · rw [List.filter_cons, if_neg asks, if_neg asks]
    rfl

theorem checks_enterSoon (valid : c.Valid) (time : SimTime) (event : Event) :
    ((c.enterSoon time event).checks node peer).Perm
      ((if event.asks node peer then [c.nextId] else []) ++ c.checks node peer) := by
  have waits := ((pending_enter valid (max time c.now) event).filter fun e => e.event.asks node peer).map Entry.id
  exact waits.trans (.of_eq (checks_cons node peer _ _))

theorem checks_cancel (c : Calendar Event) (node peer : NodeId) (id : EventId) :
    (c.cancel id).2.checks node peer = (c.checks node peer).filter (· ≠ id) := by
  simp only [checks, pending_cancel, List.filter_map, List.filter_filter]
  exact congrArg _ (List.filter_congr fun e _ => Bool.and_comm _ _)

theorem nextId_cancel (c : Calendar Event) (id : EventId) : (c.cancel id).2.nextId = c.nextId := by
  unfold cancel
  split <;> rfl

theorem now_cancel (c : Calendar Event) (id : EventId) : (c.cancel id).2.now = c.now := by
  unfold cancel
  split <;> rfl

theorem checks_pop (valid : c.Valid) {entry : Entry Event} (popped : c.pop = some (entry, d)) :
    (c.checks node peer).Perm ((if entry.event.asks node peer then [entry.id] else []) ++ d.checks node peer) := by
  have waits := ((pop_spec valid popped).1.filter fun e => e.event.asks node peer).map Entry.id
  exact waits.trans (.of_eq (checks_cons node peer _ _))

/-- Whether a calendar comes from another by entering drain checks of a node, due at an instant or at once where that
has passed, and withdrawing drain checks of the node. -/
structure Rechecked (node : NodeId) (due : SimTime) (c d : Calendar Event) : Prop where
  now : d.now = c.now
  entries : ∃ asked withdrawn : List (Entry Event), (asked ++ c.pending).Perm (withdrawn ++ d.pending) ∧
    (∀ e ∈ asked, e.time = max due c.now ∧ ∃ peer, e.event = .drainCheck node peer) ∧
    ∀ e ∈ withdrawn, ∃ peer, e.event = .drainCheck node peer

theorem Rechecked.refl (node : NodeId) (due : SimTime) (c : Calendar Event) : c.Rechecked node due c :=
  ⟨rfl, [], [], .refl _, by simp, by simp⟩

theorem Rechecked.enter {due : SimTime} (rechecked : c.Rechecked node due d) (valid : d.Valid) (peer : NodeId) :
    c.Rechecked node due (d.enterSoon due (.drainCheck node peer)) := by
  obtain ⟨now, asked, withdrawn, entries, due_then, own⟩ := rechecked
  let entry : Entry Event := ⟨max due d.now, d.nextId, .drainCheck node peer⟩
  refine ⟨now, entry :: asked, withdrawn, ?_, fun e member => ?_, own⟩
  · have waits : (d.enterSoon due (.drainCheck node peer)).pending.Perm (entry :: d.pending) := pending_enter valid _ _
    exact (entries.cons entry).trans (List.perm_middle.symm.trans (waits.symm.append_left _))
  · rcases List.mem_cons.1 member with rfl | old
    · exact ⟨by rw [← now], peer, rfl⟩
    · exact due_then e old

theorem Rechecked.cancel {due : SimTime} (rechecked : c.Rechecked node due d) (valid : d.Valid)
    (asked : id ∈ d.checks node peer) : c.Rechecked node due (d.cancel id).2 := by
  obtain ⟨entry, waits, asks, rfl⟩ := mem_checks.1 asked
  obtain ⟨now, asked, withdrawn, entries, due_then, own⟩ := rechecked
  refine ⟨(now_cancel d _).trans now, asked, withdrawn ++ [entry], ?_, due_then, fun e member => ?_⟩
  · rw [List.append_assoc]
    exact entries.trans ((pending_of_cancel valid waits).append_left _)
  · rcases List.mem_append.1 member with old | new
    · exact own e old
    · exact ⟨peer, List.mem_singleton.1 new ▸ (Simulation.Event.asks_eq_true_iff _ _ _).1 asks⟩

end Calendar

/-! ## Checks of switches -/

namespace Timers
variable {t : Timers} {node : NodeId} {c : Calendar Event}

/-- A calendar once the requests of a node were carried out. -/
def carried (t : Timers) (node : NodeId) (c : Calendar Event) : Calendar Event := t.requests.foldl (carryOut node) c

theorem carried_start (t : Timers) (node : NodeId) (c : Calendar Event) (time : SimTime) (peer : NodeId) :
    (t.start time peer).2.carried node c = (t.carried node c).enterSoon time (.drainCheck node peer) := by
  simp only [carried, start, List.foldl_append]
  rfl

theorem carried_cancel (t : Timers) (node : NodeId) (c : Calendar Event) (id : EventId) :
    (t.cancel id).carried node c = ((t.carried node c).cancel id).2 := by
  simp only [carried, cancel, List.foldl_append]
  rfl

end Timers

theorem perm_toList {α : Type} {l : List α} {o : Option α} (perm : l.Perm o.toList) : l = o.toList := by
  cases o with
  | none => exact perm.eq_nil
  | some a => exact List.perm_singleton.1 perm

theorem toList_perm_cons {α : Type} {o : Option α} {a : α} {l : List α} (perm : o.toList.Perm (a :: l)) :
    o = some a ∧ l = [] := by
  cases o with
  | none => exact absurd perm.symm.eq_nil (List.cons_ne_nil _ _)
  | some b =>
    obtain ⟨rfl, rfl⟩ := List.cons.inj (List.perm_singleton.1 perm.symm)
    exact ⟨rfl, rfl⟩

namespace PathSwitches
variable {s s' : PathSwitches} {node peer : NodeId} {c : Calendar Event}

/-- Whether the drain checks that wait are those that the switches under way remember. -/
structure Watched (s : PathSwitches) (node : NodeId) (c : Calendar Event) : Prop where
  valid : c.Valid
  checks : ∀ peer, c.checks node peer = (s.phase peer).check?.toList

theorem Watched.congr (watched : s.Watched node c) (same : ∀ peer, (s'.phase peer).check? = (s.phase peer).check?) :
    s'.Watched node c :=
  ⟨watched.valid, fun peer => (same peer).symm ▸ watched.checks peer⟩

/-- Whether a check about a peer was asked for if it switches. -/
def Armed (s : PathSwitches) (peer : NodeId) : Prop :=
  s.isSwitching peer = true → ∃ id, (s.phase peer).check? = some id

theorem check?_insert {entry : PeerSwitch} (changed : s'.peers = s.peers.insert peer entry) (other : NodeId) :
    (s'.phase other).check? = if other = peer then entry.phase.check? else (s.phase other).check? := by
  rw [phase_insert changed]
  split <;> rfl

theorem check?_setPhase (s : PathSwitches) (peer : NodeId) (phase : SwitchPhase) (other : NodeId) :
    ((s.setPhase peer phase).phase other).check? = if other = peer then phase.check? else (s.phase other).check? := by
  have changed : (s.setPhase peer phase).peers = s.peers.insert peer ⟨phase, s.deferred peer⟩ := rfl
  exact check?_insert changed other

theorem check?_complete (s : PathSwitches) (links : PeerLinks) (buffers : TransmitBuffers) (timers : Timers)
    (peer : NodeId) (path : Path) (other : NodeId) :
    ((s.complete links buffers timers peer path).switches.phase other).check? =
      if other = peer then none else (s.phase other).check? := by
  have changed : (s.complete links buffers timers peer path).switches.peers = s.peers.insert peer ⟨.switched, []⟩ := rfl
  exact check?_insert changed other

theorem armed_insert {entry : PeerSwitch} (changed : s'.peers = s.peers.insert peer entry) {other : NodeId}
    (different : other ≠ peer) (armed : s.Armed other) : s'.Armed other := by
  intro switching
  rw [isSwitching_insert changed different] at switching
  rw [check?_insert changed, if_neg different]
  exact armed switching

theorem interval_defer (s : PathSwitches) (peer : NodeId) (unit : DeferredSdu) :
    (s.defer peer unit).2.interval = s.interval := by
  unfold defer
  split
  · rfl
  · split <;> rfl

theorem phase_defer (s : PathSwitches) (peer : NodeId) (unit : DeferredSdu) (other : NodeId) :
    (s.defer peer unit).2.phase other = s.phase other := by
  unfold defer
  split
  · rfl
  · rename_i state found
    split
    · rfl
    · exact phase_waited found _ other

/-- A look at a peer arms it. -/
theorem armed_looked {links : PeerLinks} {buffers : TransmitBuffers} {timers : Timers} {step : SwitchStep}
    (looked : s.Looked links buffers timers peer step) (others : ∀ other, other ≠ peer → s.Armed other)
    (other : NodeId) : step.switches.Armed other := by
  by_cases same : other = peer
  · subst same
    intro switching
    cases looked with
    | calm still => exact absurd switching (Bool.not_eq_true _ ▸ still)
    | waits phase draining => exact ⟨_, congrArg SwitchPhase.check? phase⟩
    | asks phase draining => exact ⟨_, congrArg SwitchPhase.check? (phase_setPhase _ _ _)⟩
    | ends phase drained =>
      simp [complete, isSwitching, PathSwitches.phase] at switching
  · cases looked with
    | calm still => exact others other same
    | waits phase draining => exact others other same
    | asks phase draining => exact armed_insert rfl same (others other same)
    | ends phase drained => exact armed_insert (s := s) rfl same (others other same)

end PathSwitches

/-- Whether the checks that wait are those of the switches under way, once the requests made so far are carried out, and
nothing else was entered or withdrawn. At an instant, checks are asked for at a pace. -/
structure Tended (node : NodeId) (now : SimTime) (pace : Nat) (c : Calendar Event) (s : PathSwitches) (t : Timers) :
    Prop where
  watched : s.Watched node (t.carried node c)
  next : (t.carried node c).nextId = t.nextId
  rechecked : c.Rechecked node (now.plusMicros pace) (t.carried node c)
  clock : t.now = now
  pace : s.interval = pace

namespace Tended
variable {node peer : NodeId} {now : SimTime} {pace : Nat} {c : Calendar Event} {s s' : PathSwitches} {t : Timers}

theorem congr (tended : Tended node now pace c s t) (same : ∀ peer, (s'.phase peer).check? = (s.phase peer).check?)
    (interval : s'.interval = s.interval) : Tended node now pace c s' t :=
  ⟨tended.watched.congr same, tended.next, tended.rechecked, tended.clock, interval.trans tended.pace⟩

theorem of_asks (tended : Tended node now pace c s t) (unasked : (s.phase peer).check? = none)
    (interval : s'.interval = s.interval)
    (after : ∀ other, (s'.phase other).check? = if other = peer then some t.nextId else (s.phase other).check?) :
    Tended node now pace c s' (t.start (t.now.plusMicros s.interval) peer).2 := by
  have valid := tended.watched.valid
  refine ⟨?_, ?_, ?_, tended.clock, interval.trans tended.pace⟩
  · rw [Timers.carried_start]
    refine ⟨Calendar.valid_enter valid _ _, fun other => perm_toList ?_⟩
    refine (Calendar.checks_enterSoon valid _ (.drainCheck node peer)).trans (.of_eq ?_)
    rw [after, tended.watched.checks, tended.next]
    by_cases same : other = peer
    · simp [Simulation.Event.asks, same, unasked]
    · simp [Simulation.Event.asks, same, Ne.symm same]
  · rw [Timers.carried_start]
    exact congrArg (· + 1) tended.next
  · rw [Timers.carried_start, tended.clock, tended.pace]
    exact tended.rechecked.enter valid peer

theorem of_withdrawn (tended : Tended node now pace c s t) (interval : s'.interval = s.interval)
    (after : ∀ other, (s'.phase other).check? = if other = peer then none else (s.phase other).check?) :
    Tended node now pace c s' (t.withdraw (s.phase peer).check?) := by
  cases asked : (s.phase peer).check? with
  | none =>
    refine tended.congr (fun other => ?_) interval
    rw [after]
    split
    · rename_i same
      rw [same, asked]
    · rfl
  | some id =>
    have here : id ∈ (t.carried node c).checks node peer := by simp [tended.watched.checks, asked]
    simp only [Timers.withdraw]
    refine ⟨?_, ?_, ?_, tended.clock, interval.trans tended.pace⟩
    · rw [Timers.carried_cancel]
      refine ⟨Calendar.valid_cancel tended.watched.valid id, fun other => ?_⟩
      rw [Calendar.checks_cancel, after]
      by_cases same : other = peer
      · simp [same, tended.watched.checks, asked]
      · rw [if_neg same, ← tended.watched.checks]
        refine List.filter_eq_self.2 fun x member => decide_eq_true ?_
        rintro rfl
        exact same (Calendar.checks_apart tended.watched.valid member here)
    · rw [Timers.carried_cancel, Calendar.nextId_cancel]
      exact tended.next
    · rw [Timers.carried_cancel]
      exact tended.rechecked.cancel tended.watched.valid here

theorem of_looked (tended : Tended node now pace c s t) {links : PeerLinks} {buffers : TransmitBuffers} {step : SwitchStep}
    (looked : s.Looked links buffers t peer step) : Tended node now pace c step.switches step.timers := by
  cases looked with
  | calm still => exact tended
  | waits switching draining => exact tended
  | asks switching draining =>
    exact tended.of_asks (congrArg SwitchPhase.check? switching) rfl (PathSwitches.check?_setPhase s peer _)
  | ends switching drained =>
    have check := congrArg SwitchPhase.check? switching
    rw [SwitchPhase.check?] at check
    rw [← check]
    exact tended.of_withdrawn rfl (PathSwitches.check?_complete s links buffers _ peer _)

/-- The check of an earlier switch is withdrawn when another begins. -/
theorem of_start (tended : Tended node now pace c s t) (links : PeerLinks) (buffers : TransmitBuffers) (path : Path)
    (clear : Bool) :
    Tended node now pace c (s.start links buffers t peer path clear).switches
      (s.start links buffers t peer path clear).timers := by
  rw [PathSwitches.start_eq]
  have begun : Tended node now pace c (s.begun peer path) (t.withdraw (s.phase peer).check?) :=
    tended.of_withdrawn rfl (PathSwitches.check?_setPhase s peer (.switching path none))
  cases clear with
  | false => exact begun.of_looked (PathSwitches.looked_reevaluate _ _ _ _ _)
  | true =>
    refine begun.congr (fun other => ?_) rfl
    refine (PathSwitches.check?_complete _ _ _ _ peer path other).trans ?_
    have before : ((s.begun peer path).phase other).check? = _ :=
      PathSwitches.check?_setPhase s peer (.switching path none) other
    split
    · rename_i same
      exact (before.trans (if_pos same)).symm
    · rfl

end Tended

theorem PathSwitches.armed_start {s : PathSwitches} (armed : ∀ other, s.Armed other) (links : PeerLinks)
    (buffers : TransmitBuffers) (timers : Timers) (peer : NodeId) (path : Path) (clear : Bool) (other : NodeId) :
    (s.start links buffers timers peer path clear).switches.Armed other := by
  have others (other : NodeId) (different : other ≠ peer) : (s.begun peer path).Armed other :=
    armed_insert (s := s) rfl different (armed other)
  rw [start_eq]
  cases clear with
  | false => exact armed_looked (looked_reevaluate _ _ _ _ _) others other
  | true =>
    by_cases same : other = peer
    · intro switching
      simp [complete, isSwitching, PathSwitches.phase, same] at switching
    · exact armed_insert (s := s.begun peer path) rfl same (others other same)

/-! ## What a node does to its checks -/

/-- Whether the checks are in order, and every peer that switches has one. -/
structure Kept (node : NodeId) (now : SimTime) (pace : Nat) (c : Calendar Event) (s : PathSwitches) (t : Timers) :
    Prop where
  tended : Tended node now pace c s t
  armed : ∀ peer, s.Armed peer

theorem Kept.congr {node : NodeId} {now : SimTime} {pace : Nat} {c : Calendar Event} {s s' : PathSwitches} {t : Timers}
    (kept : Kept node now pace c s t) (same : ∀ peer, s'.phase peer = s.phase peer)
    (interval : s'.interval = s.interval) : Kept node now pace c s' t := by
  refine ⟨kept.tended.congr (fun peer => congrArg _ (same peer)) interval, fun peer switching => ?_⟩
  rw [same]
  exact kept.armed peer ((PathSwitches.isSwitching_of_phase (same peer)).symm.trans switching)

namespace DataPlane
variable {p : DataPlane} {node : NodeId} {now : SimTime} {pace : Nat} {c : Calendar Event} {directory : Directory}
  {timers : Timers}

theorem kept_reevaluate (kept : Kept node now pace c p.switches timers) (peer : NodeId) :
    Kept node now pace c (p.reevaluate directory timers peer).1.switches (p.reevaluate directory timers peer).2 := by
  have looked := PathSwitches.looked_reevaluate p.switches p.links p.buffers timers peer
  unfold reevaluate
  rw [switches_applyStep, timers_applyStep]
  exact ⟨kept.tended.of_looked looked, PathSwitches.armed_looked looked fun other _ => kept.armed other⟩

theorem kept_reevaluateAll (kept : Kept node now pace c p.switches timers) (peers : List NodeId) :
    Kept node now pace c (peers.foldl (fun (p, timers) peer => p.reevaluate directory timers peer) (p, timers)).1.switches
      (peers.foldl (fun (p, timers) peer => p.reevaluate directory timers peer) (p, timers)).2 := by
  induction peers generalizing p timers with
  | nil => exact kept
  | cons peer rest ih => exact ih (kept_reevaluate kept peer)

theorem kept_sendToPeer (kept : Kept node now pace c p.switches timers) (peer : NodeId) (unit : DeferredSdu) :
    Kept node now pace c (p.sendToPeer directory timers peer unit).2.1.switches
      (p.sendToPeer directory timers peer unit).2.2 := by
  have looked : Kept node now pace c (p.reevaluate directory timers peer).1.switches (p.reevaluate directory timers peer).2 :=
    kept_reevaluate kept peer
  simp only [sendToPeer]
  generalize (p.reevaluate directory timers peer).1 = q at looked ⊢
  split
  · have waits := looked.congr (PathSwitches.phase_defer q.switches peer unit) (PathSwitches.interval_defer _ _ _)
    split <;> exact waits
  · split
    · exact looked
    · rename_i hop _
      let linked : DataPlane := { q with links := q.links.add peer ⟨hop, unit.lcid⟩ }
      have same : _ = q.switches := switches_offer linked hop (q.switches.currentPath peer) unit
      rw [← same] at looked
      exact looked

theorem kept_sendOn (kept : Kept node now pace c p.switches timers) (route : Route) (unit : DeferredSdu) :
    Kept node now pace c (p.sendOn directory timers route unit).2.1.switches (p.sendOn directory timers route unit).2.2 := by
  unfold sendOn
  cases route.peer with
  | none =>
    simp only [switches_offer p route.nextHop route.path unit]
    exact kept
  | some peer => exact kept_sendToPeer kept peer unit

/-- The clock with all that a node asks for at a moment. -/
def asked (p : DataPlane) (m : Moment) : Timers :=
  match m.stimulus with
  | .packet packet hint => (p.submit m.directory m.timers packet hint).timers
  | .control payload => (p.submitControl m.directory m.timers payload).timers
  | .opportunity limit => ((p.transmit m.timers.now limit).2.settle m.directory m.timers).2
  | .drainCheck peer => (p.drainCheck m.directory m.timers peer).2
  | .pathSwitch peer path clear => (p.switchPath m.directory m.timers peer path clear).2.2
  | .peerDeparted _ | .departed | .arrival _ => m.timers

/-- Whatever happens to a node keeps its checks in order, unless it departs or is told that a check is due. -/
theorem kept_react {m : Moment} (kept : Kept node now pace c p.switches m.timers) (stays : m.stimulus ≠ .departed)
    (unchecked : ∀ peer, m.stimulus ≠ .drainCheck peer) :
    Kept node now pace c (p.react m).plane.switches (p.asked m) := by
  obtain ⟨directory, timers, stimulus⟩ := m
  cases stimulus with
  | packet packet hint =>
    simp only [react, asked]
    rcases submit_spec p directory timers packet hint with ⟨-, unnumbered⟩ | ⟨q, route, unit, -, numbered, sent⟩
    · rw [unnumbered.switches, unnumbered.timers]
      exact kept
    · rw [sent]
      rw [← numbered.switches] at kept
      exact kept_sendOn kept route unit
  | control payload =>
    obtain ⟨switches, same⟩ := switches_submitControl p directory timers payload
    simp only [react, asked, switches, same]
    exact kept
  | opportunity limit =>
    simp only [react, asked]
    rw [← switches_transmit p timers.now limit] at kept
    exact kept_reevaluateAll kept _
  | drainCheck peer => exact absurd rfl (unchecked peer)
  | pathSwitch peer path clear =>
    simp only [react, asked, switchPath, switches_replaceReceivers, switches_applyStep, timers_applyStep]
    rw [← switches_advance p timers.now] at kept
    exact ⟨kept.tended.of_start _ _ path clear, PathSwitches.armed_start kept.armed _ _ _ peer path clear⟩
  | peerDeparted peer => exact kept
  | departed => exact absurd rfl stays
  | arrival frame =>
    simp only [react, asked, switches_deliver]
    exact kept

/-- A check that is due is spent, and its peer is looked at. -/
theorem kept_drainCheck {peer : NodeId} {target : Path} {check : Option EventId}
    (switching : p.switches.phase peer = .switching target check)
    (spent : Tended node now pace c (p.switches.setPhase peer (.switching target none)) timers)
    (armed : ∀ other, other ≠ peer → p.switches.Armed other) :
    Kept node now pace c (p.drainCheck directory timers peer).1.switches (p.drainCheck directory timers peer).2 := by
  simp only [drainCheck, switches_applyStep, timers_applyStep, switches_advance]
  rcases p.switches.checkFired_eq (p.advance timers.now).links (p.advance timers.now).buffers timers peer with
    ⟨still, -⟩ | ⟨target', check', phase, looks⟩
  · simp only [PathSwitches.isSwitching, switching] at still
    cases still
  · obtain ⟨rfl, -⟩ := SwitchPhase.switching.inj (switching.symm.trans phase)
    rw [looks]
    have looked := PathSwitches.looked_reevaluate (p.switches.setPhase peer (.switching target none))
      (p.advance timers.now).links (p.advance timers.now).buffers timers peer
    refine ⟨spent.of_looked looked, PathSwitches.armed_looked looked fun other different => ?_⟩
    exact PathSwitches.armed_insert (s := p.switches) rfl different (armed other different)

end DataPlane

/-! ## A node that is called back -/

/-- A node and the calendar that calls it back. -/
structure Attended where
  plane : DataPlane
  calendar : Calendar Event

/-- What can happen to a node that is called back, or to its calendar. -/
inductive Turn where
  /-- Something happens to the node at an instant. The node does not look at the calendar while it sends frames, so
  events that others enter for them may as well be entered before. -/
  | moment (directory : Directory) (now : SimTime) (stimulus : Stimulus)
  /-- The next event is due. If it is a drain check of the node, the node is told; what other events do to the node are
  moments of their own. -/
  | due (directory : Directory) (now : SimTime)
  /-- Others enter an event. -/
  | entered (time : SimTime) (event : Event)

namespace Attended

/-- The node deals with a moment, and the calendar with what the node asks for. -/
def deal (w : Attended) (directory : Directory) (now : SimTime) (stimulus : Stimulus) : Attended :=
  let m : Moment := ⟨directory, ⟨now, w.calendar.nextId, []⟩, stimulus⟩
  ⟨(w.plane.react m).plane, (w.plane.asked m).carried w.plane.node w.calendar⟩

def step (w : Attended) : Turn → Attended
  | .moment directory now stimulus => w.deal directory now stimulus
  | .due directory now =>
    match w.calendar.pop with
    | none => w
    | some (entry, calendar) =>
      let w := { w with calendar }
      match entry.event with
      | .drainCheck node peer => if node = w.plane.node then w.deal directory now (.drainCheck peer) else w
      | .packet _ | .opportunity | .arrival _ _ | .pathSwitch _ _ _ _ => w
  | .entered time event => { w with calendar := w.calendar.enterSoon time event }

def after (w : Attended) (turns : List Turn) : Attended := turns.foldl step w

end Attended

/-- Whether the drain checks of the node are its own and come by the calendar only, and the node does not depart. -/
def Turn.Proper (node : NodeId) : Turn → Prop
  | .moment _ _ stimulus => stimulus ≠ .departed ∧ ∀ peer, stimulus ≠ .drainCheck peer
  | .due _ _ => True
  | .entered _ event => ∀ peer, event ≠ .drainCheck node peer

namespace Attended
variable {w : Attended} {node : NodeId}

/-- Whether the checks that wait are those that the node's switches need. -/
structure Vigilant (node : NodeId) (w : Attended) : Prop where
  own : w.plane.node = node
  watched : w.plane.switches.Watched node w.calendar
  armed : ∀ peer, w.plane.switches.Armed peer

theorem Vigilant.kept (vigilant : w.Vigilant node) (now : SimTime) :
    Kept node now w.plane.switches.interval w.calendar w.plane.switches ⟨now, w.calendar.nextId, []⟩ :=
  ⟨⟨vigilant.watched, rfl, .refl _ _ _, rfl, rfl⟩, vigilant.armed⟩

theorem Vigilant.of_kept (own : w.plane.node = node) {directory : Directory} {now : SimTime} {pace : Nat}
    {stimulus : Stimulus} (kept : Kept node now pace w.calendar
      (w.plane.react ⟨directory, ⟨now, w.calendar.nextId, []⟩, stimulus⟩).plane.switches
      (w.plane.asked ⟨directory, ⟨now, w.calendar.nextId, []⟩, stimulus⟩)) :
    (w.deal directory now stimulus).Vigilant node where
  own := (DataPlane.fixed_react _ _).1.trans own
  watched := by
    simp only [deal, own]
    exact kept.tended.watched
  armed := kept.armed

/-- A check that is due is the one that its switch remembers. -/
theorem Vigilant.kept_due (vigilant : w.Vigilant node) {entry : Calendar.Entry Event} {calendar : Calendar Event}
    (popped : w.calendar.pop = some (entry, calendar)) {peer : NodeId} (event : entry.event = .drainCheck node peer)
    (directory : Directory) (now : SimTime) :
    let m : Moment := ⟨directory, ⟨now, calendar.nextId, []⟩, .drainCheck peer⟩
    Kept node now w.plane.switches.interval calendar (w.plane.react m).plane.switches (w.plane.asked m) := by
  have valid := vigilant.watched.valid
  have checks (other : NodeId) : (w.plane.switches.phase other).check?.toList.Perm _ :=
    vigilant.watched.checks other ▸ Calendar.checks_pop valid popped
  have here := checks peer
  rw [if_pos ((Simulation.Event.asks_eq_true_iff _ _ _).2 event)] at here
  obtain ⟨remembered, none_left⟩ := toList_perm_cons here
  obtain ⟨target, switching⟩ : ∃ target, w.plane.switches.phase peer = .switching target (some entry.id) := by
    cases phase : w.plane.switches.phase peer with
    | active | switched => simp [phase, SwitchPhase.check?] at remembered
    | switching target check =>
      rw [phase, SwitchPhase.check?] at remembered
      exact ⟨target, by rw [remembered]⟩
  have spent : Tended node now w.plane.switches.interval calendar
      (w.plane.switches.setPhase peer (.switching target none)) ⟨now, calendar.nextId, []⟩ := by
    refine ⟨⟨(Calendar.pop_spec valid popped).2.1, fun other => perm_toList ?_⟩, rfl, .refl _ _ _, rfl, rfl⟩
    rw [PathSwitches.check?_setPhase]
    by_cases same : other = peer
    · subst same
      rw [if_pos rfl]
      exact .of_eq none_left
    · have others := checks other
      rw [event, if_neg (by simp [Simulation.Event.asks, Ne.symm same])] at others
      rw [if_neg same]
      exact others.symm
  exact DataPlane.kept_drainCheck switching spent fun other _ => vigilant.armed other

theorem Vigilant.due (vigilant : w.Vigilant node) {entry : Calendar.Entry Event} {calendar : Calendar Event}
    (popped : w.calendar.pop = some (entry, calendar)) {peer : NodeId} (event : entry.event = .drainCheck node peer)
    (directory : Directory) (now : SimTime) :
    ({ w with calendar }.deal directory now (.drainCheck peer)).Vigilant node :=
  .of_kept (w := { w with calendar }) vigilant.own (vigilant.kept_due popped event directory now)

/-- An event that is no check of the node leaves the checks that wait as they are. -/
theorem Vigilant.of_pop (vigilant : w.Vigilant node) {entry : Calendar.Entry Event} {calendar : Calendar Event}
    (popped : w.calendar.pop = some (entry, calendar)) (other : ∀ peer, entry.event ≠ .drainCheck node peer) :
    ({ w with calendar } : Attended).Vigilant node := by
  refine ⟨vigilant.own, ⟨(Calendar.pop_spec vigilant.watched.valid popped).2.1, fun peer => perm_toList ?_⟩,
    vigilant.armed⟩
  have waits := vigilant.watched.checks peer ▸ Calendar.checks_pop vigilant.watched.valid popped
  rw [if_neg fun asks => other peer ((Simulation.Event.asks_eq_true_iff _ _ _).1 asks)] at waits
  exact waits.symm

theorem Vigilant.step (vigilant : w.Vigilant node) {turn : Turn} (proper : turn.Proper node) :
    (w.step turn).Vigilant node := by
  cases turn with
  | moment directory now stimulus =>
    exact .of_kept vigilant.own (DataPlane.kept_react (vigilant.kept now) proper.1 proper.2)
  | entered time event =>
    refine ⟨vigilant.own, ⟨Calendar.valid_enter vigilant.watched.valid _ _, fun peer => perm_toList ?_⟩, vigilant.armed⟩
    have waits : ((w.calendar.enterSoon time event).checks node peer).Perm _ :=
      Calendar.checks_enterSoon vigilant.watched.valid time event
    rw [if_neg fun asks => proper peer ((Simulation.Event.asks_eq_true_iff _ _ _).1 asks), List.nil_append,
      vigilant.watched.checks] at waits
    exact waits
  | due directory now =>
    unfold Attended.step
    cases popped : w.calendar.pop with
    | none => exact vigilant
    | some answer =>
      obtain ⟨entry, calendar⟩ := answer
      cases event : entry.event with
      | drainCheck n peer =>
        simp only [event]
        by_cases own : n = w.plane.node
        · rw [if_pos own]
          obtain rfl : n = node := own.trans vigilant.own
          exact vigilant.due popped event directory now
        · rw [if_neg own]
          refine vigilant.of_pop popped fun peer' same => own ?_
          rw [event] at same
          exact (Simulation.Event.drainCheck.inj same).1.trans vigilant.own.symm
      | packet flow | opportunity | arrival n frame | pathSwitch n peer path clear =>
        simp only [event]
        exact vigilant.of_pop popped (by simp [event])

theorem Vigilant.after (vigilant : w.Vigilant node) {turns : List Turn} (proper : ∀ turn ∈ turns, turn.Proper node) :
    (w.after turns).Vigilant node := by
  induction turns generalizing w with
  | nil => exact vigilant
  | cons turn rest ih =>
    exact ih (vigilant.step (proper turn List.mem_cons_self)) fun t member => proper t (List.mem_cons_of_mem _ member)

/-- A new node has no switches, and a new calendar no events. -/
theorem vigilant_new {role : Role} {settings : PlaneSettings} {p : DataPlane}
    (made : DataPlane.new node role settings = .ok p) : (⟨p, .empty⟩ : Attended).Vigilant node := by
  obtain ⟨-, rfl⟩ := DataPlane.eq_of_new made
  exact ⟨rfl, ⟨Calendar.valid_empty, fun peer => rfl⟩, fun peer switching => by cases switching⟩

end Attended
end Sidelink
