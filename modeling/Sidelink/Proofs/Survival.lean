import Sidelink.Proofs.Replacement
import Sidelink.Proofs.Units

/-!
What becomes of the receivers of groups. The departure of a peer leaves the receivers on the path of groups alone. A
switch of the node that a group hears, though, leads all receivers from this node to the new path, those of groups
included, and a later departure then takes them for the receivers of a peer (`DataPlane.group_lost_at_rerouting`). So a
receiver of a group stays, on its path and with all numbers done with that were, exactly if no switch leads its sender
to another path and no segment moves its lower edge back (`DataPlane.group_survives_iff`).
-/
namespace Sidelink

/-! ## Receivers -/

namespace ReceiveState

/-- An edge that moves back leaves a number undone. -/
theorem undone_of_edge_lt {s t : ReceiveState} (settled : s.Settled) (settled' : t.Settled) (back : t.edge < s.edge) :
    ∃ n, s.Done n ∧ ¬ t.Done n := by
  refine ⟨t.edge, Or.inl back, ?_⟩
  rintro (below | given)
  · exact Nat.lt_irrefl _ below
  · have top := settled'.gap given
    have bound := settled.edge_le
    omega

end ReceiveState

namespace Receiver
variable {r r' : Receiver}

theorem state_next (r : Receiver) (pdu : Bytes) : (r.next pdu).state = (r.state.take r.window pdu).2 := by
  rw [next]
  cases received : r.receive pdu with
  | error cause => rw [take_of_receive_error received]
  | ok answer => rw [(take_of_receive received).1]

theorem path_next (r : Receiver) (pdu : Bytes) : (r.next pdu).path = r.path := by
  rw [next]
  split
  · rename_i received
    rw [(take_of_receive received).2]
  · rfl

theorem window_foldl_next (r : Receiver) (pdus : List Bytes) : (pdus.foldl next r).window = r.window := by
  induction pdus generalizing r with
  | nil => rfl
  | cons pdu rest ih => exact (ih _).trans (next_window r pdu)

/-- Everything stays done with exactly if the edge does not move back. -/
theorem done_next_iff (settled : r.state.Settled) (positive : 0 < r.window) (pdu : Bytes) :
    (∀ n, r.state.Done n → (r.next pdu).state.Done n) ↔ ¬ r.Retreats pdu := by
  constructor
  · intro kept retreats
    have back : (r.next pdu).state.edge < r.state.edge := by
      rw [← Nat.not_le, edge_le_next_iff settled positive, Classical.not_not]
      exact retreats
    obtain ⟨n, done, undone⟩ := ReceiveState.undone_of_edge_lt settled (settled_next settled pdu) back
    exact undone (kept n done)
  · intro steady n done
    exact done_next positive steady done

/-- Neither the path nor the key of a receiver matters to its edge. -/
theorem steady_congr (state : r'.state = r.state) (window : r'.window = r.window) (pdus : List Bytes) :
    r'.Steady pdus ↔ r.Steady pdus := by
  induction pdus generalizing r r' with
  | nil => exact Iff.rfl
  | cons pdu rest ih =>
    have after : (r'.next pdu).state = (r.next pdu).state := by rw [state_next, state_next, state, window]
    simp only [Steady, Retreats, state, window]
    exact and_congr_right fun _ => ih after (by rw [next_window, next_window, window])

theorem steady_append (r : Receiver) (pdus more : List Bytes) :
    r.Steady (pdus ++ more) ↔ r.Steady pdus ∧ (pdus.foldl next r).Steady more := by
  induction pdus generalizing r with
  | nil => simp [Steady]
  | cons pdu rest ih => simp only [List.cons_append, Steady, List.foldl_cons, ih, and_assoc]

end Receiver

/-! ## What receivers meet -/

/-- Whether the node stays, and no switch gives up units that are not complete. -/
def Stimulus.Remains : Stimulus → Prop
  | .pathSwitch _ _ clear => clear = false
  | .departed => False
  | .packet _ _ | .control _ | .opportunity _ | .drainCheck _ | .peerDeparted _ | .arrival _ => True

namespace Moment

/-- The segments that arrive for a receiver. -/
def segments (key : EntityKey) (m : Moment) : List Bytes :=
  match m.stimulus with
  | .arrival f => if f.source = key ∧ f.envelope.mode ≠ .transparent then [f.bytes] else []
  | _ => []

/-- Whether a switch leads the sender of a receiver to a path other than that of groups. -/
def Reroutes (key : EntityKey) (m : Moment) : Prop :=
  match m.stimulus with
  | .pathSwitch peer path _ => key.node = peer ∧ path ≠ .multicast
  | _ => False

theorem segments_cases (key : EntityKey) (m : Moment) : m.segments key = [] ∨ ∃ pdu, m.segments key = [pdu] := by
  unfold segments
  split
  · split
    · exact Or.inr ⟨_, rfl⟩
    · exact Or.inl rfl
  · exact Or.inl rfl

end Moment

namespace DataPlane
variable {p q : DataPlane} {key : EntityKey} {r : Receiver}

theorem receivers_transparent {f : Frame} (mode : f.envelope.mode = .transparent) :
    (p.deliver f).2.receivers = p.receivers := by
  simp only [deliver, mode]
  exact ((p.count _).handUp_spec _ _ _).1.receivers

theorem receivers_segment {f : Frame} (mode : f.envelope.mode ≠ .transparent) :
    (p.deliver f).2.receivers = p.receivers.insert f.source ((p.receiverOf f).next f.bytes) := by
  have segment : ∀ g : Frame, g.envelope.mode = .unacknowledged →
      (p.deliver g).2.receivers = p.receivers.insert g.source ((p.receiverOf g).next g.bytes) := by
    intro g unacknowledged
    simp only [deliver, unacknowledged, receiverOf, Frame.source, Receiver.next, count]
    split
    · rename_i cause refused
      rw [refused]
    · rename_i sdu after received
      rw [received]
      cases sdu with
      | none => rfl
      | some sdu => exact (handUp_spec _ _ _ _).1.receivers
  cases which : f.envelope.mode with
  | transparent => exact absurd which mode
  | unacknowledged => exact segment f which
  | acknowledged =>
    rw [deliver_acknowledged which]
    exact segment { f with envelope := { f.envelope with mode := .unacknowledged } } rfl

/-- Replacing receivers that give nothing up changes their paths only. -/
theorem get?_replaceReceivers (tuned : p.Tuned) (path : Path) (keys : List EntityKey) (k : EntityKey) :
    (p.replaceReceivers path false keys).2.receivers.get? k =
      (p.receivers.get? k).map fun r => if k ∈ keys then ⟨k, path, r.window, r.state⟩ else r := by
  induction keys generalizing p with
  | nil => simp [replaceReceivers]
  | cons other rest ih =>
    have first := (replaceReceivers_spec tuned path false [other]).2.1
    simp only [replaceReceivers] at first ⊢
    cases found : p.receivers.get? other with
    | none =>
      refine (ih tuned).trans ?_
      by_cases same : k = other
      · rw [same, found]
        rfl
      · simp only [List.mem_cons, same, false_or]
    | some prior =>
      obtain ⟨window, settled⟩ := tuned other prior found
      rw [found] at first
      simp only [reconcile_handOver settled, handUpAll, Bool.false_eq_true, if_false] at first ⊢
      refine (ih first).trans ?_
      by_cases same : k = other
      · rw [same, SortedMap.get?_insert_self, found]
        simp only [Option.map_some, List.mem_cons_self, if_true, window, ite_self]
      · simp only [SortedMap.get?_insert_of_ne _ same, List.mem_cons, same, false_or]

/-- What a moment makes of the receiver of a group: segments change its state, and a switch its path. -/
theorem receiver_react (tuned : p.Tuned) (found : p.receivers.get? key = some r) (group : r.path = .multicast)
    {m : Moment} (remains : m.stimulus.Remains) :
    ∃ r', (p.react m).plane.receivers.get? key = some r' ∧ r'.window = r.window ∧
      r'.state = ((m.segments key).foldl Receiver.next r).state ∧ (r'.path = .multicast ↔ ¬ m.Reroutes key) := by
  obtain ⟨directory, timers, stimulus⟩ := m
  have untouched {q : DataPlane} (same : SameReceivers p q) :
      ∃ r', q.receivers.get? key = some r' ∧ r'.window = r.window ∧ r'.state = r.state ∧
        (r'.path = .multicast ↔ ¬ False) :=
    ⟨r, same.receivers ▸ found, rfl, rfl, iff_of_true group not_false⟩
  cases stimulus with
  | packet packet hint => exact untouched (same_submit p directory timers packet hint)
  | control payload => exact untouched (same_submitControl p directory timers payload)
  | opportunity limit =>
    exact untouched ((outbound_transmit p timers.now limit).trans (outbound_settle _ directory timers)).same
  | drainCheck peer => exact untouched (outbound_advance_applyStep p timers.now directory _).same
  | departed => exact remains.elim
  | peerDeparted peer =>
    refine ⟨r, (SortedMap.get?_filter_eq_some_iff _ _ _ _).2 ⟨found, ?_⟩, rfl, rfl, iff_of_true group not_false⟩
    simp only [group, ne_eq, not_true_eq_false, decide_false, Bool.false_and, Bool.not_false]
  | pathSwitch peer path clear =>
    obtain rfl : clear = false := remains
    have same := (outbound_advance_applyStep p timers.now directory ((p.advance timers.now).switches.start
      (p.advance timers.now).links (p.advance timers.now).buffers timers peer path false)).same
    simp only [react, switchPath]
    generalize ((p.advance timers.now).applyStep directory _).1 = q at same ⊢
    have replaced := get?_replaceReceivers (Listens.of_same tuned same).tuned path
      (q.receivers.keys.filter (·.node = peer)) key
    have there : q.receivers.get? key = some r := same.receivers ▸ found
    have known : key ∈ q.receivers.keys :=
      (SortedMap.mem_keys_iff _ _).2 ((SortedMap.contains_eq_true_iff _ _).2 ⟨r, there⟩)
    rw [there, Option.map_some] at replaced
    refine ⟨_, replaced, ?_⟩
    simp only [List.mem_filter, known, true_and, decide_eq_true_eq, Moment.segments, Moment.Reroutes, List.foldl_nil]
    by_cases own : key.node = peer
    · rw [if_pos own]
      exact ⟨rfl, rfl, by simp only [own, true_and, ne_eq, Classical.not_not]⟩
    · rw [if_neg own]
      exact ⟨rfl, rfl, iff_of_true group fun reroutes => own reroutes.1⟩
  | arrival f =>
    simp only [Moment.segments, Moment.Reroutes]
    by_cases transparent : f.envelope.mode = .transparent
    · rw [if_neg fun segment => segment.2 transparent]
      exact ⟨r, (congrArg (·.get? key) (receivers_transparent transparent)).trans found, rfl, rfl,
        iff_of_true group not_false⟩
    · have put : (p.deliver f).2.receivers.get? key = _ :=
        congrArg (·.get? key) (receivers_segment transparent)
      by_cases own : f.source = key
      · rw [if_pos ⟨own, transparent⟩]
        have receiver : p.receiverOf f = r := by rw [receiverOf, own, found, Option.getD_some]
        rw [own, receiver, SortedMap.get?_insert_self] at put
        refine ⟨r.next f.bytes, put, Receiver.next_window r f.bytes, rfl, iff_of_true ?_ not_false⟩
        rw [Receiver.path_next]
        exact group
      · rw [if_neg fun segment => own segment.1]
        rw [SortedMap.get?_insert_of_ne _ (Ne.symm own)] at put
        exact ⟨r, put.trans found, rfl, rfl, iff_of_true group not_false⟩

/-! ## Survival -/

/-- Whether a receiver of a group is there at two times, and everything stays done with that was. -/
def Retains (key : EntityKey) (p q : DataPlane) : Prop :=
  ∃ r r', p.receivers.get? key = some r ∧ q.receivers.get? key = some r' ∧ r'.path = .multicast ∧
    ∀ n, r.state.Done n → r'.state.Done n

/-- Whether a receiver of a group is there all the time while some things happen, and everything stays done with. -/
def Survives (key : EntityKey) (p : DataPlane) (ms : List Moment) : Prop :=
  ∀ before between, before ++ between <+: ms → Retains key (p.after before) (p.after (before ++ between))

theorem Retains.trans {s : DataPlane} (first : Retains key p q) (second : Retains key q s) : Retains key p s := by
  obtain ⟨r, r', found, found', -, kept⟩ := first
  obtain ⟨t, t', there, there', group, kept'⟩ := second
  obtain rfl : r' = t := Option.some.inj (found'.symm.trans there)
  exact ⟨r, t', found, there', group, fun n done => kept' n (kept n done)⟩

theorem survives_cons (m : Moment) (rest : List Moment) :
    Survives key p (m :: rest) ↔
      Retains key p p ∧ Retains key p (p.react m).plane ∧ Survives key (p.react m).plane rest := by
  constructor
  · intro survives
    refine ⟨survives [] [] (List.nil_prefix), survives [] [m] ⟨rest, rfl⟩, fun before between early => ?_⟩
    exact survives (m :: before) between ((List.cons_prefix_cons).2 ⟨rfl, early⟩)
  · rintro ⟨here, first, later⟩ before between early
    cases before with
    | cons n before =>
      obtain ⟨rfl, rest_early⟩ := List.cons_prefix_cons.1 early
      exact later before between rest_early
    | nil =>
      cases between with
      | nil => exact here
      | cons n between =>
        obtain ⟨rfl, rest_early⟩ := List.cons_prefix_cons.1 early
        exact first.trans (later [] between rest_early)

/-- What one moment must not do to the receiver of a group. -/
theorem retains_react_iff (tuned : p.Tuned) (positive : 0 < r.window) (found : p.receivers.get? key = some r)
    (group : r.path = .multicast) {m : Moment} (remains : m.stimulus.Remains) :
    Retains key p (p.react m).plane ↔ ¬ m.Reroutes key ∧ r.Steady (m.segments key) := by
  obtain ⟨r', found', -, state, path⟩ := receiver_react tuned found group remains
  have settled := (tuned key r found).2
  have done : (∀ n, r.state.Done n → r'.state.Done n) ↔ r.Steady (m.segments key) := by
    rw [state]
    rcases m.segments_cases key with none_comes | ⟨pdu, comes⟩
    · rw [none_comes]
      exact iff_of_true (fun n done => done) trivial
    · rw [comes]
      exact (Receiver.done_next_iff settled positive pdu).trans (and_iff_left trivial).symm
  constructor
  · rintro ⟨s, s', there, there', still, kept⟩
    obtain rfl : r = s := Option.some.inj (found.symm.trans there)
    obtain rfl : r' = s' := Option.some.inj (found'.symm.trans there')
    exact ⟨path.1 still, done.1 kept⟩
  · rintro ⟨still, steady⟩
    exact ⟨r, r', found, found', path.2 still, done.2 steady⟩

theorem survives_iff (tuned : p.Tuned) (positive : 0 < r.window) (found : p.receivers.get? key = some r)
    (group : r.path = .multicast) {ms : List Moment} (remain : ∀ m ∈ ms, m.stimulus.Remains) :
    Survives key p ms ↔ (∀ m ∈ ms, ¬ m.Reroutes key) ∧ r.Steady (ms.flatMap (·.segments key)) := by
  have here : Retains key p p := ⟨r, r, found, found, group, fun n done => done⟩
  induction ms generalizing p r with
  | nil =>
    refine iff_of_true (fun before between early => ?_) ⟨fun m member => absurd member List.not_mem_nil, trivial⟩
    obtain ⟨rfl, rfl⟩ := List.append_eq_nil_iff.1 (List.prefix_nil.1 early)
    exact here
  | cons m rest ih =>
    have remains := remain m List.mem_cons_self
    have step := retains_react_iff tuned positive found group remains
    obtain ⟨r', found', window, state, path⟩ := receiver_react tuned found group remains
    rw [survives_cons, step, List.forall_mem_cons, List.flatMap_cons, Receiver.steady_append]
    -- Where a switch leads the sender elsewhere both sides fail; otherwise the receiver goes on as one of a group.
    by_cases still : m.Reroutes key
    · exact iff_of_false (fun survives => survives.2.1.1 still) fun calm => calm.1.1 still
    · have again : r'.path = .multicast := path.2 still
      have later : Survives key (p.react m).plane rest ↔ _ := ih (tuned_react tuned m) (window ▸ positive) found' again
        (fun n member => remain n (List.mem_cons_of_mem _ member)) ⟨r', r', found', found', again, fun n done => done⟩
      rw [later, Receiver.steady_congr state (window.trans (Receiver.window_foldl_next r _).symm)]
      constructor
      · rintro ⟨-, ⟨-, steady⟩, calm, after⟩
        exact ⟨⟨still, calm⟩, steady, after⟩
      · rintro ⟨⟨-, calm⟩, steady, after⟩
        exact ⟨here, ⟨still, steady⟩, calm, after⟩

/-- Among moments at which the node stays and no switch gives up what is not complete, a receiver of a group is there
all the time, on the path of groups and with everything done with that was, exactly if no switch leads its sender to
another path and no segment moves its lower edge back. -/
theorem group_survives_iff {node : NodeId} {role : Role} {settings : PlaneSettings}
    (made : new node role settings = .ok p) (ms : List Moment)
    (found : (p.after ms).receivers.get? key = some r) (group : r.path = .multicast) {ns : List Moment}
    (remain : ∀ n ∈ ns, n.stimulus.Remains) :
    Survives key (p.after ms) ns ↔ (∀ n ∈ ns, ¬ n.Reroutes key) ∧ r.Steady (ns.flatMap (·.segments key)) := by
  obtain ⟨fresh, same, -⟩ := tuned_new made
  have tuned := tuned_after fresh ms
  have positive : 0 < r.window := by
    obtain ⟨effects, -, sound⟩ := sound_run made ms
    rw [(tuned key r found).1, sound.served.settings_eq]
    exact (LinkSettings.of_fault?_eq_none (link_fault?_of_new made)).2.2
  exact survives_iff tuned positive found group remain

/-- A packet of the first node to a group. -/
def announcement : Frame :=
  ⟨SegmentHeader.encode ⟨⟨true, true, false⟩, 0, 0⟩ (Packet.hello.unit PlaneSettings.default.compression 0),
    ⟨1⟩, ⟨1⟩, [⟨2⟩], .first, .unacknowledged, .multicast⟩

/-- The second node hears the packet. -/
def announced : DataPlane := (fresh 2).after [(Stimulus.arrival announcement).inPair]

/-- Peers depart, among them the sender of the group, and the packet comes once more. -/
def departures : List Moment :=
  [.peerDeparted ⟨1⟩, .pathSwitch ⟨3⟩ .infrastructure false, .peerDeparted ⟨3⟩, .arrival announcement].map
    Stimulus.inPair

theorem group_survives_iff_at_departures :
    ∃ r, announced.receivers.get? ⟨⟨1⟩, .first⟩ = some r ∧ r.path = .multicast ∧ r.state.Done 0 ∧
      (∀ n ∈ departures, n.stimulus.Remains) ∧ Survives ⟨⟨1⟩, .first⟩ announced departures := by
  have remain : ∀ n ∈ departures, n.stimulus.Remains := by simp [departures, Stimulus.inPair, Stimulus.Remains]
  have calm : ∀ n ∈ departures, ¬ n.Reroutes ⟨⟨1⟩, .first⟩ := by simp [departures, Stimulus.inPair, Moment.Reroutes]
  have facts : (announced.receivers.get? ⟨⟨1⟩, .first⟩).map (fun r => (r.path, r.window, decide (r.state.Done 0),
      decide ((r.edges (departures.flatMap (·.segments ⟨⟨1⟩, .first⟩))).Pairwise (· ≤ ·)))) =
      some (.multicast, 512, true, true) := by decide +kernel
  obtain ⟨r, found, facts⟩ := Option.map_eq_some_iff.1 facts
  simp only [Prod.mk.injEq, decide_eq_true_eq] at facts
  obtain ⟨group, window, done, onward⟩ := facts
  have settled := (tuned_after (tuned_new new_fresh.2).1 _ _ r found).2
  have steady := (Receiver.edges_sorted_iff settled (window ▸ (by decide : 0 < 512)) _).1 onward
  exact ⟨r, found, group, done, remain, (group_survives_iff new_fresh.2 _ found group remain).2 ⟨calm, steady⟩⟩

/-- The sender of the group is led to another path, and departs; and the packet comes once more. -/
def rerouting : List Moment :=
  [.pathSwitch ⟨1⟩ .infrastructure false, .peerDeparted ⟨1⟩, .arrival announcement].map Stimulus.inPair

/-- The receiver of the group is gone after the departure, and the packet is handed up a second time. -/
theorem group_lost_at_rerouting :
    (announced.receivers.get? ⟨⟨1⟩, .first⟩).map (·.path) = some .multicast ∧
      (announced.after (rerouting.take 2)).receivers.contains ⟨⟨1⟩, .first⟩ = false ∧
      ((fresh 2).handedUp ((Stimulus.arrival announcement).inPair :: rerouting)).map (·.sn) = [0, 0] ∧
      ¬ Survives ⟨⟨1⟩, .first⟩ announced rerouting := by
  have gone : (announced.after (rerouting.take 2)).receivers.contains ⟨⟨1⟩, .first⟩ = false := by decide +kernel
  refine ⟨by decide +kernel, gone, by decide +kernel, fun survives => ?_⟩
  have early : rerouting.take 2 ++ [] <+: rerouting := (List.append_nil _).symm ▸ List.take_prefix 2 rerouting
  obtain ⟨r, r', found, -⟩ := survives (rerouting.take 2) [] early
  rw [(SortedMap.contains_eq_false_iff _ _).1 gone] at found
  cases found

end DataPlane
end Sidelink
