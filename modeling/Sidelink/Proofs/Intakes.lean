import Sidelink.Proofs.Survival
import Sidelink.Proofs.Totals

/-!
What the counters of a node tell of the frames that it took in. A receiver drops a data unit exactly if it discards it
(`Receiver.discards`): its number lies below the lower edge, its unit was handed out, or there is a segment at its
offset. The drops of a node are spread over its receivers and a total of those that are gone. Receivers come into being
with a frame, are replaced when their sender changes path, and go when a peer or the node itself departs; the sum is
the number of discarded frames all the same (`DataPlane.intakes_counted`).
-/
namespace Sidelink

/-! ## Sums over filtered maps -/

namespace SortedMap
variable {κ ν : Type} [Ranked κ]

/-- What a test keeps and what it takes away add up to all. -/
theorem total_filter_add_not (m : SortedMap κ ν) (keep : κ → ν → Bool) (f : ν → Nat) :
    (m.filter keep).total f + (m.filter fun k v => !keep k v).total f = m.total f := by
  obtain ⟨l, sorted⟩ := m
  simp only [total_eq_sum, filter]
  clear sorted
  induction l with
  | nil => rfl
  | cons x rest ih =>
    cases kept : keep x.1 x.2 <;> simp only [List.filter_cons, kept, Bool.not_true, Bool.not_false, if_true,
      Bool.false_eq_true, if_false, List.map_cons, List.sum_cons] <;> omega

end SortedMap

theorem Receivers.drops_eq_total (receivers : Receivers) :
    Receivers.drops receivers = SortedMap.total receivers fun r => r.state.counters.dropped := by
  rw [drops, SortedMap.total, List.sum, List.foldr_map]

/-! ## One receiver -/

namespace ReceiveState
variable {s : ReceiveState} {window sn : Nat}

/-- Whether a state discards a segment: nothing more is taken of its number, or there is a segment at its offset. -/
def discards (s : ReceiveState) (header : SegmentHeader) : Bool :=
  decide (s.Done header.sn.toNat) ||
    (s.pending.get? header.sn.toNat).any fun p => p.segments.contains header.offset.toNat

theorem dropped_makeRoom (s : ReceiveState) (window sn : Nat) :
    (s.makeRoom window sn).counters.dropped = s.counters.dropped := by
  rw [makeRoom]
  split <;> rfl

theorem grown?_eq_none_iff (s : ReceiveState) (window : Nat) (header : SegmentHeader) (data : Bytes) :
    s.grown? window header data = none ↔
      (s.pending.get? header.sn.toNat).any (fun p => p.segments.contains header.offset.toNat) = true := by
  rw [grown?, Partial.insert?_eq_none_iff, (makeRoom_of_le s window (Nat.le_refl _)).2]
  cases s.pending.get? header.sn.toNat with
  | none => exact ⟨fun known => known, fun known => known⟩
  | some p => exact Iff.rfl

/-- A state counts a segment as dropped exactly if it discards it. -/
theorem dropped_accept (s : ReceiveState) (window : Nat) (header : SegmentHeader) (data : Bytes) :
    (s.accept window header data).2.counters.dropped = s.counters.dropped + if s.discards header then 1 else 0 := by
  have taken := taken_accept s window header data
  generalize s.accept window header data = answer at taken
  have keeps {p : Partial} (open_yet : ¬ s.Done header.sn.toNat) (grown : s.grown? window header data = some p) :
      s.discards header = false := by
    have unknown := (not_congr (s.grown?_eq_none_iff window header data)).1 (by rw [grown]; exact Option.some_ne_none p)
    rw [discards, decide_eq_false open_yet, Bool.false_or, Bool.eq_false_iff]
    exact unknown
  cases taken with
  | late done =>
    have discarded : s.discards header = true := by rw [discards, decide_eq_true done, Bool.true_or]
    rw [discarded]
    rfl
  | again fresh known =>
    have discarded : s.discards header = true := by
      rw [discards, (s.grown?_eq_none_iff window header data).1 known, Bool.or_true]
    rw [discarded]
    exact congrArg (· + 1) (dropped_makeRoom s window _)
  | stored p fresh grown lacking =>
    rw [keeps fresh grown]
    exact dropped_makeRoom s window _
  | completed p fresh grown whole =>
    rw [keeps fresh grown]
    exact dropped_makeRoom s window _

end ReceiveState

namespace Receiver

/-- Whether a receiver discards a data unit that it can read. -/
def discards (r : Receiver) (pdu : Bytes) : Bool :=
  match SegmentHeader.parse pdu with
  | .ok (header, data) => decide (header.offset.toNat + data.length ≤ lastWord) && r.state.discards header
  | .error _ => false

theorem dropped_next (r : Receiver) (pdu : Bytes) :
    (r.next pdu).state.counters.dropped = r.state.counters.dropped + if r.discards pdu then 1 else 0 := by
  rw [state_next, discards, ReceiveState.take]
  cases SegmentHeader.parse pdu with
  | error cause => rfl
  | ok fields =>
    obtain ⟨header, data⟩ := fields
    by_cases inRange : header.offset.toNat + data.length ≤ lastWord
    · simp only [if_neg (Nat.not_lt.2 inRange), decide_eq_true inRange, Bool.true_and]
      exact r.state.dropped_accept r.window header data
    · simp only [if_pos (Nat.not_le.1 inRange), decide_eq_false inRange, Bool.false_and]
      rfl

end Receiver

/-! ## Runs -/

/-- The counters once a frame was taken in and came to something. -/
def PlaneCounters.takeIn (c : PlaneCounters) : Except Fault (Option DeliveredSdu) → PlaneCounters
  | .ok (some _) => { c with received := c.received + 1, delivered := c.delivered + 1 }
  | .ok none => { c with received := c.received + 1 }
  | .error _ => { c with received := c.received + 1, receiveErrors := c.receiveErrors + 1 }

/-- What can be done with a node: something happens to it, or nothing but its clock is set. -/
inductive Call where
  | clock (now : SimTime)
  | moment (m : Moment)

/-- A frame that a node takes in, and the node as the frame finds it. -/
structure Intake where
  plane : DataPlane
  frame : Frame

namespace Intake

/-- What the node makes of the frame. -/
def answer (i : Intake) : Except Fault (Option DeliveredSdu) := (i.plane.deliver i.frame).1

/-- Whether a packet is handed up. -/
def handsUp (i : Intake) : Bool :=
  match i.answer with
  | .ok (some _) => true
  | .ok none | .error _ => false

def fails (i : Intake) : Bool :=
  match i.answer with
  | .ok _ => false
  | .error _ => true

/-- Whether the receiver of the frame discards it. In transparent mode there is no receiver. -/
def discarded (i : Intake) : Bool :=
  decide (i.frame.envelope.mode ≠ .transparent) && (i.plane.receiverOf i.frame).discards i.frame.bytes

end Intake

namespace DataPlane
variable {p q r : DataPlane}

/-- The data plane after a call. -/
def called (p : DataPlane) : Call → DataPlane
  | .clock now => p.advance now
  | .moment m => (p.react m).plane

def calledAll (p : DataPlane) (calls : List Call) : DataPlane := calls.foldl called p

/-- The frame that a node takes in with a call, if there is one. -/
def intake (p : DataPlane) : Call → List Intake
  | .moment ⟨_, _, .arrival frame⟩ => [⟨p, frame⟩]
  | _ => []

/-- The frames that a node takes in with some calls, one after the other. -/
def intakes (p : DataPlane) : List Call → List Intake
  | [] => []
  | c :: rest => p.intake c ++ (p.called c).intakes rest

/-! ## What is counted of frames -/

/-- The data units that were dropped by receivers, those that are gone included. -/
def drops (p : DataPlane) : Nat := p.retiredDrops + Receivers.drops p.receivers

/-- Whether the counters of a data plane went on by some frames. -/
structure Counts (p : DataPlane) (frames : List Intake) (q : DataPlane) : Prop where
  drops : q.drops = p.drops + frames.countP Intake.discarded
  received : q.counters.received = p.counters.received + frames.length
  delivered : q.counters.delivered = p.counters.delivered + frames.countP Intake.handsUp
  errors : q.counters.receiveErrors = p.counters.receiveErrors + frames.countP Intake.fails

theorem Counts.trans {frames more : List Intake} (first : Counts p frames q) (second : Counts q more r) :
    Counts p (frames ++ more) r where
  drops := by rw [second.drops, first.drops, List.countP_append, Nat.add_assoc]
  received := by rw [second.received, first.received, List.length_append, Nat.add_assoc]
  delivered := by rw [second.delivered, first.delivered, List.countP_append, Nat.add_assoc]
  errors := by rw [second.errors, first.errors, List.countP_append, Nat.add_assoc]

/-- Where receivers and counters stay there was no frame. -/
theorem Counts.still (receivers : q.receivers = p.receivers) (incoming : q.incoming = p.incoming) : Counts p [] q := by
  obtain ⟨retired, received, delivered, errors⟩ := Incoming.mk.inj incoming
  refine ⟨?_, received, delivered, errors⟩
  rw [DataPlane.drops, receivers, retired]
  rfl

theorem Outbound.counts (outbound : Outbound p q) : Counts p [] q := .still outbound.receivers outbound.incoming

/-! ## Going out -/

theorem incoming_number {l : Lcid} {sn : UInt32} {entity : ConvergenceEntity}
    (numbered : p.number l = some (sn, entity, q)) : q.incoming = p.incoming := by
  simp only [number, Option.map_eq_some_iff] at numbered
  obtain ⟨⟨sn', entity'⟩, -, same⟩ := numbered
  simp only [Prod.mk.injEq] at same
  obtain ⟨-, -, rfl⟩ := same
  rfl

theorem incoming_send (p : DataPlane) (directory : Directory) (timers : Timers) (packet : Packet) (profile : Profile)
    (mode : DeliveryMode) (direction : Direction) (route : Route) :
    (p.send directory timers packet profile mode direction route).plane.incoming = p.incoming := by
  simp only [send]
  split
  · rfl
  · rename_i lcid created flows _
    split
    · rfl
    · rename_i sn entity q numbered
      have given := incoming_number numbered
      split
      · exact (outbound_sendToPeer _ _ _ _ _).incoming.trans given
      · exact (outbound_offer _ _ _ _ _ _ _ _).incoming.trans given

theorem incoming_submit (p : DataPlane) (directory : Directory) (timers : Timers) (packet : Packet) (hint : String) :
    (p.submit directory timers packet hint).plane.incoming = p.incoming := by
  have first : ((p.advance timers.now).count fun c => { c with submitted := c.submitted + 1 }).incoming = p.incoming :=
    (outbound_advance p timers.now).incoming
  simp only [submit]
  generalize (p.advance timers.now).count (fun c => { c with submitted := c.submitted + 1 }) = q at first ⊢
  split
  · exact first
  · split
    · exact first
    · exact (incoming_send _ _ _ _ _ _ _ _).trans first

theorem incoming_submitControl (p : DataPlane) (directory : Directory) (timers : Timers) (payload : Bytes) :
    (p.submitControl directory timers payload).plane.incoming = p.incoming := by
  have first := (outbound_advance p timers.now).incoming
  simp only [submitControl]
  split
  · exact first
  · split
    · exact first
    · rename_i sn entity q numbered
      exact (outbound_offer _ _ _ _ _ _ _ _).incoming.trans ((incoming_number numbered).trans first)

/-! ## Receivers that are replaced, and that go -/

/-- A receiver that takes the place of another one takes its drops over. -/
theorem drops_insert {key : EntityKey} {prior put : Receiver} (found : p.receivers.get? key = some prior)
    (dropped : put.state.counters.dropped = prior.state.counters.dropped) :
    DataPlane.drops { p with receivers := p.receivers.insert key put } = p.drops := by
  have balance := SortedMap.total_insert p.receivers key put fun r => r.state.counters.dropped
  rw [found, Option.map_some, Option.getD_some, dropped] at balance
  rw [drops, drops, Receivers.drops_eq_total, Receivers.drops_eq_total, Nat.add_right_cancel balance]

theorem counts_replaceReceivers (tuned : p.Tuned) (path : Path) (clear : Bool) (keys : List EntityKey) :
    Counts p [] (p.replaceReceivers path clear keys).2 := by
  induction keys generalizing p with
  | nil => exact .still rfl rfl
  | cons key rest ih =>
    have again := (replaceReceivers_spec tuned path clear [key]).2.1
    simp only [replaceReceivers] at again ⊢
    cases found : p.receivers.get? key with
    | none => exact ih tuned
    | some prior =>
      obtain ⟨-, settled⟩ := tuned key prior found
      simp only [found, reconcile_handOver settled, handUpAll] at again ⊢
      have replaced : Counts p [] { p with receivers := p.receivers.insert key ⟨key, path, p.settings.link.window,
          if clear = true then prior.state.clear else prior.state⟩ } := by
        refine ⟨drops_insert found ?_, rfl, rfl, rfl⟩
        show (if clear = true then prior.state.clear else prior.state).counters.dropped = _
        split <;> rfl
      exact replaced.trans (ih again)

theorem counts_switchPath (tuned : p.Tuned) (directory : Directory) (timers : Timers) (peer : NodeId) (path : Path)
    (clear : Bool) : Counts p [] (p.switchPath directory timers peer path clear).2.1 := by
  simp only [switchPath]
  have outbound := outbound_advance_applyStep p timers.now directory ((p.advance timers.now).switches.start
    (p.advance timers.now).links (p.advance timers.now).buffers timers peer path clear)
  exact outbound.counts.trans (counts_replaceReceivers (Listens.of_same tuned outbound.same).tuned path clear _)

/-- Receivers that go leave their drops behind. -/
theorem counts_peerDeparted (p : DataPlane) (peer : NodeId) : Counts p [] (p.peerDeparted peer) where
  drops := by
    have parts := SortedMap.total_filter_add_not p.receivers
      (fun key r => decide (r.path ≠ .multicast) && p.concerns peer key) fun r => r.state.counters.dropped
    simp only [drops, peerDeparted, Receivers.drops_eq_total, List.countP_nil]
    omega
  received := rfl
  delivered := rfl
  errors := rfl

theorem counts_departed (p : DataPlane) : Counts p [] p.departed := ⟨rfl, rfl, rfl, rfl⟩

/-! ## Frames -/

/-- Handing up a unit counts as what it comes to. -/
theorem counters_handUp (p : DataPlane) (key : EntityKey) (path : Path) (sdu : Bytes) :
    (p.handUp key path sdu).2.counters =
      match (p.handUp key path sdu).1 with
      | .ok _ => { p.counters with delivered := p.counters.delivered + 1 }
      | .error _ => { p.counters with receiveErrors := p.counters.receiveErrors + 1 } := by
  simp only [handUp]
  cases ConvergencePdu.parse sdu <;> rfl

/-- Taking in a frame counts as what it comes to. -/
theorem counters_deliver (p : DataPlane) (f : Frame) :
    (p.deliver f).2.counters = p.counters.takeIn (p.deliver f).1 := by
  have whole (q : DataPlane) (counted : q.counters = { p.counters with received := p.counters.received + 1 })
      (key : EntityKey) (path : Path) (sdu : Bytes) :
      (q.handUp key path sdu).2.counters = p.counters.takeIn ((q.handUp key path sdu).1.map some) := by
    rw [counters_handUp, counted]
    cases (q.handUp key path sdu).1 <;> rfl
  have segment (g : Frame) (unacknowledged : g.envelope.mode = .unacknowledged) :
      (p.deliver g).2.counters = p.counters.takeIn (p.deliver g).1 := by
    simp only [deliver, unacknowledged]
    split
    · rfl
    · split
      · rfl
      · exact whole _ rfl _ _ _
  cases mode : f.envelope.mode with
  | transparent =>
    simp only [deliver, mode]
    exact whole _ rfl _ _ _
  | unacknowledged => exact segment f mode
  | acknowledged =>
    rw [deliver_acknowledged mode]
    exact segment { f with envelope := { f.envelope with mode := .unacknowledged } } rfl

theorem retired_deliver (p : DataPlane) (f : Frame) : (p.deliver f).2.retiredDrops = p.retiredDrops := by
  obtain ⟨_, _, _, _, _, after⟩ := inbound_deliver p f
  rw [after]

/-- The drops of a receiver that takes in a frame become those of its node. -/
theorem drops_deliver (p : DataPlane) (f : Frame) :
    (p.deliver f).2.drops = p.drops + if Intake.discarded ⟨p, f⟩ then 1 else 0 := by
  rw [drops, drops, retired_deliver]
  by_cases mode : f.envelope.mode = .transparent
  · have kept : Intake.discarded ⟨p, f⟩ = false := by
      rw [Intake.discarded, decide_eq_false (fun other => other mode), Bool.false_and]
    rw [receivers_transparent mode, kept]
    rfl
  · have same : Intake.discarded ⟨p, f⟩ = (p.receiverOf f).discards f.bytes := by
      rw [Intake.discarded, decide_eq_true mode, Bool.true_and]
    have balance := SortedMap.total_insert p.receivers f.source ((p.receiverOf f).next f.bytes)
      fun r => r.state.counters.dropped
    have before : ((p.receivers.get? f.source).map fun r => r.state.counters.dropped).getD 0 =
        (p.receiverOf f).state.counters.dropped := by
      rw [receiverOf]
      cases p.receivers.get? f.source <;> rfl
    rw [receivers_segment mode, same, Receivers.drops_eq_total, Receivers.drops_eq_total]
    rw [before, Receiver.dropped_next] at balance
    omega

theorem counts_deliver (p : DataPlane) (f : Frame) : Counts p [⟨p, f⟩] (p.deliver f).2 := by
  have counters := counters_deliver p f
  refine ⟨by rw [drops_deliver, List.countP_singleton], ?_, ?_, ?_⟩ <;> rw [counters]
  · cases (p.deliver f).1 with
    | ok sdu => cases sdu <;> rfl
    | error cause => rfl
  · rw [List.countP_singleton, Intake.handsUp, Intake.answer]
    cases (p.deliver f).1 with
    | ok sdu => cases sdu <;> rfl
    | error cause => rfl
  · rw [List.countP_singleton, Intake.fails, Intake.answer]
    cases (p.deliver f).1 with
    | ok sdu => cases sdu <;> rfl
    | error cause => rfl

/-! ## Calls -/

theorem counts_called (tuned : p.Tuned) (c : Call) : Counts p (p.intake c) (p.called c) := by
  cases c with
  | clock now => exact (outbound_advance p now).counts
  | moment m =>
    obtain ⟨directory, timers, stimulus⟩ := m
    cases stimulus with
    | packet packet hint =>
      exact .still (same_submit p directory timers packet hint).receivers
        (incoming_submit p directory timers packet hint)
    | control payload =>
      exact .still (same_submitControl p directory timers payload).receivers
        (incoming_submitControl p directory timers payload)
    | opportunity limit =>
      exact ((outbound_transmit p timers.now limit).trans (outbound_settle _ directory timers)).counts
    | drainCheck peer => exact (outbound_advance_applyStep p timers.now directory _).counts
    | pathSwitch peer path clear => exact counts_switchPath tuned directory timers peer path clear
    | peerDeparted peer => exact counts_peerDeparted p peer
    | departed => exact counts_departed p
    | arrival frame => exact counts_deliver p frame

theorem tuned_called (tuned : p.Tuned) (c : Call) : (p.called c).Tuned := by
  cases c with
  | clock now => exact (Listens.of_same tuned (outbound_advance p now).same).tuned
  | moment m => exact tuned_react tuned m

theorem tuned_calledAll (tuned : p.Tuned) (calls : List Call) : (p.calledAll calls).Tuned := by
  induction calls generalizing p with
  | nil => exact tuned
  | cons c rest ih => exact ih (tuned_called tuned c)

theorem counts_calledAll (tuned : p.Tuned) (calls : List Call) : Counts p (p.intakes calls) (p.calledAll calls) := by
  induction calls generalizing p with
  | nil => exact .still rfl rfl
  | cons c rest ih => exact (counts_called tuned c).trans (ih (tuned_called tuned c))

/-- Whatever is done with a node, and in whatever order, it has counted as dropped the frames that their receivers
discarded, as received all frames, as delivered those that came to a packet, and as errors those that failed. So none
of these counts ever goes down. -/
theorem intakes_counted {node : NodeId} {role : Role} {settings : PlaneSettings}
    (made : new node role settings = .ok p) (calls : List Call) :
    let counted := (p.calledAll calls).summary
    counted.receiveDrops = (p.intakes calls).countP Intake.discarded ∧
      counted.counters.received = (p.intakes calls).length ∧
      counted.counters.delivered = (p.intakes calls).countP Intake.handsUp ∧
      counted.counters.receiveErrors = (p.intakes calls).countP Intake.fails ∧
      ∀ more : List Call,
        let later := (p.calledAll (calls ++ more)).summary
        counted.receiveDrops ≤ later.receiveDrops ∧ counted.counters.received ≤ later.counters.received ∧
          counted.counters.delivered ≤ later.counters.delivered ∧
          counted.counters.receiveErrors ≤ later.counters.receiveErrors := by
  have tuned := (tuned_new made).1
  have counts := counts_calledAll tuned calls
  obtain ⟨-, rfl⟩ := eq_of_new made
  refine ⟨counts.drops.trans (Nat.zero_add _), counts.received.trans (Nat.zero_add _),
    counts.delivered.trans (Nat.zero_add _), counts.errors.trans (Nat.zero_add _), fun more => ?_⟩
  have later := counts_calledAll (tuned_calledAll tuned calls) more
  rw [calledAll, calledAll, ← List.foldl_append] at later
  exact ⟨Nat.le.intro later.drops.symm, Nat.le.intro later.received.symm, Nat.le.intro later.delivered.symm,
    Nat.le.intro later.errors.symm⟩

/-- A frame that arrives again and again: twice on a new receiver, once on the receiver that takes its place, and once
after its sender departed; and an empty frame. -/
def replayed : List Call :=
  let frames := (fresh 1).sent greeting
  let again := frames.map fun f => Call.moment (Stimulus.inPair (.arrival f))
  again ++ [.clock 7] ++ again ++ [.moment (Stimulus.inPair (.pathSwitch ⟨1⟩ .infrastructure false))] ++ again ++
    [.moment (Stimulus.inPair (.peerDeparted ⟨1⟩))] ++ again ++
    frames.map fun f => Call.moment (Stimulus.inPair (.arrival { f with bytes := [] }))

theorem intakes_counted_at_replayed :
    new ⟨2⟩ .peerDirect .default = .ok (fresh 2) ∧
      ((fresh 2).calledAll replayed).summary.receiveDrops = 2 ∧
      ((fresh 2).intakes replayed).countP Intake.discarded = 2 ∧
      ((fresh 2).intakes replayed).length = 5 ∧ ((fresh 2).intakes replayed).countP Intake.handsUp = 2 ∧
      ((fresh 2).intakes replayed).countP Intake.fails = 1 := by
  obtain ⟨drops, received, delivered, errors, -⟩ := intakes_counted new_fresh.2 replayed
  refine ⟨new_fresh.2, by decide +kernel, ?_, ?_, ?_, ?_⟩
  · rw [← drops]
    decide +kernel
  · rw [← received]
    decide +kernel
  · rw [← delivered]
    decide +kernel
  · rw [← errors]
    decide +kernel

end DataPlane
end Sidelink
