import Sidelink.Proofs.Receiving
import Sidelink.Proofs.Run
import Sidelink.Proofs.Untouched

/-!
What a node hears of a connection of another node. Of all that happens at a node, only the frames of the connection
and the switches that clear its receiver count for the packets that the node hands up from it, and these are what one
receiver makes of what it hears (`DataPlane.handedUp_eq`). A switch that clears nothing is not heard at all.
-/
namespace Sidelink

/-! ## One receiver -/

/-- What a receiver learns of. -/
inductive Heard where
  | frame (frame : Frame)
  /-- A switch makes it give up what is incomplete. -/
  | cleared

/-- The receiver that a frame is for. -/
def Frame.source (f : Frame) : EntityKey := ⟨f.envelope.origin, f.envelope.lcid⟩

/-- The receiver that a packet was handed up from. -/
def DeliveredSdu.source (d : DeliveredSdu) : EntityKey := ⟨d.origin, d.lcid⟩

/-- The number and the contents of a packet that was handed up. -/
def DeliveredSdu.pdu (d : DeliveredSdu) : ConvergencePdu := ⟨d.sn, d.headers, none, d.payload⟩

/-- The number and the contents of the packet that a unit carries. -/
def ConvergencePdu.read? (sdu : Bytes) : Option ConvergencePdu :=
  match parse sdu with
  | .ok pdu => some pdu.decompress
  | .error _ => none

namespace ReceiveState

/-- Takes in a data unit, and hands out the unit that it completes. -/
def take (s : ReceiveState) (window : Nat) (bytes : Bytes) : Option Bytes × ReceiveState :=
  match SegmentHeader.parse bytes with
  | .ok (header, data) =>
    if lastWord < header.offset.toNat + data.length then (none, s) else s.accept window header data
  | .error _ => (none, s)

/-- Takes in what is heard. A frame in transparent mode is a whole unit, and does not concern the state. -/
def hear (s : ReceiveState) (window : Nat) : Heard → Option Bytes × ReceiveState
  | .frame f =>
    match f.envelope.mode with
    | .transparent => (some f.bytes, s)
    | .unacknowledged | .acknowledged => s.take window f.bytes
  | .cleared => (none, s.clear)

/-- The units that are handed out while some things are heard. -/
def units (s : ReceiveState) (window : Nat) : List Heard → List Bytes
  | [] => []
  | h :: rest => (s.hear window h).1.toList ++ (s.hear window h).2.units window rest

/-- The state after some things were heard. -/
def hearAll (s : ReceiveState) (window : Nat) (heard : List Heard) : ReceiveState :=
  heard.foldl (fun s h => (s.hear window h).2) s

variable {s : ReceiveState} {window : Nat}

theorem units_append (s : ReceiveState) (window : Nat) (hs ks : List Heard) :
    s.units window (hs ++ ks) = s.units window hs ++ (s.hearAll window hs).units window ks := by
  induction hs generalizing s with
  | nil => rfl
  | cons h rest ih => simp only [List.cons_append, units, hearAll, List.foldl_cons, ih, List.append_assoc]

theorem hearAll_append (s : ReceiveState) (window : Nat) (hs ks : List Heard) :
    s.hearAll window (hs ++ ks) = (s.hearAll window hs).hearAll window ks :=
  List.foldl_append

theorem take_of_parse {header : SegmentHeader} {data bytes : Bytes}
    (parsed : SegmentHeader.parse bytes = .ok (header, data))
    (inRange : header.offset.toNat + data.length ≤ lastWord) : s.take window bytes = s.accept window header data := by
  simp only [take, parsed]
  rw [if_neg (Nat.not_lt.2 inRange)]

theorem take_cases (s : ReceiveState) (window : Nat) (bytes : Bytes) :
    s.take window bytes = (none, s) ∨ ∃ header data, s.take window bytes = s.accept window header data := by
  simp only [take]
  split
  · split
    · exact Or.inl rfl
    · exact Or.inr ⟨_, _, rfl⟩
  · exact Or.inl rfl

theorem settled_hear (settled : s.Settled) (window : Nat) (h : Heard) : (s.hear window h).2.Settled := by
  have taken (bytes : Bytes) : (s.take window bytes).2.Settled := by
    rcases take_cases s window bytes with same | ⟨header, data, accepted⟩
    · rw [same]
      exact settled
    · rw [accepted]
      exact settled_accept settled window header data
  cases h with
  | frame f =>
    rw [hear]
    split
    · exact settled
    · exact taken f.bytes
    · exact taken f.bytes
  | cleared => exact settled_clear settled

end ReceiveState

namespace Receiver

theorem take_of_receive {r r' : Receiver} {bytes : Bytes} {sdu : Option Bytes}
    (received : r.receive bytes = .ok (sdu, r')) :
    r.state.take r.window bytes = (sdu, r'.state) ∧ r' = { r with state := r'.state } := by
  obtain ⟨header, data, parsed, inRange, same⟩ := receive_eq_ok_iff.1 received
  obtain ⟨rfl, rfl⟩ := Prod.mk.inj same
  exact ⟨ReceiveState.take_of_parse parsed inRange, rfl⟩

theorem take_of_receive_error {r : Receiver} {bytes : Bytes} {cause : MalformedPdu}
    (refused : r.receive bytes = .error cause) : r.state.take r.window bytes = (none, r.state) := by
  rw [ReceiveState.take]
  split
  · rename_i header data parsed
    split
    · rfl
    · rename_i inRange
      have accepted := (receive_eq_ok_iff (r := r)).2 ⟨header, data, parsed, Nat.not_lt.1 inRange, rfl⟩
      rw [refused] at accepted
      cases accepted
  · rfl

end Receiver

/-! ## What is handed up -/

namespace ConvergencePdu

theorem context_decompress (pdu : ConvergencePdu) : pdu.decompress.context = none := by
  obtain ⟨sn, headers, context, payload⟩ := pdu
  cases context <;> rfl

end ConvergencePdu

theorem Packet.read?_unit (packet : Packet) (settings : CompressionSettings) (sn : UInt32) :
    ConvergencePdu.read? (packet.unit settings sn) = some ⟨sn, packet.headers, none, packet.payload⟩ := by
  obtain ⟨pdu, parsed, restored⟩ := packet.parse_unit settings sn
  rw [ConvergencePdu.read?, parsed, ← restored]

/-- What happens at a node, apart from departures. -/
def Stimulus.Stays : Stimulus → Prop
  | .peerDeparted _ | .departed => False
  | _ => True

/-- What a receiver learns of at a moment. -/
def Moment.heard (key : EntityKey) (m : Moment) : List Heard :=
  match m.stimulus with
  | .arrival frame => if frame.source = key then [.frame frame] else []
  | .pathSwitch peer _ clear => if clear = true ∧ key.node = peer then [.cleared] else []
  | _ => []

namespace DataPlane

/-- The state of the receiver of a connection, or that of a new one where there is none. -/
def receiving (p : DataPlane) (key : EntityKey) : ReceiveState := ((p.receivers.get? key).map (·.state)).getD .new

/-- Whether all receivers have the window of the configuration and are settled. -/
def Tuned (p : DataPlane) : Prop :=
  ∀ key r, p.receivers.get? key = some r → r.window = p.settings.link.window ∧ r.state.Settled

/-- Whether receivers that heard something handed up some packets. -/
structure Listens (p : DataPlane) (heard : EntityKey → List Heard) (packets : List DeliveredSdu) (q : DataPlane) :
    Prop where
  tuned : q.Tuned
  settings : q.settings = p.settings
  state : ∀ key, q.receiving key = (p.receiving key).hearAll p.settings.link.window (heard key)
  packets : ∀ key, (packets.filter (·.source = key)).map DeliveredSdu.pdu =
    ((p.receiving key).units p.settings.link.window (heard key)).filterMap ConvergencePdu.read?

/-- Whether two data planes have the same receivers. -/
structure SameReceivers (p q : DataPlane) : Prop where
  receivers : q.receivers = p.receivers
  settings : q.settings = p.settings

theorem SameReceivers.refl (p : DataPlane) : SameReceivers p p := ⟨rfl, rfl⟩

theorem SameReceivers.trans {p q r : DataPlane} (first : SameReceivers p q) (second : SameReceivers q r) :
    SameReceivers p r :=
  ⟨second.receivers.trans first.receivers, second.settings.trans first.settings⟩

variable {p q r : DataPlane} {heard heard' : EntityKey → List Heard} {packets packets' : List DeliveredSdu}

theorem Listens.of_same (tuned : p.Tuned) (same : SameReceivers p q) : Listens p (fun _ => []) [] q where
  tuned := fun key r found => by
    rw [same.receivers] at found
    rw [same.settings]
    exact tuned key r found
  settings := same.settings
  state := fun key => by rw [receiving, same.receivers]; rfl
  packets := fun key => rfl

theorem Listens.trans (first : Listens p heard packets q) (second : Listens q heard' packets' r) :
    Listens p (fun key => heard key ++ heard' key) (packets ++ packets') r where
  tuned := second.tuned
  settings := second.settings.trans first.settings
  state := fun key => by rw [second.state, first.state, first.settings, ReceiveState.hearAll_append]
  packets := fun key => by
    rw [List.filter_append, List.map_append, first.packets, second.packets, first.state, first.settings,
      ReceiveState.units_append, List.filterMap_append]

/-! ## Frames -/

theorem settled_receiving (tuned : p.Tuned) (key : EntityKey) : (p.receiving key).Settled := by
  rw [receiving]
  cases found : p.receivers.get? key with
  | none => exact ReceiveState.settled_new
  | some r => exact (tuned key r found).2

/-- Handing up a unit takes nothing but reading it. -/
theorem handUp_spec (p : DataPlane) (key : EntityKey) (path : Path) (sdu : Bytes) :
    SameReceivers p (p.handUp key path sdu).2 ∧
      match (p.handUp key path sdu).1 with
      | .ok d => d.source = key ∧ ConvergencePdu.read? sdu = some d.pdu
      | .error _ => ConvergencePdu.read? sdu = none := by
  simp only [handUp, ConvergencePdu.read?]
  cases ConvergencePdu.parse sdu with
  | error cause => exact ⟨⟨rfl, rfl⟩, rfl⟩
  | ok pdu =>
    refine ⟨⟨rfl, rfl⟩, rfl, congrArg some ?_⟩
    have context := pdu.context_decompress
    generalize pdu.decompress = plain at context ⊢
    obtain ⟨sn, headers, _, payload⟩ := plain
    exact congrArg (ConvergencePdu.mk sn headers · payload) context

/-- A data plane with a receiver in some state lets the packets of units through that this receiver completed. -/
theorem Listens.of_receiver {key : EntityKey} {h : Heard} {sdu : Option Bytes} {state : ReceiveState}
    (tuned : p.Tuned) (heard : (p.receiving key).hear p.settings.link.window h = (sdu, state))
    (settings : q.settings = p.settings) (here : q.receiving key = state)
    (window : ∀ r, q.receivers.get? key = some r → r.window = p.settings.link.window)
    (others : ∀ k, k ≠ key → q.receivers.get? k = p.receivers.get? k) (source : ∀ d ∈ packets, d.source = key)
    (read : packets.map DeliveredSdu.pdu = sdu.toList.filterMap ConvergencePdu.read?) :
    Listens p (fun k => if key = k then [h] else []) packets q where
  tuned := fun k r found => by
    by_cases same : k = key
    · subst same
      have settled := ReceiveState.settled_hear (settled_receiving tuned k) p.settings.link.window h
      rw [heard, ← here, receiving, found] at settled
      rw [settings]
      exact ⟨window r found, settled⟩
    · rw [others k same] at found
      rw [settings]
      exact tuned k r found
  settings := settings
  state := fun k => by
    by_cases same : key = k
    · subst same
      rw [if_pos rfl, here]
      exact (congrArg Prod.snd heard).symm
    · rw [if_neg same, receiving, others k (Ne.symm same)]
      rfl
  packets := fun k => by
    by_cases same : key = k
    · subst same
      have all : packets.filter (·.source = key) = packets :=
        List.filter_eq_self.2 fun d member => decide_eq_true (source d member)
      rw [all, if_pos rfl, read, ReceiveState.units, heard, ReceiveState.units, List.append_nil]
    · have nothing : packets.filter (·.source = k) = [] :=
        List.filter_eq_nil_iff.2 fun d member here => same ((source d member).symm.trans (of_decide_eq_true here))
      rw [nothing, if_neg same]
      rfl

/-- A receiver that took something in and was put back. -/
theorem Listens.of_insert {key : EntityKey} {h : Heard} {sdu : Option Bytes} {after : Receiver} (tuned : p.Tuned)
    (heard : (p.receiving key).hear p.settings.link.window h = (sdu, after.state))
    (window : after.window = p.settings.link.window) (settings : q.settings = p.settings)
    (put : q.receivers = p.receivers.insert key after) (source : ∀ d ∈ packets, d.source = key)
    (read : packets.map DeliveredSdu.pdu = sdu.toList.filterMap ConvergencePdu.read?) :
    Listens p (fun k => if key = k then [h] else []) packets q := by
  refine .of_receiver tuned heard settings ?_ ?_ ?_ source read
  · rw [receiving, put, SortedMap.get?_insert_self]
    rfl
  · intro r found
    rw [put, SortedMap.get?_insert_self] at found
    rw [← Option.some.inj found]
    exact window
  · intro k other
    rw [put, SortedMap.get?_insert_of_ne _ other]

/-- The packet that came with a frame, if one did. -/
def arrived (result : Except Fault (Option DeliveredSdu)) : List DeliveredSdu :=
  match result with
  | .ok sdu => sdu.toList
  | .error _ => []

theorem arrived_handUp (p : DataPlane) (key : EntityKey) (path : Path) (sdu : Bytes) :
    (∀ d ∈ arrived ((p.handUp key path sdu).1.map some), d.source = key) ∧
      (arrived ((p.handUp key path sdu).1.map some)).map DeliveredSdu.pdu =
        [sdu].filterMap ConvergencePdu.read? := by
  have spec := (p.handUp_spec key path sdu).2
  generalize (p.handUp key path sdu).1 = answer at spec ⊢
  cases answer with
  | error cause =>
    have unread : ConvergencePdu.read? sdu = none := spec
    exact ⟨fun d member => (by cases member), by simp [unread, arrived, Except.map]⟩
  | ok d =>
    obtain ⟨source, read⟩ : d.source = key ∧ ConvergencePdu.read? sdu = some d.pdu := spec
    refine ⟨fun d' member => ?_, by simp [read, arrived, Except.map]⟩
    rw [List.mem_singleton.1 (show d' ∈ [d] from member)]
    exact source

theorem listens_transparent (tuned : p.Tuned) {f : Frame} (mode : f.envelope.mode = .transparent) :
    Listens p (fun k => if f.source = k then [.frame f] else []) (arrived (p.deliver f).1) (p.deliver f).2 := by
  let counted := p.count fun c => { c with received := c.received + 1 }
  obtain ⟨same, -⟩ := counted.handUp_spec f.source f.envelope.path f.bytes
  obtain ⟨source, read⟩ := arrived_handUp counted f.source f.envelope.path f.bytes
  have delivered : p.deliver f =
      ((counted.handUp f.source f.envelope.path f.bytes).1.map some,
        (counted.handUp f.source f.envelope.path f.bytes).2) := by
    simp only [deliver, mode]
    rfl
  have hears : (p.receiving f.source).hear p.settings.link.window (.frame f) =
      (some f.bytes, p.receiving f.source) := by
    rw [ReceiveState.hear, mode]
  rw [delivered]
  refine .of_receiver tuned hears same.settings ?_ ?_ ?_ source read
  · rw [receiving, same.receivers]
    rfl
  · intro r found
    rw [same.receivers] at found
    exact (tuned _ r found).1
  · intro k _
    rw [same.receivers]
    rfl

/-- The receiver that takes a frame in. -/
def receiverOf (p : DataPlane) (f : Frame) : Receiver :=
  (p.receivers.get? f.source).getD (.new f.source f.envelope.path p.settings.link.window)

theorem receiverOf_tuned (tuned : p.Tuned) (f : Frame) :
    (p.receiverOf f).window = p.settings.link.window ∧ (p.receiverOf f).state = p.receiving f.source := by
  rw [receiverOf, receiving]
  cases found : p.receivers.get? f.source with
  | none => exact ⟨rfl, rfl⟩
  | some r => exact ⟨(tuned _ r found).1, rfl⟩

theorem listens_segment (tuned : p.Tuned) {f : Frame} (mode : f.envelope.mode = .unacknowledged) :
    Listens p (fun k => if f.source = k then [.frame f] else []) (arrived (p.deliver f).1) (p.deliver f).2 := by
  let counted := p.count fun c => { c with received := c.received + 1 }
  obtain ⟨window, state⟩ := receiverOf_tuned tuned f
  have hears : (p.receiving f.source).hear p.settings.link.window (.frame f) =
      (p.receiverOf f).state.take (p.receiverOf f).window f.bytes := by
    rw [ReceiveState.hear, mode, window, state]
  have delivered : p.deliver f =
      match (p.receiverOf f).receive f.bytes with
      | .error cause =>
        (.error (.malformed cause.detail),
          { counted with receivers := counted.receivers.insert f.source (p.receiverOf f) }.count fun c =>
            { c with receiveErrors := c.receiveErrors + 1 })
      | .ok (none, r) => (.ok none, { counted with receivers := counted.receivers.insert f.source r })
      | .ok (some sdu, r) =>
        let q := { counted with receivers := counted.receivers.insert f.source r }
        ((q.handUp f.source f.envelope.path sdu).1.map some, (q.handUp f.source f.envelope.path sdu).2) := by
    simp only [receiverOf, Frame.source, deliver, mode, counted, count]
    split
    · rename_i cause refused
      rw [refused]
    · rename_i sdu r received
      rw [received]
      cases sdu <;> rfl
  rw [delivered]
  cases received : (p.receiverOf f).receive f.bytes with
  | error cause =>
    rw [Receiver.take_of_receive_error received] at hears
    exact .of_insert tuned hears window rfl rfl (fun d member => by cases member) rfl
  | ok answer =>
    obtain ⟨sdu, r⟩ := answer
    obtain ⟨taken, same⟩ := Receiver.take_of_receive received
    rw [taken] at hears
    have windowAfter : r.window = p.settings.link.window := by
      rw [same]
      exact window
    cases sdu with
    | none => exact .of_insert tuned hears windowAfter rfl rfl (fun d member => by cases member) rfl
    | some sdu =>
      let q := { counted with receivers := counted.receivers.insert f.source r }
      obtain ⟨same, -⟩ := q.handUp_spec f.source f.envelope.path sdu
      obtain ⟨source, read⟩ := arrived_handUp q f.source f.envelope.path sdu
      exact .of_insert tuned hears windowAfter same.settings same.receivers source read

/-- In acknowledged mode a frame is taken in as in unacknowledged mode. -/
theorem deliver_acknowledged {f : Frame} (mode : f.envelope.mode = .acknowledged) :
    p.deliver f = p.deliver { f with envelope := { f.envelope with mode := .unacknowledged } } := by
  obtain ⟨bytes, origin, nextHop, recipients, lcid, m, path⟩ := f
  obtain rfl : m = .acknowledged := mode
  rfl

theorem listens_deliver (tuned : p.Tuned) (f : Frame) :
    Listens p (fun k => if f.source = k then [.frame f] else []) (arrived (p.deliver f).1) (p.deliver f).2 := by
  cases mode : f.envelope.mode with
  | transparent => exact listens_transparent tuned mode
  | unacknowledged => exact listens_segment tuned mode
  | acknowledged =>
    have segment := listens_segment tuned (f := { f with envelope := { f.envelope with mode := .unacknowledged } }) rfl
    rw [← deliver_acknowledged mode] at segment
    obtain ⟨after, settings, state, packets⟩ := segment
    refine ⟨after, settings, fun key => (state key).trans ?_, fun key => (packets key).trans ?_⟩
    · change (p.receiving key).hearAll _ (if f.source = key then _ else _) = _
      split
      · simp only [ReceiveState.hearAll, List.foldl_cons, List.foldl_nil, ReceiveState.hear, mode]
      · rfl
    · change ((p.receiving key).units _ (if f.source = key then _ else _)).filterMap _ = _
      split
      · simp only [ReceiveState.units, ReceiveState.hear, mode]
      · rfl

/-! ## Switches -/

theorem reconcile_handOver {prior : Receiver} (settled : prior.state.Settled) (key : EntityKey) (path : Path)
    (window : Nat) (clear : Bool) :
    (Receiver.new key path window).reconcile (prior.handOver clear) =
      ([], ⟨key, path, window, if clear = true then prior.state.clear else prior.state⟩) := by
  have taken : (prior.handOver clear).Settled := by
    rw [Receiver.handOver]
    split
    · exact ReceiveState.settled_clear settled
    · exact settled
  simp only [Receiver.reconcile, Receiver.new, ReceiveState.reconcile_new taken]
  rfl

/-- Replacing receivers hands nothing up; it clears their states or leaves them as they are. -/
theorem replaceReceivers_spec (tuned : p.Tuned) (path : Path) (clear : Bool) (keys : List EntityKey) :
    (p.replaceReceivers path clear keys).1 = [] ∧ (p.replaceReceivers path clear keys).2.Tuned ∧
      (p.replaceReceivers path clear keys).2.settings = p.settings ∧
      ∀ k, (p.replaceReceivers path clear keys).2.receiving k =
        if clear = true ∧ k ∈ keys then (p.receiving k).clear else p.receiving k := by
  induction keys generalizing p with
  | nil => exact ⟨rfl, tuned, rfl, fun k => by simp [replaceReceivers]⟩
  | cons key rest ih =>
    simp only [replaceReceivers]
    cases found : p.receivers.get? key with
    | none =>
      obtain ⟨nothing, after, settings, state⟩ := ih tuned
      refine ⟨nothing, after, settings, fun k => (state k).trans ?_⟩
      by_cases same : k = key
      · subst same
        have new : p.receiving k = .new := by rw [receiving, found]; rfl
        rw [new]
        split <;> split <;> rfl
      · simp only [List.mem_cons, same, false_or]
    | some prior =>
      obtain ⟨-, settled⟩ := tuned key prior found
      let put : Receiver :=
        ⟨key, path, p.settings.link.window, if clear = true then prior.state.clear else prior.state⟩
      simp only [reconcile_handOver settled, handUpAll, List.nil_append]
      have again : DataPlane.Tuned { p with receivers := p.receivers.insert key put } := by
        intro k r here
        by_cases same : k = key
        · rw [same, SortedMap.get?_insert_self] at here
          rw [← Option.some.inj here]
          refine ⟨rfl, ?_⟩
          change ReceiveState.Settled (if clear = true then _ else _)
          split
          · exact ReceiveState.settled_clear settled
          · exact settled
        · rw [SortedMap.get?_insert_of_ne _ same] at here
          exact tuned k r here
      obtain ⟨nothing, after, settings, state⟩ := ih again
      refine ⟨nothing, after, settings, fun k => (state k).trans ?_⟩
      by_cases same : k = key
      · subst same
        have before : p.receiving k = prior.state := by rw [receiving, found]; rfl
        have now : DataPlane.receiving { p with receivers := p.receivers.insert k put } k = put.state := by
          rw [receiving, SortedMap.get?_insert_self]
          rfl
        rw [now, before]
        -- What is cleared twice is as if it was cleared once.
        cases clear with
        | true => simp only [put, true_and, List.mem_cons, true_or, if_true]; split <;> rfl
        | false => simp [put]
      · have elsewhere : DataPlane.receiving { p with receivers := p.receivers.insert key put } k = p.receiving k := by
          simp only [receiving, SortedMap.get?_insert_of_ne _ same]
        rw [elsewhere]
        simp only [List.mem_cons, same, false_or]

/-! ## What is not heard -/

theorem Outbound.same (outbound : Outbound p q) : SameReceivers p q := ⟨outbound.receivers, outbound.settings⟩

theorem same_number {l : Lcid} {sn : UInt32} {entity : ConvergenceEntity}
    (numbered : p.number l = some (sn, entity, q)) : SameReceivers p q := by
  simp only [number, Option.map_eq_some_iff] at numbered
  obtain ⟨⟨sn', entity'⟩, -, same⟩ := numbered
  simp only [Prod.mk.injEq] at same
  obtain ⟨-, -, rfl⟩ := same
  exact ⟨rfl, rfl⟩

theorem same_send (p : DataPlane) (directory : Directory) (timers : Timers) (packet : Packet) (profile : Profile)
    (mode : DeliveryMode) (direction : Direction) (route : Route) :
    SameReceivers p (p.send directory timers packet profile mode direction route).plane := by
  simp only [send]
  split
  · exact .refl p
  · rename_i lcid created flows _
    split
    · exact .refl p
    · rename_i sn entity q numbered
      have given := same_number numbered
      have first : SameReceivers p q := ⟨given.receivers, given.settings⟩
      let noted : DataPlane :=
        { q with flows := q.flows.modifyDescriptor lcid fun d => { d with path := route.path, lastSn := some sn } }
      have second : SameReceivers p noted := first.trans ⟨rfl, rfl⟩
      split
      · exact second.trans (outbound_sendToPeer noted _ _ _ _).same
      · exact second.trans (outbound_offer noted _ _ _ _ _ _ _).same

theorem same_submit (p : DataPlane) (directory : Directory) (timers : Timers) (packet : Packet) (hint : String) :
    SameReceivers p (p.submit directory timers packet hint).plane := by
  have first : SameReceivers p ((p.advance timers.now).count fun c => { c with submitted := c.submitted + 1 }) :=
    (outbound_advance p timers.now).same.trans ⟨rfl, rfl⟩
  simp only [submit]
  generalize (p.advance timers.now).count (fun c => { c with submitted := c.submitted + 1 }) = q at first ⊢
  split
  · exact first
  · split
    · exact first.trans ⟨rfl, rfl⟩
    · exact first.trans (same_send _ _ _ _ _ _ _ _)

theorem same_submitControl (p : DataPlane) (directory : Directory) (timers : Timers) (payload : Bytes) :
    SameReceivers p (p.submitControl directory timers payload).plane := by
  have first := (outbound_advance p timers.now).same
  simp only [submitControl]
  split
  · exact first.trans ⟨rfl, rfl⟩
  · split
    · exact first
    · rename_i sn entity q numbered
      exact (first.trans (same_number numbered)).trans (outbound_offer _ _ _ _ _ _ _ _).same

/-! ## Runs -/

theorem listens_switchPath (tuned : p.Tuned) (directory : Directory) (timers : Timers) (peer : NodeId) (path : Path)
    (clear : Bool) :
    Listens p (fun k => if clear = true ∧ k.node = peer then [.cleared] else [])
      (p.switchPath directory timers peer path clear).1 (p.switchPath directory timers peer path clear).2.1 := by
  simp only [switchPath]
  have same : SameReceivers p ((p.advance timers.now).applyStep directory
      ((p.advance timers.now).switches.start (p.advance timers.now).links (p.advance timers.now).buffers timers
        peer path clear)).1 := (outbound_advance_applyStep p timers.now directory _).same
  generalize ((p.advance timers.now).applyStep directory _).1 = q at same ⊢
  obtain ⟨retuned, -, -, -⟩ := Listens.of_same tuned same
  have state (k : EntityKey) : q.receiving k = p.receiving k := by rw [receiving, same.receivers, receiving]
  obtain ⟨nothing, after, settings, states⟩ :=
    replaceReceivers_spec retuned path clear (q.receivers.keys.filter (·.node = peer))
  rw [nothing]
  refine ⟨after, settings.trans same.settings, fun k => ?_, fun k => ?_⟩
  · rw [states, state]
    simp only [List.mem_filter, SortedMap.mem_keys_iff, decide_eq_true_eq]
    by_cases concerned : clear = true ∧ k.node = peer
    · rw [if_pos concerned]
      cases known : q.receivers.contains k with
      | true => rw [if_pos ⟨concerned.1, rfl, concerned.2⟩]; rfl
      | false =>
        -- A receiver that was never made is clear.
        have new : p.receiving k = .new := by
          rw [← state, receiving, (SortedMap.contains_eq_false_iff _ _).1 known]
          rfl
        rw [new, if_neg (fun h => Bool.noConfusion h.2.1)]
        rfl
    · rw [if_neg concerned, if_neg fun h => concerned ⟨h.1, h.2.2⟩]
      rfl
  · simp only [List.filter_nil, List.map_nil]
    split <;> rfl

/-- The receivers of a node hear of a moment what concerns them. -/
theorem listens_react (tuned : p.Tuned) {m : Moment} (stays : m.stimulus.Stays) :
    Listens p (fun key => m.heard key) (p.react m).handedUp (p.react m).plane := by
  obtain ⟨directory, timers, stimulus⟩ := m
  cases stimulus with
  | packet packet hint => exact .of_same tuned (same_submit p directory timers packet hint)
  | control payload => exact .of_same tuned (same_submitControl p directory timers payload)
  | opportunity limit =>
    exact .of_same tuned ((outbound_transmit p timers.now limit).trans (outbound_settle _ directory timers)).same
  | drainCheck peer => exact .of_same tuned (outbound_advance_applyStep p timers.now directory _).same
  | pathSwitch peer path clear => exact listens_switchPath tuned directory timers peer path clear
  | peerDeparted peer => exact stays.elim
  | departed => exact stays.elim
  | arrival frame => exact listens_deliver tuned frame

theorem listens_run (tuned : p.Tuned) {ms : List Moment} (stays : ∀ m ∈ ms, m.stimulus.Stays) :
    Listens p (fun key => ms.flatMap (·.heard key)) (p.handedUp ms) (p.after ms) := by
  induction ms generalizing p with
  | nil => exact .of_same tuned (.refl p)
  | cons m rest ih =>
    have first := listens_react tuned (stays m List.mem_cons_self)
    exact first.trans (ih first.tuned fun n member => stays n (List.mem_cons_of_mem _ member))

theorem tuned_new {node : NodeId} {role : Role} {settings : PlaneSettings} (made : new node role settings = .ok p) :
    p.Tuned ∧ p.settings = settings ∧ ∀ key, p.receiving key = .new := by
  obtain ⟨-, rfl⟩ := eq_of_new made
  exact ⟨fun key r found => (by cases found), rfl, fun key => rfl⟩

/-- A new node hands up of a connection what one receiver makes of all that it hears of the connection. -/
theorem handedUp_eq {node : NodeId} {role : Role} {settings : PlaneSettings} (made : new node role settings = .ok p)
    {ms : List Moment} (stays : ∀ m ∈ ms, m.stimulus.Stays) (key : EntityKey) :
    ((p.handedUp ms).filter (·.source = key)).map DeliveredSdu.pdu =
      (ReceiveState.new.units settings.link.window (ms.flatMap (·.heard key))).filterMap ConvergencePdu.read? := by
  obtain ⟨tuned, same, state⟩ := tuned_new made
  have packets := (listens_run tuned stays).packets key
  rw [state, same] at packets
  exact packets

end DataPlane
end Sidelink
