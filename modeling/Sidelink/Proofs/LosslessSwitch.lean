import Sidelink.Proofs.Gathering
import Sidelink.Proofs.Placement

/-!
Switches that keep what is buffered lose nothing. A sender under one directory, whose peers change paths at any time,
sends all that its buffers take; a receiver that gets these frames in the order in which they were sent hands up what
the buffers took, in the order of the numbers, each packet once and none left out (`DataPlane.handed_up_in_order`).
-/
namespace Sidelink

/-- The number and the contents of the packet whose unit a buffer took. -/
def Admission.pdu? (a : Admission) : Option ConvergencePdu := ConvergencePdu.read? a.sdu

/-- The frames of a connection that arrive at a moment. -/
def Moment.received (key : EntityKey) (m : Moment) : List Frame :=
  match m.stimulus with
  | .arrival frame => if frame.source = key then [frame] else []
  | _ => []

namespace Stimulus

theorem stays_of_keeps {stimulus : Stimulus} (keeps : stimulus.Keeps) : stimulus.Stays := by
  cases stimulus with
  | peerDeparted peer => exact keeps
  | departed => exact keeps
  | _ => exact trivial

end Stimulus

/-- Of a moment that clears nothing, a receiver hears the frames only. -/
theorem Moment.heard_of_keeps {m : Moment} (keeps : m.stimulus.Keeps) (key : EntityKey) :
    m.heard key = (m.received key).map .frame := by
  obtain ⟨directory, timers, stimulus⟩ := m
  cases stimulus with
  | arrival frame =>
    simp only [heard, received]
    split <;> rfl
  | pathSwitch peer path clear =>
    have kept : clear = false := keeps
    simp [heard, received, kept]
  | _ => rfl

/-- Whether a unit reads as a packet with the number that it was taken under. -/
def Admission.Readable (a : Admission) : Prop := ∃ pdu, a.pdu? = some pdu ∧ pdu.sn = a.sn

theorem filterMap_pdu? {taken : List Admission} (readable : ∀ x ∈ taken, x.Readable) :
    (taken.filterMap Admission.pdu?).map some = taken.map Admission.pdu? ∧
      (taken.filterMap Admission.pdu?).map (·.sn) = taken.map (·.sn) := by
  induction taken with
  | nil => exact ⟨rfl, rfl⟩
  | cons x rest ih =>
    obtain ⟨contents, numbers⟩ := ih fun y member => readable y (List.mem_cons_of_mem _ member)
    obtain ⟨pdu, read, number⟩ := readable x List.mem_cons_self
    rw [List.filterMap_cons_some read]
    simp only [List.map_cons, contents, numbers, read, number, and_self]

namespace DataPlane

/-- Whether no frame of a connection waits for its opportunity. -/
def Drained (p : DataPlane) (l : Lcid) : Prop := ∀ hop b, p.buffers.get? ⟨hop, l⟩ = some b → b.queue = []

theorem Drained.waiting_eq_nil {p : DataPlane} {l : Lcid} (drained : p.Drained l) (hop : NodeId) :
    p.waiting ⟨hop, l⟩ = [] := by
  cases found : p.buffers.get? ⟨hop, l⟩ with
  | none => exact DataPlane.waiting_eq_nil found
  | some b =>
    rw [waiting_of_get? found, drained hop b found]
    rfl

variable {nodeA nodeB : NodeId} {roleA roleB : Role} {settingsA settingsB : PlaneSettings} {a b : DataPlane}
  {sending receiving : List Moment} {directory : Directory} {l : Lcid}

/-- What the buffers of a sender take on a connection comes with increasing numbers, and leaves without loss: the
frames that were sent are the first frames of these units, and all of them once nothing waits. -/
theorem sent_lossless (made : new nodeA roleA settingsA = .ok a) (same : ∀ m ∈ sending, m.directory = directory)
    (keeps : ∀ m ∈ sending, m.stimulus.Keeps) (traffic : l ≠ .control) :
    let taken := (a.admitted sending).filter (·.key.lcid = l)
    let sent := (a.sent sending).filter (·.envelope.lcid = l)
    let frames := taken.flatMap (Admission.frames nodeA settingsA.link)
    taken.Pairwise (·.sn < ·.sn) ∧ sent <+: frames ∧ ((a.after sending).Drained l → sent = frames) := by
  obtain ⟨effects, ⟨-, admitted, sent⟩, orderly, kept⟩ := orderly_run made same
  obtain ⟨hop, -, -, lossless⟩ := orderly.line l traffic
  have increasing := orderly.increasing traffic
  have all := lossless (kept keeps)
  rw [sentOn, admittedOn, admitted, sent] at all
  rw [admittedOn, admitted] at increasing
  refine ⟨increasing, ⟨_, all⟩, fun drained => ?_⟩
  rw [drained.waiting_eq_nil hop, List.append_nil] at all
  exact all

/-- Every unit that a buffer takes is that of a packet that was submitted, under the connection and the number that
the packet was given. -/
theorem admitted_unit (made : new nodeA roleA settingsA = .ok a) (sending : List Moment) {x : Admission}
    (taken : x ∈ a.admitted sending) (traffic : x.key.lcid ≠ .control) :
    ∃ y ∈ a.dispatched sending, y.2.lcid = x.key.lcid ∧ y.2.sn = some x.sn ∧
      x.sdu = y.1.unit settingsA.compression x.sn := by
  obtain ⟨effects, ⟨issued, admitted, -⟩, sound⟩ := sound_run made sending
  rw [← admitted] at taken
  rcases sound.sourced.admitted x taken with control | ⟨packet, given, sdu⟩
  · exact absurd control traffic
  · obtain ⟨y, submitted, rfl, lcid, number⟩ := (mem_issued issued).1 given
    exact ⟨y, submitted, lcid, number, sdu⟩

/-- Whatever switches that clear nothing happen at either end: a receiver that gets the frames of a connection in the
order in which they were sent has handed up, at any time, the first of the packets that the sender's buffers took on
the connection, in the order of their numbers; and all of them once no frame waits or is under way. -/
theorem handed_up_in_order (madeA : new nodeA roleA settingsA = .ok a) (madeB : new nodeB roleB settingsB = .ok b)
    (same : ∀ m ∈ sending, m.directory = directory) (keepsA : ∀ m ∈ sending, m.stimulus.Keeps)
    (keepsB : ∀ m ∈ receiving, m.stimulus.Keeps)
    (short : ShortUnits settingsA.compression (a.dispatched sending)) (traffic : l ≠ .control)
    (inOrder : receiving.flatMap (·.received ⟨nodeA, l⟩) <+: (a.sent sending).filter (·.envelope.lcid = l)) :
    let taken := (a.admitted sending).filter (·.key.lcid = l)
    let delivered := (b.handedUp receiving).filter (·.source = ⟨nodeA, l⟩)
    delivered.Pairwise (·.sn < ·.sn) ∧ delivered.map (some ·.pdu) <+: taken.map Admission.pdu? ∧
      (receiving.flatMap (·.received ⟨nodeA, l⟩) = (a.sent sending).filter (·.envelope.lcid = l) →
        (a.after sending).Drained l → delivered.map (some ·.pdu) = taken.map Admission.pdu?) := by
  intro taken delivered
  obtain ⟨increasing, sent, drained⟩ := sent_lossless madeA same keepsA traffic
  have unit {x : Admission} (member : x ∈ taken) : ∃ y ∈ a.dispatched sending, y.2.sn = some x.sn ∧
      x.sdu = y.1.unit settingsA.compression x.sn := by
    obtain ⟨admitted, connection⟩ := List.mem_filter.1 member
    obtain ⟨y, submitted, -, number, sdu⟩ :=
      admitted_unit madeA sending admitted (of_decide_eq_true connection ▸ traffic)
    exact ⟨y, submitted, number, sdu⟩
  have readable (x : Admission) (member : x ∈ taken) : x.Readable := by
    obtain ⟨y, -, -, sdu⟩ := unit member
    exact ⟨_, by rw [Admission.pdu?, sdu]; exact y.1.read?_unit _ _, rfl⟩
  have fits (x : Admission) (member : x ∈ taken) : x.sdu.length < 4294967296 := by
    obtain ⟨y, submitted, number, sdu⟩ := unit member
    rw [sdu]
    exact short y submitted x.sn number
  obtain ⟨k, units, all⟩ := Admission.units_of_prefix settingsB.link.window (link_fault?_of_new madeA)
    ReceiveState.ready_new (fun x _ => Nat.zero_le _) increasing fits (inOrder.trans sent)
  have heard : receiving.flatMap (·.heard ⟨nodeA, l⟩) = (receiving.flatMap (·.received ⟨nodeA, l⟩)).map .frame := by
    rw [List.map_flatMap, List.flatMap_def, List.flatMap_def]
    exact congrArg List.flatten (List.map_congr_left fun m member => Moment.heard_of_keeps (keepsB m member) _)
  have contents : delivered.map DeliveredSdu.pdu = (taken.take k).filterMap Admission.pdu? := by
    rw [handedUp_eq madeB (fun m member => Stimulus.stays_of_keeps (keepsB m member)), heard, units,
      List.filterMap_map]
    rfl
  obtain ⟨packets, numbers⟩ := filterMap_pdu? fun x member => readable x (List.mem_of_mem_take member)
  rw [← contents, List.map_map] at packets numbers
  refine ⟨?_, ?_, fun arrived empty => ?_⟩
  · refine List.pairwise_map.1 (?_ : (delivered.map (·.sn)).Pairwise (· < ·))
    rw [show delivered.map (·.sn) = (taken.take k).map (·.sn) from numbers]
    exact List.pairwise_map.2 (increasing.sublist (List.take_sublist _ _))
  · rw [show delivered.map (some ·.pdu) = (taken.take k).map Admission.pdu? from packets]
    exact (List.take_prefix k taken).map _
  · obtain rfl := all (arrived.trans (drained empty))
    rw [show delivered.map (some ·.pdu) = (taken.take taken.length).map Admission.pdu? from packets, List.take_length]

/-- Frames arrive in order, with a switch after the first one that clears nothing. -/
def interrupted (frames : List Frame) : List Moment :=
  (frames.take 1).map (fun f => (Stimulus.arrival f).inPair) ++
    (Stimulus.pathSwitch ⟨1⟩ .infrastructure false).inPair ::
    (frames.drop 1).map (fun f => (Stimulus.arrival f).inPair)

theorem handed_up_in_order_at_switchover :
    let arrivals := interrupted ((fresh 1).sent switchover)
    let sent := ((fresh 1).sent switchover).filter (·.envelope.lcid = .first)
    let taken := ((fresh 1).admitted switchover).filter (·.key.lcid = .first)
    let delivered := ((fresh 2).handedUp arrivals).filter (·.source = ⟨⟨1⟩, .first⟩)
    (∀ m ∈ switchover, m.directory = .pair ∧ m.stimulus.Keeps) ∧ (∀ m ∈ arrivals, m.stimulus.Keeps) ∧
      ShortUnits PlaneSettings.default.compression ((fresh 1).dispatched switchover) ∧
      arrivals.flatMap (·.received ⟨⟨1⟩, .first⟩) = sent ∧ ((fresh 1).after switchover).Drained .first ∧
      taken.map (·.sn) = [0, 1, 2] ∧ delivered.Pairwise (·.sn < ·.sn) ∧
      delivered.map (some ·.pdu) <+: taken.map Admission.pdu? ∧
      (arrivals.flatMap (·.received ⟨⟨1⟩, .first⟩) = sent → ((fresh 1).after switchover).Drained .first →
        delivered.map (some ·.pdu) = taken.map Admission.pdu?) := by
  intro arrivals sent taken delivered
  have keepsA : ∀ m ∈ switchover, m.directory = .pair ∧ m.stimulus.Keeps := by
    simp [switchover, Stimulus.inPair, Stimulus.Keeps]
  have keepsB : ∀ m ∈ arrivals, m.stimulus.Keeps := by
    intro m member
    simp only [arrivals, interrupted, List.mem_append, List.mem_cons, List.mem_map] at member
    rcases member with ⟨f, -, rfl⟩ | rfl | ⟨f, -, rfl⟩
    · exact trivial
    · rfl
    · exact trivial
  have short : ShortUnits PlaneSettings.default.compression ((fresh 1).dispatched switchover) := by
    have dispatched : (fresh 1).dispatched switchover = [(.hello, ⟨.first, some 0, .queued⟩),
        (.hello, ⟨.first, some 1, .queued⟩), (.hello, ⟨.first, some 2, .deferred⟩)] := by decide +kernel
    rw [dispatched]
    intro x member sn number
    simp only [List.mem_cons, List.not_mem_nil, or_false] at member
    rcases member with rfl | rfl | rfl <;> cases number <;> decide
  have inOrder : arrivals.flatMap (·.received ⟨⟨1⟩, .first⟩) = sent := by decide +kernel
  have drained : ((fresh 1).after switchover).Drained .first := by
    have empty : ∀ e ∈ ((fresh 1).after switchover).buffers.entries, e.2.queue = [] := by decide +kernel
    exact fun hop b found => empty (⟨hop, .first⟩, b) ((SortedMap.get?_eq_some_iff _ _ _).1 found)
  exact ⟨keepsA, keepsB, short, inOrder, drained, by decide +kernel,
    handed_up_in_order new_fresh.1 new_fresh.2 (fun m member => (keepsA m member).1)
      (fun m member => (keepsA m member).2) keepsB short (by decide) (inOrder ▸ List.prefix_rfl)⟩

end DataPlane
end Sidelink
