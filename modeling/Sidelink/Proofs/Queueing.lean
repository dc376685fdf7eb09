import Mathlib.Data.List.DropRight
import Sidelink.Proofs.Cutting

/-!
What a transmit buffer does over any calls at all. It never holds more data units than it has room for; it takes a unit
exactly when it does not hold, the number of the unit's data units can be computed and all of them fit; what it handed
out since it was last emptied and what is queued are the data units of the units that it took since then, in order; and
every data unit of a unit that it ever took was handed out, was dropped or is queued (`TransmitBuffer.queue_law`).
-/
namespace Sidelink

/-- How many data units of at most some size carry a unit of some length. In the segmented modes a data unit without
room for data carries nothing, and an empty unit takes a data unit, too. -/
def pdusNeeded (mode : DeliveryMode) (maxPduSize length : Nat) : Nat :=
  if mode = .transparent then 1
  else if maxPduSize ≤ SegmentHeader.length then 0
  else max 1 (length ⌈/⌉ (maxPduSize - SegmentHeader.length))

/-- Whether that number can be computed in words of 64 bits. In the segmented modes the length of a unit that is not
empty and the room for data are added up. -/
def Countable (mode : DeliveryMode) (maxPduSize length : Nat) : Prop :=
  mode = .transparent ∨ maxPduSize ≤ SegmentHeader.length ∨ length = 0 ∨
    length + (maxPduSize - SegmentHeader.length) ≤ LongWord.last

namespace TransmitBuffer
variable {b : TransmitBuffer}

/-! ## One call -/

/-- The data units that a buffer drops in a call. -/
def drops (b : TransmitBuffer) : BufferCall → List QueuedPdu
  | .discard => b.queue
  | .offer _ | .pull _ | .hold | .resume => []

/-- The data units that a buffer drops in some calls, in order. -/
def dropped (b : TransmitBuffer) : List BufferCall → List QueuedPdu
  | [] => []
  | call :: rest => b.drops call ++ (b.perform call).dropped rest

/-- A unit that is not taken leaves the queue as it is. -/
theorem queue_of_untaken {sn : UInt32} {sdu : Bytes} {recipients : List NodeId}
    (untaken : (b.offer sn sdu recipients).1 ≠ some true) : (b.offer sn sdu recipients).2.queue = b.queue := by
  rw [DataPlane.offer_queue, if_neg untaken, List.append_nil]

/-- What a call hands out, drops and leaves queued is what was queued before and is queued for a unit that it takes. -/
theorem call_conserves (b : TransmitBuffer) (call : BufferCall) :
    b.gives call ++ b.drops call ++ (b.perform call).queue = b.queue ++ (b.takes call).flatMap b.queuedAs := by
  by_cases kept : call = .discard
  · rw [kept]
    exact (List.append_nil _).trans (List.append_nil _).symm
  · have nothing : b.drops call = [] := by
      cases call with
      | discard => exact absurd rfl kept
      | offer unit | pull limit | hold | resume => rfl
    rw [nothing, List.append_nil, gives_append_queue kept]

theorem counters_perform (b : TransmitBuffer) (call : BufferCall) :
    (b.perform call).counters.pulled = b.counters.pulled + (b.gives call).length ∧
      (b.perform call).counters.discarded = b.counters.discarded + (b.drops call).length := by
  cases call with
  | offer unit =>
    have offering := b.offering unit.sn unit.sdu unit.recipients
    simp only [perform]
    generalize b.offer unit.sn unit.sdu unit.recipients = answer at offering ⊢
    cases offering <;> exact ⟨rfl, rfl⟩
  | pull limit | hold | resume | discard => exact ⟨rfl, rfl⟩

theorem capacity_perform (b : TransmitBuffer) (call : BufferCall) : (b.perform call).capacity = b.capacity := by
  cases call with
  | offer unit => exact DataPlane.capacity_offer b unit.sn unit.sdu unit.recipients
  | pull limit | hold | resume | discard => rfl

/-- A call never fills a buffer beyond its capacity. -/
theorem queue_perform_le (call : BufferCall) (within : b.queue.length ≤ b.capacity) :
    (b.perform call).queue.length ≤ b.capacity := by
  cases call with
  | offer unit =>
    rw [perform, DataPlane.offer_queue]
    split
    · rename_i taken
      obtain ⟨-, -, -, fits⟩ := (DataPlane.offer_taken_iff b unit.sn unit.sdu unit.recipients).1 taken
      rwa [List.length_append, List.length_map, length_pdus]
    · rwa [List.append_nil]
  | pull limit =>
    show (b.queue.drop limit).length ≤ _
    rw [List.length_drop]
    omega
  | hold | resume => exact within
  | discard => exact Nat.zero_le _

/-! ## Some calls -/

theorem performAll_concat (b : TransmitBuffer) (calls : List BufferCall) (call : BufferCall) :
    b.performAll (calls ++ [call]) = (b.performAll calls).perform call := List.foldl_concat ..

theorem queue_performAll_le (calls : List BufferCall) (within : b.queue.length ≤ b.capacity) :
    (b.performAll calls).capacity = b.capacity ∧ (b.performAll calls).queue.length ≤ b.capacity := by
  induction calls generalizing b with
  | nil => exact ⟨rfl, within⟩
  | cons call rest ih =>
    have step := queue_perform_le call within
    rw [← capacity_perform b call] at step ⊢
    exact ih step

theorem counters_performAll (b : TransmitBuffer) (calls : List BufferCall) :
    (b.performAll calls).counters.pulled = b.counters.pulled + (b.pulled calls).length ∧
      (b.performAll calls).counters.discarded = b.counters.discarded + (b.dropped calls).length := by
  induction calls generalizing b with
  | nil => exact ⟨rfl, rfl⟩
  | cons call rest ih =>
    obtain ⟨pulled, discarded⟩ := ih (b.perform call)
    obtain ⟨given, lost⟩ := counters_perform b call
    simp only [TransmitBuffer.pulled, dropped, List.length_append, ← Nat.add_assoc, ← given, ← lost]
    exact ⟨pulled, discarded⟩

/-- Over any calls, what a buffer handed out, dropped and has queued are as many data units as were queued before and
as the units that it took make up. -/
theorem calls_conserve (b : TransmitBuffer) (calls : List BufferCall) :
    (b.pulled calls).length + (b.dropped calls).length + (b.performAll calls).queue.length =
      b.queue.length + ((b.taken calls).map fun unit => (b.queuedAs unit).length).sum := by
  induction calls generalizing b with
  | nil => simp [pulled, dropped, performAll, taken]
  | cons call rest ih =>
    have step := congrArg List.length (call_conserves b call)
    have later := ih (b.perform call)
    rw [(cutsLike_perform b call).queuedAs] at later
    simp only [List.length_append, List.length_flatMap] at step
    simp only [pulled, dropped, taken, List.length_append, List.map_append, List.sum_append, performAll,
      List.foldl_cons] at later ⊢
    omega

/-! ## Holding -/

/-- Whether some calls leave a buffer holding: they hold it, and do not resume it afterwards. -/
def Held (calls : List BufferCall) : Prop := ∃ before after, calls = before ++ .hold :: after ∧ .resume ∉ after

theorem held_concat (calls : List BufferCall) (call : BufferCall) :
    Held (calls ++ [call]) ↔ call = .hold ∨ call ≠ .resume ∧ Held calls := by
  constructor
  · rintro ⟨before, after, same, still⟩
    rcases List.eq_nil_or_concat after with rfl | ⟨after, last, rfl⟩
    · obtain ⟨-, same⟩ := List.append_inj' same rfl
      exact Or.inl (List.singleton_inj.1 same)
    · rw [List.concat_eq_append] at same still
      rw [← List.cons_append, ← List.append_assoc] at same
      obtain ⟨rfl, sameCall⟩ := List.append_inj' same rfl
      obtain rfl := List.singleton_inj.1 sameCall
      rw [List.mem_append, not_or, List.mem_singleton] at still
      exact Or.inr ⟨Ne.symm still.2, before, after, rfl, still.1⟩
  · rintro (rfl | ⟨other, before, after, rfl, still⟩)
    · exact ⟨calls, [], rfl, List.not_mem_nil⟩
    · refine ⟨before, after ++ [call], by rw [List.append_assoc, List.cons_append], ?_⟩
      rw [List.mem_append, not_or, List.mem_singleton]
      exact ⟨still, Ne.symm other⟩

theorem holding_performAll_iff (idle : b.holding = false) (calls : List BufferCall) :
    (b.performAll calls).holding = true ↔ Held calls := by
  induction calls using List.reverseRecOn with
  | nil => simp [performAll, idle, Held]
  | append_singleton calls call ih =>
    rw [performAll_concat, held_concat, ← ih]
    cases call with
    | offer unit =>
      obtain ⟨-, -, -, same⟩ :=
        DataPlane.offer_unchanged (b.performAll calls) unit.sn unit.sdu unit.recipients
      simp [perform, same]
    | pull limit | hold | resume | discard => simp [perform, pull, hold, resume, discard]

/-! ## Since a buffer was emptied -/

/-- Some calls up to the last one that empties a buffer. -/
def untilEmptied (calls : List BufferCall) : List BufferCall := calls.rdropWhile (· ≠ .discard)

/-- Some calls after the last one that empties a buffer. -/
def sinceEmptied (calls : List BufferCall) : List BufferCall := calls.rtakeWhile (· ≠ .discard)

theorem discard_not_mem_sinceEmptied (calls : List BufferCall) : .discard ∉ sinceEmptied calls := fun member => by
  have kept := List.mem_rtakeWhile_imp member
  simp at kept

theorem performAll_sinceEmptied (b : TransmitBuffer) (calls : List BufferCall) :
    (b.performAll (untilEmptied calls)).performAll (sinceEmptied calls) = b.performAll calls := by
  rw [performAll, performAll, ← List.foldl_append, untilEmptied, sinceEmptied, List.rdropWhile_append_rtakeWhile]
  rfl

theorem queue_untilEmptied (empty : b.queue = []) (calls : List BufferCall) :
    (b.performAll (untilEmptied calls)).queue = [] := by
  induction calls using List.reverseRecOn with
  | nil => exact empty
  | append_singleton calls call ih =>
    rw [untilEmptied, List.rdropWhile_concat]
    split
    · exact ih
    · rename_i empties
      obtain rfl : call = .discard := by simpa using empties
      rw [performAll_concat]
      rfl

/-! ## The law of the queue -/

theorem pduCount_of_new {key : EntityKey} {mode : DeliveryMode} {path : Path} {capacity maxPduSize : Nat}
    (alike : (new key mode path capacity maxPduSize).CutsLike b) (length : Nat) :
    b.pduCount length = pdusNeeded mode maxPduSize length := by
  obtain ⟨sameMode, sameSize⟩ := alike
  change b.mode = mode at sameMode
  change b.dataSize = maxPduSize - SegmentHeader.overhead mode at sameSize
  have segmented (size : b.dataSize = maxPduSize - SegmentHeader.length) :
      segmentCount length b.dataSize = if maxPduSize ≤ SegmentHeader.length then 0
        else max 1 (length ⌈/⌉ (maxPduSize - SegmentHeader.length)) := by
    rw [size]
    split
    · rename_i small
      rw [Nat.sub_eq_zero_of_le small]
      rfl
    · exact segmentCount_eq_ceilDiv length (by omega)
  rw [pduCount, pdusNeeded, sameMode]
  cases mode with
  | transparent => rfl
  | unacknowledged | acknowledged => exact segmented sameSize

theorem counts_iff_of_new {key : EntityKey} {mode : DeliveryMode} {path : Path} {capacity maxPduSize : Nat}
    (alike : (new key mode path capacity maxPduSize).CutsLike b) (length : Nat) :
    b.Counts length ↔ Countable mode maxPduSize length := by
  obtain ⟨sameMode, sameSize⟩ := alike
  change b.mode = mode at sameMode
  change b.dataSize = maxPduSize - SegmentHeader.overhead mode at sameSize
  have full : maxPduSize - SegmentHeader.length = 0 ↔ maxPduSize ≤ SegmentHeader.length := Nat.sub_eq_zero_iff_le
  rw [counts_iff, sameMode, sameSize, Countable, ← full]
  cases mode with
  | transparent => exact iff_of_true (Or.inl rfl) (Or.inl rfl)
  | unacknowledged | acknowledged => rfl

/-- A buffer gives no answer exactly when it does not hold and cannot compute how many data units it takes. -/
theorem offer_eq_none_iff (b : TransmitBuffer) (sn : UInt32) (sdu : Bytes) (recipients : List NodeId) :
    (b.offer sn sdu recipients).1 = none ↔ b.holding = false ∧ ¬ b.Counts sdu.length := by
  have offering := b.offering sn sdu recipients
  generalize b.offer sn sdu recipients = answer at offering ⊢
  cases offering with
  | refused holds => simp [holds]
  | unanswered free uncounted => simp [free, Counts, uncounted]
  | overflowed free counts | taken free counts => simp [counts]

/-- Over any calls on a new buffer, with any capacity and any largest data unit: the queue stays within the capacity; a
unit is taken exactly when the buffer was not told to hold, the number of the unit's data units can be computed, it
takes a data unit at least and all its data units fit, and the queue stays as it is when it is not; it gets no answer
exactly when the buffer was not told to hold and this number cannot be computed; what was handed out since the buffer
was emptied, followed by the queue, are the data units of the units taken since then, in order; and what was counted as
handed out and as dropped and what is queued are as many data units as all the units taken make up. -/
theorem queue_law (key : EntityKey) (mode : DeliveryMode) (path : Path) (capacity maxPduSize : Nat)
    (calls : List BufferCall) :
    let fresh := new key mode path capacity maxPduSize
    let emptied := fresh.performAll (untilEmptied calls)
    let b := fresh.performAll calls
    b.queue.length ≤ capacity ∧
      (b.holding = true ↔ Held calls) ∧
      (∀ sn sdu recipients,
        ((b.offer sn sdu recipients).1 = some true ↔
          b.holding = false ∧ Countable mode maxPduSize sdu.length ∧ 0 < pdusNeeded mode maxPduSize sdu.length ∧
            b.queue.length + pdusNeeded mode maxPduSize sdu.length ≤ capacity) ∧
        ((b.offer sn sdu recipients).1 = none ↔ b.holding = false ∧ ¬ Countable mode maxPduSize sdu.length) ∧
        ((b.offer sn sdu recipients).1 ≠ some true → (b.offer sn sdu recipients).2.queue = b.queue)) ∧
      emptied.pulled (sinceEmptied calls) ++ b.queue =
        (emptied.taken (sinceEmptied calls)).flatMap fresh.queuedAs ∧
      b.counters.pulled = (fresh.pulled calls).length ∧
      b.counters.discarded = (fresh.dropped calls).length ∧
      b.counters.pulled + b.counters.discarded + b.queue.length =
        ((fresh.taken calls).map fun unit => pdusNeeded mode maxPduSize unit.sdu.length).sum := by
  intro fresh emptied b
  have empty : fresh.queue = [] := rfl
  obtain ⟨room, within⟩ := queue_performAll_le (b := fresh) calls (Nat.zero_le _)
  obtain ⟨pulled, discarded⟩ := counters_performAll fresh calls
  have needed (length : Nat) := pduCount_of_new (cutsLike_performAll fresh calls) length
  have counts (length : Nat) := counts_iff_of_new (cutsLike_performAll fresh calls) length
  have conserved : emptied.pulled (sinceEmptied calls) ++ b.queue =
      (emptied.taken (sinceEmptied calls)).flatMap fresh.queuedAs := by
    have kept := pulled_append_queue (b := emptied) (discard_not_mem_sinceEmptied calls)
    rwa [performAll_sinceEmptied, queue_untilEmptied empty, List.nil_append,
      (cutsLike_performAll fresh (untilEmptied calls)).queuedAs] at kept
  have total := calls_conserve fresh calls
  have carried (unit : Offer) : (fresh.queuedAs unit).length = pdusNeeded mode maxPduSize unit.sdu.length := by
    rw [queuedAs, List.length_map, length_pdus, pduCount_of_new ⟨rfl, rfl⟩]
  refine ⟨within, holding_performAll_iff rfl calls, fun sn sdu recipients => ⟨?_, ?_, queue_of_untaken⟩, conserved,
    pulled.trans (Nat.zero_add _), discarded.trans (Nat.zero_add _), ?_⟩
  · rw [DataPlane.offer_taken_iff, needed, counts, room]
    rfl
  · rw [offer_eq_none_iff, counts]
  · simp only [carried] at total
    rw [pulled, discarded]
    rw [empty] at total
    show 0 + _ + (0 + _) + _ = _
    simpa using total

/-- With the largest data units there are, a new buffer gives no answer to a unit of eleven octets, although it does not
hold and has room for the one data unit that the unit needs. -/
theorem unanswered_at_largest :
    let b := new ⟨⟨2⟩, .first⟩ .unacknowledged .direct 256 LongWord.last
    b.holding = false ∧ pdusNeeded .unacknowledged LongWord.last 11 = 1 ∧ b.queue.length + 1 ≤ 256 ∧
      (b.offer 0 (List.replicate 11 0) [⟨2⟩]).1 = none :=
  ⟨rfl, by decide, by decide, by decide⟩

end TransmitBuffer
end Sidelink
