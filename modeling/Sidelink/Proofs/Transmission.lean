import Sidelink.Proofs.Buffers

/-!
What becomes of the units offered to one transmit buffer. Whatever is done to the buffer, as long as nothing is
discarded, what it hands out is the beginning of the data units of the units that it took, and the rest is queued
(`TransmitBuffer.pulled_append_queue`). In a segmented mode these data units are numbered stretches of equal size
(`TransmitBuffer.pdus_eq_segments`), and no two of them are alike (`TransmitBuffer.segment_inj`).
-/
namespace Sidelink

/-- A unit that is offered to a buffer, under its number and for some nodes. -/
structure Offer where
  sn : UInt32
  sdu : Bytes
  recipients : List NodeId
  deriving DecidableEq

/-- What can be done to a transmit buffer. -/
inductive BufferCall where
  | offer (unit : Offer)
  | pull (limit : Nat)
  | hold
  | resume
  | discard
  deriving DecidableEq

namespace TransmitBuffer

/-! ## Calls -/

/-- A buffer after a call. -/
def perform (b : TransmitBuffer) : BufferCall → TransmitBuffer
  | .offer unit => (b.offer unit.sn unit.sdu unit.recipients).2
  | .pull limit => (b.pull limit).2
  | .hold => b.hold
  | .resume => b.resume
  | .discard => b.discard

/-- The unit that a buffer takes in a call, if it takes one. -/
def takes (b : TransmitBuffer) : BufferCall → List Offer
  | .offer unit => if (b.offer unit.sn unit.sdu unit.recipients).1 = some true then [unit] else []
  | .pull _ | .hold | .resume | .discard => []

/-- The data units that a buffer hands out in a call. -/
def gives (b : TransmitBuffer) : BufferCall → List QueuedPdu
  | .pull limit => (b.pull limit).1
  | .offer _ | .hold | .resume | .discard => []

/-- A buffer after some calls. -/
def performAll (b : TransmitBuffer) (calls : List BufferCall) : TransmitBuffer := calls.foldl perform b

/-- The units that a buffer takes in some calls, in order. -/
def taken (b : TransmitBuffer) : List BufferCall → List Offer
  | [] => []
  | call :: rest => b.takes call ++ (b.perform call).taken rest

/-- The data units that a buffer hands out in some calls, in order. -/
def pulled (b : TransmitBuffer) : List BufferCall → List QueuedPdu
  | [] => []
  | call :: rest => b.gives call ++ (b.perform call).pulled rest

/-- The data units that a unit is queued as. -/
def queuedAs (b : TransmitBuffer) (unit : Offer) : List QueuedPdu :=
  (b.pdus unit.sn unit.sdu).map fun bytes => ⟨bytes, unit.recipients⟩

variable {b c : TransmitBuffer}

/-- Whether two buffers cut units alike. -/
def CutsLike (b c : TransmitBuffer) : Prop := c.mode = b.mode ∧ c.dataSize = b.dataSize

theorem cutsLike_perform (b : TransmitBuffer) (call : BufferCall) : b.CutsLike (b.perform call) := by
  cases call with
  | offer unit =>
    obtain ⟨mode, -, size, -⟩ := DataPlane.offer_unchanged b unit.sn unit.sdu unit.recipients
    exact ⟨mode, size⟩
  | pull limit | hold | resume | discard => exact ⟨rfl, rfl⟩

theorem CutsLike.queuedAs (alike : b.CutsLike c) : c.queuedAs = b.queuedAs := by
  obtain ⟨mode, size⟩ := alike
  funext unit
  simp only [TransmitBuffer.queuedAs, pdus, pduCount, mode, size]

/-- A call that discards nothing conserves the data units. -/
theorem gives_append_queue {call : BufferCall} (kept : call ≠ .discard) :
    b.gives call ++ (b.perform call).queue = b.queue ++ (b.takes call).flatMap b.queuedAs := by
  cases call with
  | offer unit =>
    rw [perform, DataPlane.offer_queue, takes, gives, List.nil_append]
    split
    · rw [List.flatMap_singleton, queuedAs]
    · rfl
  | pull limit => simp [perform, gives, takes, pull]
  | hold | resume => simp [perform, gives, takes, hold, resume]
  | discard => exact absurd rfl kept

/-- Unless something is discarded, what a buffer handed out and what is queued are the data units that were queued
before and those of the units that it took, in this order. -/
theorem pulled_append_queue {calls : List BufferCall} (kept : .discard ∉ calls) :
    b.pulled calls ++ (b.performAll calls).queue = b.queue ++ (b.taken calls).flatMap b.queuedAs := by
  induction calls generalizing b with
  | nil => simp [pulled, taken, performAll]
  | cons call rest ih =>
    rw [List.mem_cons, not_or] at kept
    have step := gives_append_queue (b := b) (Ne.symm kept.1)
    have later := ih (b := b.perform call) kept.2
    rw [(cutsLike_perform b call).queuedAs] at later
    rw [pulled, taken, List.flatMap_append, ← List.append_assoc b.queue, ← step, List.append_assoc, List.append_assoc,
      ← later]
    rfl

/-! ## Segments by their place -/

/-- The data of a segment of a unit, by the place of the segment among those of the unit. -/
def stretch (b : TransmitBuffer) (unit : Offer) (index : Nat) : Bytes :=
  (unit.sdu.drop (index * b.dataSize)).take b.dataSize

/-- The header of a segment of a unit. -/
def segmentHeader (b : TransmitBuffer) (unit : Offer) (index : Nat) : SegmentHeader :=
  let last : Bool := index + 1 = b.pduCount unit.sdu.length
  ⟨⟨index = 0, last, last && b.mode == .acknowledged⟩, unit.sn, UInt32.ofNat (index * b.dataSize)⟩

@[simp] theorem sn_segmentHeader (b : TransmitBuffer) (unit : Offer) (index : Nat) :
    (b.segmentHeader unit index).sn = unit.sn := rfl

/-- A segment of a unit. -/
def segment (b : TransmitBuffer) (unit : Offer) (index : Nat) : Bytes :=
  (b.segmentHeader unit index).encode (b.stretch unit index)

theorem segmentsFrom_eq_map (mode : DeliveryMode) {chunk : Nat} (room : 0 < chunk) (sn : UInt32) (sdu : Bytes)
    (first count : Nat) :
    segmentsFrom mode chunk sn count (first * chunk) (sdu.drop (first * chunk)) =
      (List.range' first count).map fun index =>
        let last : Bool := index + 1 = first + count
        SegmentHeader.encode ⟨⟨index = 0, last, last && mode == .acknowledged⟩, sn, UInt32.ofNat (index * chunk)⟩
          ((sdu.drop (index * chunk)).take chunk) := by
  induction count generalizing first with
  | zero => rfl
  | succ count ih =>
    have start : (first * chunk = 0) = (first = 0) := by
      rw [Nat.mul_eq_zero]
      exact propext ⟨fun h => h.resolve_right (Nat.ne_of_gt room), Or.inl⟩
    have finish : (first + 1 = first + (count + 1)) = (count = 0) := by
      refine propext ⟨fun h => ?_, fun h => ?_⟩ <;> omega
    have shift : first + 1 + count = first + (count + 1) := by omega
    have rest := ih (first + 1)
    rw [Nat.succ_mul, ← List.drop_drop, shift] at rest
    rw [segmentsFrom, rest, List.range'_succ, List.map_cons]
    simp only [start, finish]

/-- In a segmented mode, the data units of a unit are its segments by their places. -/
theorem pdus_eq_segments (segmented : b.mode ≠ .transparent) (room : 0 < b.dataSize) (unit : Offer) :
    b.pdus unit.sn unit.sdu = (List.range (b.pduCount unit.sdu.length)).map (b.segment unit) := by
  have cut : b.pdus unit.sn unit.sdu =
      segmentsFrom b.mode b.dataSize unit.sn (b.pduCount unit.sdu.length) 0 unit.sdu := by
    rw [pdus]
    cases mode : b.mode with
    | transparent => exact absurd mode segmented
    | unacknowledged | acknowledged => rfl
  have placed := segmentsFrom_eq_map b.mode room unit.sn unit.sdu 0 (b.pduCount unit.sdu.length)
  rw [Nat.zero_mul, List.drop_zero] at placed
  rw [cut, placed, List.range_eq_range']
  simp only [Nat.zero_add]
  rfl

theorem pduCount_of_segmented (segmented : b.mode ≠ .transparent) (length : Nat) :
    b.pduCount length = segmentCount length b.dataSize := by
  rw [pduCount]
  cases mode : b.mode with
  | transparent => exact absurd mode segmented
  | unacknowledged | acknowledged => rfl

theorem pduCount_pos (segmented : b.mode ≠ .transparent) (room : 0 < b.dataSize) (length : Nat) :
    0 < b.pduCount length := by
  rw [pduCount_of_segmented segmented]
  exact segmentCount_pos length room

theorem mem_pdus_iff (segmented : b.mode ≠ .transparent) (room : 0 < b.dataSize) {unit : Offer} {pdu : Bytes} :
    pdu ∈ b.pdus unit.sn unit.sdu ↔ ∃ index < b.pduCount unit.sdu.length, pdu = b.segment unit index := by
  rw [pdus_eq_segments segmented room, List.mem_map]
  simp only [List.mem_range]
  exact ⟨fun ⟨index, counted, same⟩ => ⟨index, counted, same.symm⟩,
    fun ⟨index, counted, same⟩ => ⟨index, counted, same.symm⟩⟩

variable {unit : Offer} {index : Nat}

theorem offset_le_of_counted (segmented : b.mode ≠ .transparent) (room : 0 < b.dataSize)
    (counted : index < b.pduCount unit.sdu.length) : index * b.dataSize ≤ unit.sdu.length := by
  rw [pduCount_of_segmented segmented] at counted
  exact offset_le_length room counted

/-- The header of a segment says where the segment lies. -/
theorem toNat_offset (segmented : b.mode ≠ .transparent) (room : 0 < b.dataSize) (short : unit.sdu.length < 4294967296)
    (counted : index < b.pduCount unit.sdu.length) :
    (b.segmentHeader unit index).offset.toNat = index * b.dataSize := by
  have inside := offset_le_of_counted segmented room counted
  show (UInt32.ofNat (index * b.dataSize)).toNat = _
  rw [UInt32.toNat_ofNat']
  omega

theorem liesAt_stretch (segmented : b.mode ≠ .transparent) (room : 0 < b.dataSize)
    (counted : index < b.pduCount unit.sdu.length) : LiesAt unit.sdu (index * b.dataSize) (b.stretch unit index) :=
  liesAt_take (offset_le_of_counted segmented room counted) b.dataSize

/-- Every segment but the last is full. -/
theorem length_stretch (segmented : b.mode ≠ .transparent) (room : 0 < b.dataSize)
    (more : index + 1 < b.pduCount unit.sdu.length) : (b.stretch unit index).length = b.dataSize := by
  have next := offset_le_of_counted segmented room more
  rw [Nat.succ_mul] at next
  rw [stretch, List.length_take, List.length_drop]
  omega

/-- The last segment ends where the unit ends. -/
theorem end_of_last (segmented : b.mode ≠ .transparent) (room : 0 < b.dataSize)
    (last : index + 1 = b.pduCount unit.sdu.length) :
    index * b.dataSize + (b.stretch unit index).length = unit.sdu.length := by
  have inside := offset_le_of_counted segmented room (Nat.lt_of_succ_le (Nat.le_of_eq last))
  have enough := length_le_segmentCount_mul unit.sdu.length room
  rw [← pduCount_of_segmented segmented, ← last, Nat.succ_mul] at enough
  rw [stretch, List.length_take, List.length_drop]
  omega

/-- Segments are alike only if they are the same segment of units with one number. -/
theorem segment_inj (segmented : b.mode ≠ .transparent) (room : 0 < b.dataSize) {other : Offer} {index' : Nat}
    (short : unit.sdu.length < 4294967296) (short' : other.sdu.length < 4294967296)
    (counted : index < b.pduCount unit.sdu.length) (counted' : index' < b.pduCount other.sdu.length)
    (alike : b.segment unit index = b.segment other index') : unit.sn = other.sn ∧ index = index' := by
  have parsed := congrArg SegmentHeader.parse alike
  rw [segment, segment, SegmentHeader.parse_encode, SegmentHeader.parse_encode] at parsed
  have headers : b.segmentHeader unit index = b.segmentHeader other index' :=
    (Prod.mk.inj (Except.ok.inj parsed)).1
  refine ⟨congrArg SegmentHeader.sn headers, ?_⟩
  have offsets := congrArg (fun h : SegmentHeader => h.offset.toNat) headers
  simp only [toNat_offset segmented room short counted, toNat_offset segmented room short' counted'] at offsets
  exact Nat.eq_of_mul_eq_mul_right room offsets

end TransmitBuffer
end Sidelink
