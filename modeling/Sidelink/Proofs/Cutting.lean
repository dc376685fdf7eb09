import Mathlib.Algebra.Order.Floor.Div
import Sidelink.Proofs.Transmission

/-!
How a transmit buffer cuts a unit. The data units that it queues for a unit are read back as segments that lie one after
the other in the unit, all of them full but the last, with the first and the last one marked as such (`CutFrom`). So it
is for every buffer in a segmented mode whose data units have room for data, whatever was done to it before
(`TransmitBuffer.cut_exactly`).
-/
namespace Sidelink

/-- Whether segments are a unit cut into parts of one size, the last of which may be shorter. -/
structure CutFrom (mode : DeliveryMode) (size : Nat) (sn : UInt32) (sdu : Bytes) (segments : List Segment) : Prop where
  /-- An empty unit takes a segment, too. -/
  count : segments.length = max 1 (sdu.length ⌈/⌉ size)
  number : ∀ s ∈ segments, s.header.sn = sn
  begins : segments.head?.map Segment.start = some 0
  adjoins : segments.IsChain fun a b => a.stop = b.start
  full : ∀ s ∈ segments.dropLast, s.data.length = size
  nonempty : sdu ≠ [] → ∀ s ∈ segments, s.data ≠ []
  first : ∀ index s, segments[index]? = some s → (s.header.flags.first = true ↔ index = 0)
  last : ∀ index s, segments[index]? = some s → (s.header.flags.last = true ↔ index + 1 = segments.length)
  poll : ∀ index s, segments[index]? = some s →
    (s.header.flags.poll = true ↔ mode = .acknowledged ∧ index + 1 = segments.length)
  joined : segments.flatMap Segment.data = sdu

theorem segmentCount_eq_ceilDiv (length : Nat) {chunk : Nat} (room : 0 < chunk) :
    segmentCount length chunk = max 1 (length ⌈/⌉ chunk) := by
  rw [Nat.ceilDiv_eq_add_pred_div, segmentCount, if_neg (Nat.ne_of_gt room)]
  split
  · rename_i empty
    rw [empty, Nat.zero_add, Nat.div_eq_of_lt (Nat.sub_lt room Nat.one_pos)]
    rfl
  · exact (Nat.max_eq_right (Nat.div_pos (by omega) room)).symm

/-- Every segment of a unit that is not empty begins before the unit ends. -/
theorem offset_lt_length {length chunk index : Nat} (room : 0 < chunk) (some_data : 0 < length)
    (counted : index < segmentCount length chunk) : index * chunk < length := by
  rw [segmentCount, if_neg (Nat.ne_of_gt room), if_neg (Nat.ne_of_gt some_data)] at counted
  have reach := (Nat.le_div_iff_mul_le room).1 (Nat.succ_le_of_lt counted)
  rw [Nat.succ_mul] at reach
  omega

theorem SegmentHeader.length_encode (h : SegmentHeader) (data : Bytes) :
    (h.encode data).length = SegmentHeader.length + data.length := by
  simp only [encode, Bytes.ofWord32, SegmentHeader.length, List.cons_append, List.nil_append, List.length_cons]
  omega

/-- The first chunks of a list, joined. -/
theorem flatMap_chunks (data : Bytes) (chunk count : Nat) :
    (List.range count).flatMap (fun index => (data.drop (index * chunk)).take chunk) = data.take (count * chunk) := by
  induction count with
  | zero => simp
  | succ count ih => rw [List.range_succ, List.flatMap_append, ih, List.flatMap_singleton, Nat.succ_mul, List.take_add]

namespace TransmitBuffer
variable {b c : TransmitBuffer} {unit : Offer}

/-! ## The cut of a unit -/

/-- A segment of a unit as a buffer makes it. -/
def cut (b : TransmitBuffer) (unit : Offer) (index : Nat) : Segment := ⟨b.segmentHeader unit index, b.stretch unit index⟩

/-- The segments of a unit. -/
def cuts (b : TransmitBuffer) (unit : Offer) : List Segment :=
  (List.range (b.pduCount unit.sdu.length)).map (b.cut unit)

/-- What is queued for a unit is read back as its segments. -/
theorem parse_queuedAs (segmented : b.mode ≠ .transparent) (room : 0 < b.dataSize) (unit : Offer) :
    (b.queuedAs unit).map (fun q => SegmentHeader.parse q.bytes) =
      (b.cuts unit).map fun s => .ok (s.header, s.data) := by
  rw [queuedAs, pdus_eq_segments segmented room, cuts, List.map_map, List.map_map, List.map_map]
  exact List.map_congr_left fun index _ => SegmentHeader.parse_encode _ _

theorem getElem?_cuts {index : Nat} {s : Segment} (found : (b.cuts unit)[index]? = some s) :
    index < b.pduCount unit.sdu.length ∧ s = b.cut unit index := by
  rw [cuts, List.getElem?_map, Option.map_eq_some_iff] at found
  obtain ⟨place, found, rfl⟩ := found
  obtain ⟨counted, same⟩ := List.getElem?_eq_some_iff.1 found
  rw [List.getElem_range] at same
  rw [List.length_range] at counted
  exact ⟨counted, by rw [same]⟩

theorem start_cut (segmented : b.mode ≠ .transparent) (room : 0 < b.dataSize)
    (short : unit.sdu.length < 4294967296) {index : Nat} (counted : index < b.pduCount unit.sdu.length) :
    (b.cut unit index).start = index * b.dataSize :=
  toNat_offset segmented room short counted

theorem stretch_ne_nil (segmented : b.mode ≠ .transparent) (room : 0 < b.dataSize) (some_data : unit.sdu ≠ [])
    {index : Nat} (counted : index < b.pduCount unit.sdu.length) : b.stretch unit index ≠ [] := by
  rw [pduCount_of_segmented segmented] at counted
  have inside := offset_lt_length room (List.length_pos_iff.2 some_data) counted
  rw [← List.length_pos_iff, stretch, List.length_take, List.length_drop]
  omega

/-- The segments of a unit are the unit cut into parts. -/
theorem cutFrom_cuts (segmented : b.mode ≠ .transparent) (room : 0 < b.dataSize)
    (short : unit.sdu.length < 4294967296) : CutFrom b.mode b.dataSize unit.sn unit.sdu (b.cuts unit) := by
  have size : (b.cuts unit).length = b.pduCount unit.sdu.length := by rw [cuts, List.length_map, List.length_range]
  have positive := pduCount_pos segmented room unit.sdu.length
  constructor
  case count => rw [size, pduCount_of_segmented segmented, segmentCount_eq_ceilDiv _ room]
  case number =>
    intro s member
    obtain ⟨index, -, rfl⟩ := List.mem_map.1 member
    rfl
  case begins =>
    obtain ⟨count, more⟩ := Nat.exists_eq_add_one_of_ne_zero (Nat.ne_of_gt positive)
    rw [cuts, more, List.range_succ_eq_map, List.map_cons, List.head?_cons, Option.map_some,
      start_cut segmented room short positive, Nat.zero_mul]
  case adjoins =>
    rw [List.isChain_iff_getElem]
    intro index next
    rw [size] at next
    simp only [cuts, List.getElem_map, List.getElem_range]
    rw [start_cut segmented room short next, Segment.stop, start_cut segmented room short (by omega), Nat.succ_mul]
    exact congrArg _ (length_stretch segmented room next)
  case full =>
    intro s member
    obtain ⟨index, before, rfl⟩ := List.mem_iff_getElem.1 member
    rw [List.length_dropLast, size] at before
    simp only [cuts, List.getElem_dropLast, List.getElem_map, List.getElem_range]
    exact length_stretch segmented room (by omega)
  case nonempty =>
    intro some_data s member
    obtain ⟨index, counted, rfl⟩ := List.mem_map.1 member
    exact stretch_ne_nil segmented room some_data (List.mem_range.1 counted)
  case first =>
    intro index s found
    obtain ⟨-, rfl⟩ := getElem?_cuts found
    exact decide_eq_true_iff
  case last =>
    intro index s found
    obtain ⟨-, rfl⟩ := getElem?_cuts found
    rw [size]
    exact decide_eq_true_iff
  case poll =>
    intro index s found
    obtain ⟨-, rfl⟩ := getElem?_cuts found
    rw [size]
    simp [cut, segmentHeader, and_comm]
  case joined =>
    have enough := length_le_segmentCount_mul unit.sdu.length room
    rw [← pduCount_of_segmented segmented] at enough
    rw [cuts, List.flatMap_map]
    exact (flatMap_chunks _ _ _).trans (List.take_of_length_le enough)

/-! ## Buffers -/

theorem cutsLike_performAll (b : TransmitBuffer) (calls : List BufferCall) : b.CutsLike (b.performAll calls) := by
  induction calls generalizing b with
  | nil => exact ⟨rfl, rfl⟩
  | cons call rest ih =>
    obtain ⟨mode, size⟩ := cutsLike_perform b call
    obtain ⟨mode', size'⟩ := ih (b.perform call)
    exact ⟨mode'.trans mode, size'.trans size⟩

theorem length_le_of_mem_queuedAs (segmented : b.mode ≠ .transparent) (room : 0 < b.dataSize) {q : QueuedPdu}
    (member : q ∈ b.queuedAs unit) :
    q.recipients = unit.recipients ∧ q.bytes.length ≤ SegmentHeader.length + b.dataSize := by
  obtain ⟨bytes, carried, rfl⟩ := List.mem_map.1 member
  obtain ⟨index, -, rfl⟩ := (mem_pdus_iff segmented room).1 carried
  refine ⟨rfl, ?_⟩
  show (b.segment unit index).length ≤ _
  rw [segment, SegmentHeader.length_encode]
  exact Nat.add_le_add_left (List.length_take_le _ _) _

/-- When a buffer in a segmented mode takes a unit, what it adds to its queue are data units for the recipients of the
unit, none larger than the largest allowed, and they are read back as the unit cut into parts. -/
theorem cut_exactly {key : EntityKey} {mode : DeliveryMode} {path : Path} {capacity maxPduSize : Nat}
    (segmented : mode ≠ .transparent) (room : SegmentHeader.length < maxPduSize) (calls : List BufferCall)
    {b : TransmitBuffer} (made : b = (new key mode path capacity maxPduSize).performAll calls)
    {sn : UInt32} {sdu : Bytes} {recipients : List NodeId} (short : sdu.length < 4294967296)
    (accepted : (b.offer sn sdu recipients).1 = some true) :
    ∃ added segments, (b.offer sn sdu recipients).2.queue = b.queue ++ added ∧
      (∀ q ∈ added, q.recipients = recipients ∧ q.bytes.length ≤ maxPduSize) ∧
      added.map (fun q => SegmentHeader.parse q.bytes) = segments.map (fun s => .ok (s.header, s.data)) ∧
      CutFrom mode (maxPduSize - SegmentHeader.length) sn sdu segments := by
  obtain ⟨sameMode, sameSize⟩ := made ▸ cutsLike_performAll (new key mode path capacity maxPduSize) calls
  have overhead : SegmentHeader.overhead mode = SegmentHeader.length := by
    cases mode with
    | transparent => exact absurd rfl segmented
    | unacknowledged | acknowledged => rfl
  have size : b.dataSize = maxPduSize - SegmentHeader.length := by
    rw [sameSize, ← overhead]
    rfl
  have cutting : b.mode ≠ .transparent := sameMode ▸ segmented
  have some_room : 0 < b.dataSize := size ▸ Nat.sub_pos_of_lt room
  refine ⟨b.queuedAs ⟨sn, sdu, recipients⟩, b.cuts ⟨sn, sdu, recipients⟩, ?_, fun q member => ?_,
    parse_queuedAs cutting some_room _, ?_⟩
  · rw [DataPlane.offer_queue, if_pos accepted]
    rfl
  · obtain ⟨same, bound⟩ := length_le_of_mem_queuedAs cutting some_room member
    rw [size] at bound
    exact ⟨same, by omega⟩
  · have shortUnit : (⟨sn, sdu, recipients⟩ : Offer).sdu.length < 4294967296 := short
    have cut := cutFrom_cuts cutting some_room shortUnit
    rwa [sameMode, size] at cut

/-- Calls that leave an empty unit in the queue of a buffer. -/
def leftover : List BufferCall := [.offer ⟨0, [9, 9], []⟩, .offer ⟨1, [], []⟩, .pull 1]

/-- A buffer in acknowledged mode whose segments carry three octets. -/
def pollingBuffer : TransmitBuffer := (new ⟨⟨2⟩, .first⟩ .acknowledged .direct 4 12).performAll leftover

theorem cut_exactly_polling :
    DeliveryMode.acknowledged ≠ .transparent ∧ SegmentHeader.length < 12 ∧
      (pollingBuffer.offer 7 [1, 2, 3, 4, 5, 6] [⟨3⟩]).1 = some true ∧
      ∃ added segments, (pollingBuffer.offer 7 [1, 2, 3, 4, 5, 6] [⟨3⟩]).2.queue = pollingBuffer.queue ++ added ∧
        (∀ q ∈ added, q.recipients = [⟨3⟩] ∧ q.bytes.length ≤ 12) ∧
        added.map (fun q => SegmentHeader.parse q.bytes) = segments.map (fun s => .ok (s.header, s.data)) ∧
        CutFrom .acknowledged 3 7 [1, 2, 3, 4, 5, 6] segments :=
  ⟨by decide, by decide, by decide,
    cut_exactly (by decide) (by decide) leftover rfl (by decide) (by decide)⟩

/-- Two full segments carry six octets, and the second asks for a report. -/
example :
    (pollingBuffer.offer 7 [1, 2, 3, 4, 5, 6] [⟨3⟩]).2.queue.map (fun q => SegmentHeader.parse q.bytes) =
      [.ok (⟨⟨true, true, true⟩, 1, 0⟩, []), .ok (⟨⟨true, false, false⟩, 7, 0⟩, [1, 2, 3]),
        .ok (⟨⟨false, true, true⟩, 7, 3⟩, [4, 5, 6])] := by
  decide

end TransmitBuffer
end Sidelink
