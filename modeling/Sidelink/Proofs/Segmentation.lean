import Sidelink.Link.Reassembly
import Sidelink.Link.TransmitBuffer
import Sidelink.Proofs.Codec
import Sidelink.Proofs.Maps

/-!
A unit and its segments. Every segment that a transmit buffer makes is a stretch of its unit behind a header that
says where the stretch lies (`SegmentOf`), and segments of one unit that cover it make up that unit again, whatever
order they came in (`Partial.assemble_of_isComplete`). In the order in which a buffer makes them, the last segment is
the one that completes the unit (`Partial.UpTo`).
-/
namespace Sidelink

/-- Whether some data is what a unit has at an offset. -/
def LiesAt (sdu : Bytes) (offset : Nat) (data : Bytes) : Prop :=
  offset + data.length ≤ sdu.length ∧ (sdu.drop offset).take data.length = data

theorem liesAt_take {sdu : Bytes} {offset : Nat} (inside : offset ≤ sdu.length) (size : Nat) :
    LiesAt sdu offset ((sdu.drop offset).take size) := by
  constructor
  · rw [List.length_take, List.length_drop]
    omega
  · rw [List.length_take, List.take_eq_take_iff, List.length_drop]
    omega

/-! ## Units in parts -/

namespace Partial

theorem coverage_append (covered : Nat) (l k : List (Nat × Bytes)) :
    coverage covered (l ++ k) = (coverage covered l).bind (coverage · k) := by
  induction l generalizing covered with
  | nil => rfl
  | cons x rest ih =>
    simp only [List.cons_append, coverage]
    split
    · rfl
    · exact ih _

/-- Whether some segment has the octet at a place. -/
def Reaches (l : List (Nat × Bytes)) (place : Nat) : Prop := ∃ e ∈ l, e.1 ≤ place ∧ place < e.1 + e.2.length

/-- Segments that reach as far as a place without a gap have every octet before it. -/
theorem reaches_of_coverage {l : List (Nat × Bytes)} {covered reached place : Nat}
    (covers : coverage covered l = some reached) (onward : covered ≤ place) (before : place < reached) :
    Reaches l place := by
  induction l generalizing covered with
  | nil =>
    obtain rfl := Option.some.inj covers
    omega
  | cons x rest ih =>
    obtain ⟨offset, data⟩ := x
    simp only [coverage] at covers
    split at covers
    · cases covers
    · rename_i noGap
      by_cases here : place < offset + data.length
      · exact ⟨_, List.mem_cons_self, by show offset ≤ place; omega, here⟩
      · obtain ⟨e, member, has⟩ := ih covers (by omega)
        exact ⟨e, List.mem_cons_of_mem _ member, has⟩

/-- Segments in order of offset that have every octet between two places reach as far as the second. -/
theorem coverage_of_reaches {l : List (Nat × Bytes)} (sorted : l.Pairwise (fun a b => a.1 < b.1)) {covered total : Nat}
    (inside : ∀ e ∈ l, e.1 ≤ total) (all : ∀ place, covered ≤ place → place < total → Reaches l place) :
    ∃ reached, coverage covered l = some reached ∧ total ≤ reached := by
  induction l generalizing covered with
  | nil =>
    refine ⟨covered, rfl, Nat.not_lt.1 fun short => ?_⟩
    obtain ⟨e, member, -⟩ := all covered (Nat.le_refl _) short
    cases member
  | cons x rest ih =>
    obtain ⟨offset, data⟩ := x
    obtain ⟨below, rest_sorted⟩ := List.pairwise_cons.1 sorted
    have noGap : offset ≤ covered := by
      refine Nat.not_lt.1 fun gap => ?_
      have bound : offset ≤ total := inside _ List.mem_cons_self
      obtain ⟨e, member, starts, -⟩ := all covered (Nat.le_refl _) (by omega)
      rcases List.mem_cons.1 member with rfl | later
      · exact absurd starts (Nat.not_le.2 gap)
      · have : offset < e.1 := below e later
        omega
    rw [coverage, if_neg (Nat.not_lt.2 noGap)]
    refine ih rest_sorted (fun e member => inside e (List.mem_cons_of_mem _ member)) fun place onward before => ?_
    obtain ⟨e, member, starts, ends⟩ := all place (by omega) before
    rcases List.mem_cons.1 member with rfl | later
    · exact absurd ends (by show ¬ place < offset + data.length; omega)
    · exact ⟨e, later, starts, ends⟩

/-- Segments that reach a place without a gap make up the unit as far as that place. -/
theorem join_of_coverage {sdu : Bytes} {l : List (Nat × Bytes)} (lies : ∀ e ∈ l, LiesAt sdu e.1 e.2)
    {covered reached : Nat} (inside : covered ≤ sdu.length) (covers : coverage covered l = some reached) :
    covered ≤ reached ∧ reached ≤ sdu.length ∧ join covered l = (sdu.drop covered).take (reached - covered) := by
  induction l generalizing covered with
  | nil =>
    obtain rfl := Option.some.inj covers
    simp [join, inside]
  | cons x rest ih =>
    obtain ⟨offset, data⟩ := x
    obtain ⟨fits, same⟩ : LiesAt sdu offset data := lies _ List.mem_cons_self
    simp only [coverage] at covers
    split at covers
    · cases covers
    · rename_i noGap
      have later := fun e member => lies e (List.mem_cons_of_mem _ member)
      obtain ⟨onward, bound, joined⟩ := ih later (by omega) covers
      refine ⟨by omega, bound, ?_⟩
      simp only [join]
      split
      · rename_i known
        rw [Nat.max_eq_left known] at joined
        exact joined
      · rename_i new
        rw [Nat.max_eq_right (by omega)] at joined onward
        -- What the segment adds begins at `covered`, inside its own data.
        have added : data.drop (covered - offset) = (sdu.drop covered).take (offset + data.length - covered) := by
          conv => lhs; rw [← same]
          rw [List.drop_take, List.drop_drop]
          congr 1
          · omega
          · congr 1
            omega
        have split_at : reached - covered =
            (offset + data.length - covered) + (reached - (offset + data.length)) := by omega
        rw [joined, added, split_at, List.take_add, List.drop_drop]
        congr 3
        omega

/-- Whether all segments are stretches of one unit, and the length that they claim is the unit's. -/
structure PartOf (sdu : Bytes) (p : Partial) : Prop where
  lies : ∀ e ∈ p.segments.entries, LiesAt sdu e.1 e.2
  total : ∀ length, p.total = some length → length = sdu.length

theorem partOf_empty (sdu : Bytes) : PartOf sdu empty where
  lies := fun e member => by cases member
  total := fun length known => by cases known

/-- Complete segments of a unit make up the unit. -/
theorem assemble_of_isComplete {sdu : Bytes} {p : Partial} (partOf : PartOf sdu p) (whole : p.isComplete = true) :
    p.assemble = sdu := by
  simp only [isComplete] at whole
  split at whole
  · rename_i total reached known covers
    have length := partOf.total total known
    obtain ⟨-, bound, joined⟩ := join_of_coverage partOf.lies (Nat.zero_le _) covers
    have enough : total ≤ reached := of_decide_eq_true whole
    rw [assemble, joined, List.drop_zero, Nat.sub_zero]
    exact List.take_of_length_le (by omega)
  · cases whole

/-- Segments of a unit are complete when the length of the unit is known and none of its octets is missing. -/
theorem isComplete_iff {sdu : Bytes} {p : Partial} (partOf : PartOf sdu p) :
    p.isComplete = true ↔
      p.total = some sdu.length ∧ ∀ place < sdu.length, Reaches p.segments.entries place := by
  constructor
  · intro whole
    simp only [isComplete] at whole
    split at whole
    · rename_i total reached known covers
      have length := partOf.total total known
      have enough : total ≤ reached := of_decide_eq_true whole
      exact ⟨length ▸ known, fun place before => reaches_of_coverage covers (Nat.zero_le _) (by omega)⟩
    · cases whole
  · rintro ⟨known, all⟩
    have inside : ∀ e ∈ p.segments.entries, e.1 ≤ sdu.length := fun e member =>
      Nat.le_trans (Nat.le_add_right _ _) (partOf.lies e member).1
    obtain ⟨reached, covers, enough⟩ := coverage_of_reaches p.segments.sorted inside fun place _ => all place
    rw [isComplete, known, covers]
    exact decide_eq_true enough

variable {sdu : Bytes} {p q : Partial} {offset : Nat} {data : Bytes} {last : Bool}

theorem insert?_eq_none_iff (p : Partial) (offset : Nat) (data : Bytes) (last : Bool) :
    p.insert? offset data last = none ↔ p.segments.contains offset = true := by
  rw [insert?]
  split
  · rename_i known
    exact ⟨fun _ => known, fun _ => rfl⟩
  · rename_i unknown
    exact ⟨fun absurdly => (by cases absurdly), fun known => absurd known unknown⟩

theorem exists_insert? (free : ∀ stored, p.segments.get? offset ≠ some stored) (data : Bytes) (last : Bool) :
    ∃ q, p.insert? offset data last = some q := by
  rw [← Option.ne_none_iff_exists', Ne, insert?_eq_none_iff, SortedMap.contains_eq_true_iff]
  exact fun ⟨stored, found⟩ => free stored found

/-- What is stored with a segment that was added: all that was stored before, and the segment. -/
theorem segments_insert? (grown : p.insert? offset data last = some q) (place : Nat) (stored : Bytes) :
    q.segments.get? place = some stored ↔
      p.segments.get? place = some stored ∨ place = offset ∧ stored = data := by
  simp only [insert?] at grown
  split at grown
  · cases grown
  · rename_i free
    rw [Bool.not_eq_true, SortedMap.contains_eq_false_iff] at free
    rw [← Option.some.inj grown]
    by_cases here : place = offset
    · rw [here, SortedMap.get?_insert_self, free, Option.some.injEq, eq_comm]
      simp
    · rw [SortedMap.get?_insert_of_ne _ here]
      simp [here]

theorem total_insert? (grown : p.insert? offset data last = some q) :
    q.total = if last then some (offset + data.length) else p.total := by
  simp only [insert?] at grown
  split at grown
  · cases grown
  · rw [← Option.some.inj grown]

theorem partOf_insert? (partOf : PartOf sdu p) (lies : LiesAt sdu offset data)
    (ends : last = true → offset + data.length = sdu.length) (grown : p.insert? offset data last = some q) :
    PartOf sdu q where
  lies := fun e member => by
    rcases (segments_insert? grown e.1 e.2).1 ((SortedMap.get?_eq_some_iff _ _ _).2 member) with old | ⟨place, new⟩
    · exact partOf.lies e ((SortedMap.get?_eq_some_iff _ _ _).1 old)
    · rw [place, new]
      exact lies
  total := fun length known => by
    rw [total_insert? grown] at known
    cases last with
    | true => rw [← Option.some.inj known, ends rfl]
    | false => exact partOf.total length known

/-! ## Segments in order -/

/-- Whether the segments are all that a unit has before a place, and the last one is not among them. -/
structure UpTo (sdu : Bytes) (reached : Nat) (p : Partial) : Prop extends PartOf sdu p where
  covers : coverage 0 p.segments.entries = some reached
  below : ∀ e ∈ p.segments.entries, e.1 < reached
  unknown : p.total = none

theorem upTo_empty (sdu : Bytes) : UpTo sdu 0 empty where
  toPartOf := partOf_empty sdu
  covers := rfl
  below := fun e member => by cases member
  unknown := rfl

theorem not_isComplete_of_upTo {reached : Nat} (upTo : UpTo sdu reached p) : p.isComplete = false := by
  simp only [isComplete, upTo.unknown]

theorem contains_of_upTo {reached : Nat} (upTo : UpTo sdu reached p) : p.segments.contains reached = false := by
  rw [SortedMap.contains_eq_false_iff]
  cases found : p.segments.get? reached with
  | none => rfl
  | some data => exact absurd (upTo.below _ ((SortedMap.get?_eq_some_iff _ _ _).1 found)) (Nat.lt_irrefl _)

theorem coverage_insert_of_upTo {reached : Nat} (upTo : UpTo sdu reached p) (data : Bytes) :
    coverage 0 (p.segments.insert reached data).entries = some (reached + data.length) := by
  rw [SortedMap.entries_insert_of_greater _ _ upTo.below, coverage_append, upTo.covers]
  simp [coverage]

/-- The next segment, where it is not the last, is stored. -/
theorem insert?_of_upTo {reached : Nat} (upTo : UpTo sdu reached p) (lies : LiesAt sdu reached data)
    (some_data : 0 < data.length) :
    ∃ q, p.insert? reached data false = some q ∧ UpTo sdu (reached + data.length) q := by
  have grown : p.insert? reached data false = some ⟨p.segments.insert reached data, p.total⟩ := by
    rw [insert?, contains_of_upTo upTo]
    rfl
  refine ⟨_, grown, partOf_insert? upTo.toPartOf lies (fun h => by cases h) grown, coverage_insert_of_upTo upTo data,
    ?_, upTo.unknown⟩
  intro e member
  rw [SortedMap.entries_insert_of_greater _ _ upTo.below] at member
  rcases List.mem_append.1 member with old | new
  · have := upTo.below e old
    omega
  · rw [List.mem_singleton.1 new]
    show reached < _
    omega

/-- The last segment completes the unit. -/
theorem insert?_last_of_upTo {reached : Nat} (upTo : UpTo sdu reached p) (lies : LiesAt sdu reached data)
    (ends : reached + data.length = sdu.length) :
    ∃ q, p.insert? reached data true = some q ∧ q.isComplete = true ∧ q.assemble = sdu := by
  have grown : p.insert? reached data true =
      some ⟨p.segments.insert reached data, some (reached + data.length)⟩ := by
    rw [insert?, contains_of_upTo upTo]
    rfl
  have whole : isComplete ⟨p.segments.insert reached data, some (reached + data.length)⟩ = true := by
    simp [isComplete, coverage_insert_of_upTo upTo data]
  exact ⟨_, grown, whole, assemble_of_isComplete (partOf_insert? upTo.toPartOf lies (fun _ => ends) grown) whole⟩

end Partial

/-! ## Segments on their own -/

/-- A segment as it is read from a data unit. -/
structure Segment where
  header : SegmentHeader
  data : Bytes
  deriving DecidableEq

namespace Segment

/-- Where a segment begins in its unit. -/
def start (s : Segment) : Nat := s.header.offset.toNat

/-- Where a segment ends in its unit. -/
def stop (s : Segment) : Nat := s.start + s.data.length

/-- The data unit that carries a segment. -/
def pdu (s : Segment) : Bytes := s.header.encode s.data

end Segment

/-! ## How many segments -/

theorem segmentCount_pos (length : Nat) {chunk : Nat} (room : 0 < chunk) : 0 < segmentCount length chunk := by
  rw [segmentCount, if_neg (by omega)]
  split
  · exact Nat.one_pos
  · exact Nat.div_pos (by omega) room

/-- A unit of more than one segment fills the first, and the rest of it takes one segment less. -/
theorem segmentCount_rest {length chunk n : Nat} (room : 0 < chunk) (more : segmentCount length chunk = n + 2) :
    chunk < length ∧ segmentCount (length - chunk) chunk = n + 1 := by
  rw [segmentCount, if_neg (by omega)] at more
  split at more
  · omega
  · rename_i some_data
    have long : chunk < length := by
      have := (Nat.le_div_iff_mul_le room).1 (Nat.le_of_eq more.symm)
      rw [Nat.add_mul] at this
      omega
    refine ⟨long, ?_⟩
    have shift : length + chunk - 1 = (length - chunk + chunk - 1) + chunk := by omega
    rw [shift, Nat.add_div_right _ room] at more
    rw [segmentCount, if_neg (by omega), if_neg (by omega)]
    omega

theorem le_of_segmentCount_one {length chunk : Nat} (room : 0 < chunk) (single : segmentCount length chunk = 1) :
    length ≤ chunk := by
  rw [segmentCount, if_neg (by omega)] at single
  split at single
  · omega
  · have := (Nat.div_eq_iff room).1 single
    omega

/-- Every segment begins inside its unit, or at the start of an empty one. -/
theorem offset_le_length {length chunk index : Nat} (room : 0 < chunk) (counted : index < segmentCount length chunk) :
    index * chunk ≤ length := by
  rw [segmentCount, if_neg (by omega)] at counted
  split at counted
  · obtain rfl : index = 0 := by omega
    omega
  · have reach := (Nat.le_div_iff_mul_le room).1 (Nat.succ_le_of_lt counted)
    rw [Nat.succ_mul] at reach
    omega

/-- The segments of a unit have room for all of it. -/
theorem length_le_segmentCount_mul (length : Nat) {chunk : Nat} (room : 0 < chunk) :
    length ≤ segmentCount length chunk * chunk := by
  rw [segmentCount, if_neg (by omega)]
  split
  · omega
  · have := Nat.lt_div_mul_add room (a := length + chunk - 1)
    omega

/-- The number of segments is computed where there are no octets to carry or none to carry them in, and where the sum of
the length and the size is a word. -/
theorem segmentCount?_eq (length chunk : Nat) :
    segmentCount? length chunk =
      if chunk = 0 ∨ length = 0 ∨ length + chunk ≤ LongWord.last then some (segmentCount length chunk) else none := by
  unfold segmentCount? segmentCount LongWord.sum?
  by_cases room : chunk = 0
  · simp [room]
  by_cases empty : length = 0
  · simp [room, empty]
  by_cases small : length + chunk ≤ LongWord.last <;> simp [room, empty, small]

/-- Whether a buffer can compute how many data units a unit of some length takes. -/
def TransmitBuffer.Counts (b : TransmitBuffer) (length : Nat) : Prop := b.pduCount? length = some (b.pduCount length)

instance (b : TransmitBuffer) : DecidablePred b.Counts := fun _ => inferInstanceAs (Decidable (_ = _))

theorem TransmitBuffer.counts_or_none (b : TransmitBuffer) (length : Nat) :
    b.Counts length ∨ b.pduCount? length = none := by
  unfold Counts pduCount? pduCount
  cases b.mode with
  | transparent => exact Or.inl rfl
  | unacknowledged | acknowledged =>
    simp only [segmentCount?_eq]
    split
    · exact Or.inl rfl
    · exact Or.inr rfl

theorem TransmitBuffer.counts_iff (b : TransmitBuffer) (length : Nat) :
    b.Counts length ↔
      b.mode = .transparent ∨ b.dataSize = 0 ∨ length = 0 ∨ length + b.dataSize ≤ LongWord.last := by
  unfold Counts pduCount? pduCount
  cases b.mode with
  | transparent => simp
  | unacknowledged | acknowledged =>
    simp only [segmentCount?_eq, reduceCtorEq, false_or]
    split
    · rename_i small
      exact iff_of_true rfl small
    · rename_i large
      exact iff_of_false (by simp) large

/-! ## Segments of a unit -/

/-- Whether a data unit is a segment of a unit under a number. -/
def SegmentOf (sn : UInt32) (sdu pdu : Bytes) : Prop :=
  ∃ header data, pdu = SegmentHeader.encode header data ∧ header.sn = sn ∧
    LiesAt sdu header.offset.toNat data ∧ (header.flags.last = true → header.offset.toNat + data.length = sdu.length)

namespace TransmitBuffer

theorem length_segmentsFrom (mode : DeliveryMode) (chunk : Nat) (sn : UInt32) (count offset : Nat) (rest : Bytes) :
    (segmentsFrom mode chunk sn count offset rest).length = count := by
  induction count generalizing offset rest with
  | zero => rfl
  | succ count ih => rw [segmentsFrom, List.length_cons, ih]

theorem length_pdus (b : TransmitBuffer) (sn : UInt32) (sdu : Bytes) :
    (b.pdus sn sdu).length = b.pduCount sdu.length := by
  unfold pdus pduCount
  split
  · rfl
  all_goals
    rename_i mode
    simp [length_segmentsFrom, mode]

theorem getElem?_segmentsFrom {mode : DeliveryMode} {chunk : Nat} {sn : UInt32} {count offset index : Nat}
    {rest pdu : Bytes} (found : (segmentsFrom mode chunk sn count offset rest)[index]? = some pdu) :
    index < count ∧
      ∃ flags data, pdu = SegmentHeader.encode ⟨flags, sn, UInt32.ofNat (offset + index * chunk)⟩ data := by
  induction count generalizing offset index rest with
  | zero => cases found
  | succ count ih =>
    cases index with
    | zero =>
      rw [← Option.some.inj found]
      exact ⟨Nat.succ_pos count, _, _, by rw [Nat.zero_mul, Nat.add_zero]⟩
    | succ index =>
      obtain ⟨below, flags, data, same⟩ := ih found
      refine ⟨Nat.succ_lt_succ below, flags, data, ?_⟩
      rw [same, Nat.succ_mul]
      congr 3
      omega

theorem segmentOf_of_mem {sdu : Bytes} (short : sdu.length < 4294967296) (mode : DeliveryMode) {chunk : Nat}
    (room : 0 < chunk) (sn : UInt32) {offset count : Nat} (inside : offset ≤ sdu.length)
    (counted : segmentCount (sdu.length - offset) chunk = count) {pdu : Bytes}
    (member : pdu ∈ segmentsFrom mode chunk sn count offset (sdu.drop offset)) : SegmentOf sn sdu pdu := by
  have place : (UInt32.ofNat offset).toNat = offset := by
    rw [UInt32.toNat_ofNat']
    omega
  induction count generalizing offset with
  | zero => cases member
  | succ count ih =>
    rcases List.mem_cons.1 member with rfl | later
    · refine ⟨_, _, rfl, rfl, ?_, ?_⟩
      · rw [place]
        exact liesAt_take inside chunk
      · intro last
        obtain rfl : count = 0 := of_decide_eq_true last
        have := le_of_segmentCount_one room counted
        rw [place, List.length_take, List.length_drop]
        omega
    · cases count with
      | zero => cases later
      | succ count =>
        obtain ⟨long, rest⟩ := segmentCount_rest room counted
        rw [List.drop_drop] at later
        have step : sdu.length - (offset + chunk) = sdu.length - offset - chunk := by omega
        refine ih (by omega) (by rw [step, rest]) later ?_
        rw [UInt32.toNat_ofNat']
        omega

end TransmitBuffer

/-! ## Data units under a configuration -/

namespace LinkSettings

theorem of_fault?_eq_none {link : LinkSettings} (valid : link.fault? = none) :
    0 < link.queueCapacity ∧ SegmentHeader.length < link.maxPduSize ∧ 0 < link.window := by
  simp only [fault?] at valid
  split at valid
  · cases valid
  · split at valid
    · cases valid
    · split at valid
      · cases valid
      · omega

/-- How many octets of a unit go into one segment. -/
def dataSize (link : LinkSettings) (mode : DeliveryMode) : Nat := link.maxPduSize - SegmentHeader.overhead mode

/-- The data units that a unit travels in. -/
def pdus (link : LinkSettings) (mode : DeliveryMode) (sn : UInt32) (sdu : Bytes) : List Bytes :=
  match mode with
  | .transparent => [sdu]
  | .unacknowledged | .acknowledged =>
    TransmitBuffer.segmentsFrom mode (link.dataSize mode) sn (segmentCount sdu.length (link.dataSize mode)) 0 sdu

theorem dataSize_pos {link : LinkSettings} (valid : link.fault? = none) (mode : DeliveryMode) :
    0 < link.dataSize mode := by
  have := (of_fault?_eq_none valid).2.1
  cases mode <;> simp only [dataSize, SegmentHeader.overhead] <;> omega

theorem pdus_of_segmented (link : LinkSettings) {mode : DeliveryMode} (segmented : mode ≠ .transparent) (sn : UInt32)
    (sdu : Bytes) :
    link.pdus mode sn sdu = TransmitBuffer.segmentsFrom mode (link.dataSize mode) sn
      (segmentCount sdu.length (link.dataSize mode)) 0 sdu := by
  cases mode with
  | transparent => exact absurd rfl segmented
  | unacknowledged => rfl
  | acknowledged => rfl

/-- A segment says where it lies. -/
theorem header_of_pdus {link : LinkSettings} (valid : link.fault? = none) {mode : DeliveryMode}
    (segmented : mode ≠ .transparent) {sn : UInt32} {sdu pdu : Bytes} (short : sdu.length < 4294967296) {index : Nat}
    (found : (link.pdus mode sn sdu)[index]? = some pdu) :
    ∃ header data, SegmentHeader.parse pdu = .ok (header, data) ∧ header.sn = sn ∧
      header.offset.toNat = index * link.dataSize mode := by
  rw [pdus_of_segmented link segmented] at found
  obtain ⟨counted, flags, data, rfl⟩ := TransmitBuffer.getElem?_segmentsFrom found
  refine ⟨_, data, SegmentHeader.parse_encode _ _, rfl, ?_⟩
  have inside := offset_le_length (dataSize_pos valid mode) counted
  rw [Nat.zero_add, UInt32.toNat_ofNat']
  omega

/-- What travels is a segment of the unit, or in transparent mode the unit itself. -/
theorem segmentOf_of_mem_pdus {link : LinkSettings} (valid : link.fault? = none) {mode : DeliveryMode} {sn : UInt32}
    {sdu pdu : Bytes} (short : sdu.length < 4294967296) (member : pdu ∈ link.pdus mode sn sdu) :
    if mode = .transparent then pdu = sdu else SegmentOf sn sdu pdu := by
  cases mode with
  | transparent => simpa [pdus] using member
  | unacknowledged =>
    exact TransmitBuffer.segmentOf_of_mem short _ (dataSize_pos valid _) sn (Nat.zero_le _) rfl member
  | acknowledged =>
    exact TransmitBuffer.segmentOf_of_mem short _ (dataSize_pos valid _) sn (Nat.zero_le _) rfl member

end LinkSettings

namespace TransmitBuffer

/-- Whether a buffer cuts units as a configuration says. -/
def Follows (link : LinkSettings) (b : TransmitBuffer) : Prop := b.dataSize = link.dataSize b.mode

theorem follows_new (key : EntityKey) (mode : DeliveryMode) (path : Path) (link : LinkSettings) :
    Follows link (new key mode path link.queueCapacity link.maxPduSize) := rfl

theorem pdus_of_follows {link : LinkSettings} {b : TransmitBuffer} (follows : Follows link b) (sn : UInt32)
    (sdu : Bytes) : b.pdus sn sdu = link.pdus b.mode sn sdu := by
  cases mode : b.mode <;> simp only [pdus, LinkSettings.pdus, pduCount, mode] <;> rw [follows, mode]

end TransmitBuffer
end Sidelink
