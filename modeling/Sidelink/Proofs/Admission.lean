import Sidelink.Proofs.Queueing
import Sidelink.Proofs.Robustness

/-!
The arithmetic of a transmit buffer that takes units. A buffer computes with lengths, places and counts in words of 64
bits. The functions whose names end in `InWords` repeat its computation with operations that have no result where a sum
or a product leaves the range of these words or a slice does not lie in the data. Where they have a result, it is that
of the buffer (`TransmitBuffer.offerInWords_eq`), and under every valid configuration they have one as long as the sum
from which the number of segments is computed is a word (`TransmitBuffer.offer_in_words`). That number is the length of
the unit over the room in a segment, rounded up, but an empty unit takes a segment, too.
-/
namespace Sidelink

/-! ## Operations on words of 64 bits -/

namespace LongWord

/-- The largest number of octets that anything can occupy. No unit and no queue of the program is longer. -/
def longest : Nat := 9223372036854775807

/-- The product of two words, if it is one. -/
def product? (a b : Nat) : Option Nat := if a * b ≤ last then some (a * b) else none

/-- The data from a place up to another, if there are such places in this order. -/
def slice? (data : Bytes) (start stop : Nat) : Option Bytes :=
  if start ≤ stop ∧ stop ≤ data.length then some ((data.take stop).drop start) else none

theorem sum?_eq_some {a b : Nat} (small : a + b ≤ last) : sum? a b = some (a + b) := if_pos small

theorem product?_eq_some {a b : Nat} (small : a * b ≤ last) : product? a b = some (a * b) := if_pos small

theorem slice?_eq_some {data : Bytes} {start : Nat} (inside : start ≤ data.length) (size : Nat) :
    slice? data start (min (start + size) data.length) = some ((data.drop start).take size) := by
  rw [slice?, if_pos ⟨by omega, Nat.min_le_right _ _⟩, ← List.take_take, List.take_length, List.drop_take,
    Nat.add_sub_cancel_left]

end LongWord

/-! ## Buffers that compute in words -/

/-- `segmentCount` in words. -/
def segmentCountInWords (length chunk : Nat) : Option Nat :=
  if chunk = 0 then some 0
  else if length = 0 then some 1
  else do
    let sum ← LongWord.sum? length chunk
    let raised ← Word.difference? sum 1
    return raised / chunk

namespace TransmitBuffer

/-- `pduCount` in words. -/
def pduCountInWords (b : TransmitBuffer) (length : Nat) : Option Nat :=
  match b.mode with
  | .transparent => some 1
  | .unacknowledged | .acknowledged => segmentCountInWords length b.dataSize

/-- `segment` in words, by the place of the segment among `count` of them. -/
def segmentInWords (b : TransmitBuffer) (unit : Offer) (count index : Nat) : Option Bytes := do
  let start ← LongWord.product? index b.dataSize
  let reach ← LongWord.sum? start b.dataSize
  let next ← LongWord.sum? index 1
  let data ← LongWord.slice? unit.sdu start (min reach unit.sdu.length)
  let last : Bool := next = count
  return SegmentHeader.encode
    ⟨⟨index = 0, last, last && b.mode == .acknowledged⟩, unit.sn, UInt32.ofNat start⟩ data

/-- `pdus` in words, `count` of them. -/
def pdusInWords (b : TransmitBuffer) (unit : Offer) (count : Nat) : Option (List Bytes) :=
  match b.mode with
  | .transparent => some [unit.sdu]
  | .unacknowledged | .acknowledged => (List.range count).mapM (b.segmentInWords unit count)

/-- `offer` in words. -/
def offerInWords (b : TransmitBuffer) (unit : Offer) : Option (Option Bool × TransmitBuffer) :=
  if b.holding then do
    let refused ← LongWord.sum? b.counters.refused 1
    return (some false, { b with counters := { b.counters with refused } })
  else do
    let count ← b.pduCountInWords unit.sdu.length
    let full ← if count = 0 then some true else (LongWord.sum? b.queue.length count).map (b.capacity < ·)
    if full then
      let overflowed ← LongWord.sum? b.counters.overflowed 1
      return (some false, { b with counters := { b.counters with overflowed } })
    else
      let pdus ← b.pdusInWords unit count
      let accepted ← LongWord.sum? b.counters.accepted 1
      return (some true,
        { b with
          queue := b.queue ++ pdus.map (fun bytes => ⟨bytes, unit.recipients⟩)
          counters := { b.counters with accepted } })

end TransmitBuffer

/-! ## Counting segments -/

/-- In words the number of segments is computed like in a buffer. -/
theorem segmentCountInWords_eq (length chunk : Nat) : segmentCountInWords length chunk = segmentCount? length chunk := by
  unfold segmentCountInWords segmentCount?
  split
  · rfl
  split
  · rfl
  rename_i some_data
  by_cases small : length + chunk ≤ LongWord.last
  · have positive : 1 ≤ length + chunk := by omega
    simp [LongWord.sum?_eq_some small, Word.difference?, positive]
  · simp [LongWord.sum?, small]

/-- The number of segments is the length over the size, rounded up, but an empty unit takes a segment, too. -/
theorem segmentCount_eq_ite (length : Nat) {chunk : Nat} (room : 0 < chunk) :
    segmentCount length chunk = if length = 0 then 1 else length ⌈/⌉ chunk := by
  rw [segmentCount_eq_ceilDiv length room]
  split
  · rename_i empty
    rw [empty, zero_ceilDiv]
    rfl
  · rename_i some_data
    have positive : ¬ length ⌈/⌉ chunk ≤ 0 := fun none => by
      rw [ceilDiv_le_iff_le_mul room] at none
      omega
    exact Nat.max_eq_right (by omega)

theorem segmentCount_le (length chunk : Nat) : segmentCount length chunk ≤ max 1 length := by
  rcases Nat.eq_zero_or_pos chunk with rfl | room
  · exact Nat.zero_le _
  · rw [segmentCount_eq_ceilDiv length room]
    exact max_le_max_left 1 ((ceilDiv_le_iff_le_mul room).2 (Nat.le_mul_of_pos_left length room))

/-- A list is mapped as a whole if each of its elements is. -/
theorem mapM_eq_some_map {α β : Type} {f : α → Option β} {g : α → β} {l : List α}
    (same : ∀ a ∈ l, f a = some (g a)) : l.mapM f = some (l.map g) := by
  induction l with
  | nil => rfl
  | cons a rest ih =>
    rw [List.mapM_cons, same a List.mem_cons_self, ih fun c member => same c (List.mem_cons_of_mem a member)]
    rfl

/-! ## Cutting units -/

namespace TransmitBuffer
variable {b : TransmitBuffer} {unit : Offer}

theorem pduCountInWords_eq (b : TransmitBuffer) (length : Nat) : b.pduCountInWords length = b.pduCount? length := by
  unfold pduCountInWords pduCount?
  cases b.mode with
  | transparent => rfl
  | unacknowledged | acknowledged => exact segmentCountInWords_eq length b.dataSize

theorem pduCount_le (b : TransmitBuffer) (length : Nat) : b.pduCount length ≤ max 1 length := by
  cases mode : b.mode with
  | transparent => simp [pduCount, mode]
  | unacknowledged | acknowledged =>
    simp only [pduCount, mode]
    exact segmentCount_le length b.dataSize

/-- If the segments of a unit can be counted in words, they can be made in words: a segment begins within its unit, so
that it would end, were it full, no later than at the sum of the length and the size. -/
theorem segmentInWords_eq (segmented : b.mode ≠ .transparent) (room : 0 < b.dataSize)
    (word : b.dataSize ≤ LongWord.last) (short : unit.sdu.length ≤ LongWord.longest)
    (counts : b.Counts unit.sdu.length) {index : Nat} (counted : index < b.pduCount unit.sdu.length) :
    b.segmentInWords unit (b.pduCount unit.sdu.length) index = some (b.segment unit index) := by
  have inside := offset_le_of_counted segmented room counted
  have reach : index * b.dataSize + b.dataSize ≤ LongWord.last := by
    rcases (b.counts_iff _).1 counts with whole | full | empty | small
    · exact absurd whole segmented
    all_goals omega
  have next : index + 1 ≤ LongWord.last := by
    have few := pduCount_le b unit.sdu.length
    simp only [LongWord.longest, LongWord.last] at short ⊢
    omega
  rw [segmentInWords, LongWord.product?_eq_some (by omega)]
  simp only [Option.bind_eq_bind, Option.bind_some, LongWord.sum?_eq_some reach, LongWord.sum?_eq_some next,
    LongWord.slice?_eq_some inside]
  rfl

theorem pdusInWords_eq (room : 0 < b.dataSize) (word : b.dataSize ≤ LongWord.last)
    (short : unit.sdu.length ≤ LongWord.longest) (counts : b.Counts unit.sdu.length) :
    b.pdusInWords unit (b.pduCount unit.sdu.length) = some (b.pdus unit.sn unit.sdu) := by
  by_cases whole : b.mode = .transparent
  · simp [pdusInWords, pdus, whole]
  · have cut : b.pdusInWords unit (b.pduCount unit.sdu.length) =
        (List.range (b.pduCount unit.sdu.length)).mapM
          (b.segmentInWords unit (b.pduCount unit.sdu.length)) := by
      rw [pdusInWords]
      cases mode : b.mode with
      | transparent => exact absurd mode whole
      | unacknowledged | acknowledged => rfl
    rw [cut, pdus_eq_segments whole room]
    exact mapM_eq_some_map fun index member =>
      segmentInWords_eq whole room word short counts (List.mem_range.1 member)

/-! ## Taking units -/

/-- Whether no counter of a buffer that is raised when a unit is offered is larger than some number. -/
structure CountsUpTo (b : TransmitBuffer) (bound : Nat) : Prop where
  accepted : b.counters.accepted ≤ bound
  refused : b.counters.refused ≤ bound
  overflowed : b.counters.overflowed ≤ bound

/-- In words a buffer that can count one more unit does with it what it does, if it gives an answer, and has no result
otherwise. -/
theorem offerInWords_eq (room : 0 < b.dataSize) (word : b.dataSize ≤ LongWord.last)
    (queued : b.queue.length ≤ LongWord.longest) (bounded : b.CountsUpTo (LongWord.last - 1))
    (short : unit.sdu.length ≤ LongWord.longest) :
    b.offerInWords unit =
      if (b.offer unit.sn unit.sdu unit.recipients).1 = none then none
      else some (b.offer unit.sn unit.sdu unit.recipients) := by
  obtain ⟨accepted, refused, overflowed⟩ := bounded
  have raised {counter : Nat} (low : counter ≤ LongWord.last - 1) :
      LongWord.sum? counter 1 = some (counter + 1) :=
    LongWord.sum?_eq_some (by simp only [LongWord.last] at low ⊢; omega)
  have total : LongWord.sum? b.queue.length (b.pduCount unit.sdu.length) =
      some (b.queue.length + b.pduCount unit.sdu.length) := by
    have few := pduCount_le b unit.sdu.length
    simp only [LongWord.longest] at short queued
    exact LongWord.sum?_eq_some (by simp only [LongWord.last]; omega)
  have offering := b.offering unit.sn unit.sdu unit.recipients
  generalize b.offer unit.sn unit.sdu unit.recipients = answer at offering ⊢
  cases offering with
  | refused holds => simp [offerInWords, holds, raised refused]
  | unanswered free uncounted => simp [offerInWords, free, pduCountInWords_eq, uncounted]
  | overflowed free counts full =>
    rw [Counts] at counts
    by_cases nothing : b.pduCount unit.sdu.length = 0
    · simp [offerInWords, free, pduCountInWords_eq, counts, nothing, raised overflowed]
    · have beyond := full.resolve_left nothing
      simp [offerInWords, free, pduCountInWords_eq, counts, nothing, total, beyond, raised overflowed]
  | taken free counts some_pdu fits =>
    have made := pdusInWords_eq room word short counts
    rw [Counts] at counts
    simp [offerInWords, free, pduCountInWords_eq, counts, Nat.ne_of_gt some_pdu, total, Nat.not_lt.2 fits, made,
      raised accepted]

/-! ## Any calls -/

theorem CountsUpTo.perform {bound : Nat} (counts : b.CountsUpTo bound) (call : BufferCall) :
    (b.perform call).CountsUpTo (bound + 1) := by
  obtain ⟨accepted, refused, overflowed⟩ := counts
  cases call with
  | offer unit =>
    have offering := b.offering unit.sn unit.sdu unit.recipients
    simp only [TransmitBuffer.perform]
    generalize b.offer unit.sn unit.sdu unit.recipients = answer at offering ⊢
    cases offering <;> constructor <;> dsimp only <;> omega
  | pull limit | hold | resume | discard =>
    constructor <;> simp only [TransmitBuffer.perform, pull, hold, resume, discard] <;> omega

/-- No counter of a new buffer is larger than the number of calls on it. -/
theorem countsUpTo_performAll (key : EntityKey) (mode : DeliveryMode) (path : Path) (capacity maxPduSize : Nat)
    (calls : List BufferCall) : ((new key mode path capacity maxPduSize).performAll calls).CountsUpTo calls.length := by
  induction calls using List.reverseRecOn with
  | nil => exact ⟨Nat.le_refl 0, Nat.le_refl 0, Nat.le_refl 0⟩
  | append_singleton calls call ih =>
    rw [performAll_concat, List.length_append]
    exact ih.perform call

/-- Under a valid configuration, a buffer on which any calls were made, fewer than can be counted, does in words what
it does with every unit, if it holds or the number of data units can be computed in words. It can in transparent mode,
for an empty unit, and where the length and the size of the data in a segment sum up to a word. That number is the
length over the size, rounded up, in the segmented modes, or one for an empty unit. The queue and the unit are no longer
than anything can be (`LongWord.longest`): the program has no longer ones. -/
theorem offer_in_words {link : LinkSettings} (valid : link.fault? = none) (word : link.maxPduSize ≤ LongWord.last)
    (key : EntityKey) (mode : DeliveryMode) (path : Path) {calls : List BufferCall}
    (countable : calls.length < LongWord.last) {b : TransmitBuffer}
    (made : b = (new key mode path link.queueCapacity link.maxPduSize).performAll calls)
    (queued : b.queue.length ≤ LongWord.longest) {unit : Offer} (short : unit.sdu.length ≤ LongWord.longest) :
    let computable := mode = .transparent ∨ unit.sdu = [] ∨
      unit.sdu.length + link.dataSize mode ≤ LongWord.last
    (b.holding = true ∨ computable → b.offerInWords unit = some (b.offer unit.sn unit.sdu unit.recipients)) ∧
      (mode ≠ .transparent → computable → b.pduCountInWords unit.sdu.length =
        some (if unit.sdu = [] then 1 else unit.sdu.length ⌈/⌉ link.dataSize mode)) := by
  intro computable
  obtain ⟨sameMode, sameSize⟩ :=
    made ▸ cutsLike_performAll (new key mode path link.queueCapacity link.maxPduSize) calls
  change b.mode = mode at sameMode
  change b.dataSize = link.dataSize mode at sameSize
  have room : 0 < b.dataSize := sameSize ▸ LinkSettings.dataSize_pos valid mode
  have size : b.dataSize ≤ LongWord.last := sameSize ▸ Nat.le_trans (Nat.sub_le _ _) word
  have bounded : b.CountsUpTo (LongWord.last - 1) := by
    obtain ⟨accepted, refused, overflowed⟩ :=
      made ▸ countsUpTo_performAll key mode path link.queueCapacity link.maxPduSize calls
    constructor <;> omega
  have counted (computed : computable) : b.Counts unit.sdu.length := by
    rw [counts_iff, sameMode, sameSize, List.length_eq_zero_iff]
    exact computed.imp_right Or.inr
  refine ⟨fun able => ?_, fun segmented computed => ?_⟩
  · rw [offerInWords_eq room size queued bounded short]
    refine if_neg fun unanswered => ?_
    obtain ⟨free, uncounted⟩ := (offer_eq_none_iff b _ _ _).1 unanswered
    rcases able with holds | computed
    · exact Bool.noConfusion (holds.symm.trans free)
    · exact uncounted (counted computed)
  · rw [pduCountInWords_eq, counted computed, pduCount_of_segmented (sameMode ▸ segmented), sameSize,
      segmentCount_eq_ite _ (sameSize ▸ room)]
    simp only [List.length_eq_zero_iff]

/-- A configuration under which segments carry three octets. -/
def narrow : LinkSettings := ⟨4, 12, 2⟩

/-- A unit of two full segments and a short one. -/
def threeSegments : Offer := ⟨7, [1, 2, 3, 4, 5, 6, 7], [⟨3⟩]⟩

theorem offer_in_words_narrow :
    narrow.fault? = none ∧ narrow.maxPduSize ≤ LongWord.last ∧ leftover.length < LongWord.last ∧
      pollingBuffer.queue.length ≤ LongWord.longest ∧ threeSegments.sdu.length ≤ LongWord.longest ∧
      pollingBuffer.offerInWords threeSegments = some (pollingBuffer.offer 7 [1, 2, 3, 4, 5, 6, 7] [⟨3⟩]) ∧
      pollingBuffer.pduCountInWords 7 = some (7 ⌈/⌉ narrow.dataSize .acknowledged) := by
  have valid : narrow.fault? = none := by decide
  have word : narrow.maxPduSize ≤ LongWord.last := by decide
  have countable : leftover.length < LongWord.last := by decide
  have queued : pollingBuffer.queue.length ≤ LongWord.longest := by decide
  have short : threeSegments.sdu.length ≤ LongWord.longest := by decide
  have computable : threeSegments.sdu.length + narrow.dataSize .acknowledged ≤ LongWord.last := by decide
  obtain ⟨same, counted⟩ :=
    offer_in_words valid word ⟨⟨2⟩, .first⟩ .acknowledged .direct countable (b := pollingBuffer) rfl queued short
  exact ⟨valid, word, countable, queued, short, same (.inr (.inr (.inr computable))),
    counted (by decide) (.inr (.inr computable))⟩

/-! ## Beyond words -/

/-- A buffer that holds counts every unit that it is offered. -/
theorem refused_offers (holds : b.holding = true) (unit : Offer) (n : Nat) :
    (b.performAll (List.replicate n (.offer unit))).holding = true ∧
      (b.performAll (List.replicate n (.offer unit))).counters.refused = b.counters.refused + n := by
  induction n generalizing b with
  | zero => exact ⟨holds, rfl⟩
  | succ n ih =>
    have step : b.perform (.offer unit) =
        { b with counters := { b.counters with refused := b.counters.refused + 1 } } := by
      rw [perform, offer, if_pos holds]
    obtain ⟨still, refused⟩ := ih (b := b.perform (.offer unit)) (by rw [step]; exact holds)
    refine ⟨still, refused.trans ?_⟩
    rw [step, Nat.add_assoc, Nat.add_comm 1 n]

/-- The configuration with the largest data units. -/
def widest : LinkSettings := ⟨256, LongWord.last, 512⟩

/-- What no computation in words does: an empty unit takes a segment, which is not the quotient; a valid configuration
may have data units so large that their size and ten octets have no sum; and a buffer that holds cannot count more units
than a word does. -/
theorem beyond_words :
    (LinkSettings.default.fault? = none ∧
      segmentCountInWords 0 (LinkSettings.default.dataSize .unacknowledged) = some 1 ∧
      0 ⌈/⌉ LinkSettings.default.dataSize .unacknowledged = 0) ∧
    (widest.fault? = none ∧ widest.maxPduSize ≤ LongWord.last ∧
      (new ⟨⟨2⟩, .first⟩ .unacknowledged .direct widest.queueCapacity widest.maxPduSize).offerInWords
        ⟨0, List.replicate 10 0, [⟨2⟩]⟩ = none) ∧
    ∃ calls, ((new ⟨⟨2⟩, .first⟩ .unacknowledged .direct 256 1000).performAll calls).offerInWords
      ⟨0, [1], [⟨2⟩]⟩ = none := by
  refine ⟨⟨by decide, by decide, zero_ceilDiv _⟩, ⟨by decide, by decide, by decide⟩,
    .hold :: List.replicate LongWord.last (.offer ⟨0, [1], [⟨2⟩]⟩), ?_⟩
  obtain ⟨holds, refused⟩ := refused_offers
    (b := (new ⟨⟨2⟩, .first⟩ .unacknowledged .direct 256 1000).hold) rfl ⟨0, [1], [⟨2⟩]⟩ LongWord.last
  have uncounted : LongWord.sum? (0 + LongWord.last) 1 = none := if_neg (by decide)
  rw [performAll, List.foldl_cons, ← performAll, perform, offerInWords, if_pos holds, refused]
  exact congrArg (Option.bind · _) uncounted

end TransmitBuffer
end Sidelink
