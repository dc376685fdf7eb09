import Mathlib.Data.List.Dedup
import Mathlib.Data.List.ReduceOption
import Mathlib.Order.Bounds.Defs
import Sidelink.Proofs.Receiving
import Sidelink.Proofs.Transmission

/-!
Segments in any order. A buffer hands out the segments of some units with distinct numbers, all in the window of a new
receiver, and these segments arrive in whatever order and however often. What the receiver knows then depends only on
which of them arrived (`ReceiveState.Collects`): it answers with a unit exactly when a segment arrives that is the last
one missing, drops exactly the segments that it has, and gives nothing up (`Receiver.any_order_exact`).
-/
namespace Sidelink

/-! ## Which units are there -/

/-- Whether all segments of a unit are among some data units. -/
def Offer.InFull (b : TransmitBuffer) (heard : List Bytes) (unit : Offer) : Prop := b.pdus unit.sn unit.sdu ⊆ heard

instance (b : TransmitBuffer) (heard : List Bytes) (unit : Offer) : Decidable (unit.InFull b heard) :=
  inferInstanceAs (Decidable (b.pdus unit.sn unit.sdu ⊆ heard))

/-- The unit that a data unit completes, where others were heard before. -/
def completedBy (b : TransmitBuffer) (units : List Offer) (heard : List Bytes) (pdu : Bytes) : Option Offer :=
  units.find? fun unit => ¬ unit.InFull b heard ∧ unit.InFull b (pdu :: heard)

/-- The units that some data units complete, one after the other. -/
def completions (b : TransmitBuffer) (units : List Offer) (heard : List Bytes) : List Bytes → List (Option Offer)
  | [] => []
  | pdu :: rest => completedBy b units heard pdu :: completions b units (pdu :: heard) rest

/-- Whether the segments of some units can be told apart, and all their numbers lie in the window of a new receiver. -/
structure Discernible (b : TransmitBuffer) (window : Nat) (units : List Offer) : Prop where
  segmented : b.mode ≠ .transparent
  room : 0 < b.dataSize
  distinct : (units.map (·.sn)).Nodup
  short : ∀ unit ∈ units, unit.sdu.length < 4294967296
  inWindow : ∀ unit ∈ units, unit.sn.toNat < window
  window_le : window ≤ lastWord

variable {b : TransmitBuffer} {window : Nat} {units : List Offer} {unit other : Offer} {heard : List Bytes}
  {pdu : Bytes}
  {index : Nat}

namespace Discernible

theorem eq_of_sn (apart : Discernible b window units) (member : unit ∈ units) (member' : other ∈ units)
    (same : unit.sn = other.sn) : unit = other :=
  List.inj_on_of_nodup_map apart.distinct member member' same

theorem eq_of_toNat_sn (apart : Discernible b window units) (member : unit ∈ units) (member' : other ∈ units)
    (same : unit.sn.toNat = other.sn.toNat) : unit = other :=
  apart.eq_of_sn member member' (UInt32.toNat_inj.1 same)

/-- A segment belongs to one unit only. -/
theorem eq_of_mem_pdus (apart : Discernible b window units) (member : unit ∈ units) (member' : other ∈ units)
    (carries : pdu ∈ b.pdus unit.sn unit.sdu) (carries' : pdu ∈ b.pdus other.sn other.sdu) : unit = other := by
  obtain ⟨index, counted, rfl⟩ := (TransmitBuffer.mem_pdus_iff apart.segmented apart.room).1 carries
  obtain ⟨index', counted', alike⟩ := (TransmitBuffer.mem_pdus_iff apart.segmented apart.room).1 carries'
  obtain ⟨same, -⟩ := TransmitBuffer.segment_inj apart.segmented apart.room (apart.short unit member)
    (apart.short other member') counted counted' alike
  exact apart.eq_of_sn member member' same

theorem segment_mem_pdus (apart : Discernible b window units) (counted : index < b.pduCount unit.sdu.length) :
    b.segment unit index ∈ b.pdus unit.sn unit.sdu :=
  (TransmitBuffer.mem_pdus_iff apart.segmented apart.room).2 ⟨index, counted, rfl⟩

theorem inFull_iff (apart : Discernible b window units) :
    unit.InFull b heard ↔ ∀ index < b.pduCount unit.sdu.length, b.segment unit index ∈ heard := by
  constructor
  · exact fun full index counted => full (apart.segment_mem_pdus counted)
  · intro all pdu carries
    obtain ⟨index, counted, rfl⟩ := (TransmitBuffer.mem_pdus_iff apart.segmented apart.room).1 carries
    exact all index counted

theorem not_inFull_nil (apart : Discernible b window units) : ¬ unit.InFull b [] := by
  rw [apart.inFull_iff]
  intro all
  cases all 0 (TransmitBuffer.pduCount_pos apart.segmented apart.room _)

end Discernible

theorem Offer.InFull.mono {heard' : List Bytes} (full : unit.InFull b heard) (more : heard ⊆ heard') :
    unit.InFull b heard' := fun _ carries => more (full carries)

theorem mem_of_completes (lacking : ¬ unit.InFull b heard) (full : unit.InFull b (pdu :: heard)) :
    pdu ∈ b.pdus unit.sn unit.sdu := by
  refine Decidable.byContradiction fun missing => lacking fun x carries => ?_
  rcases List.mem_cons.1 (full carries) with rfl | known
  · exact absurd carries missing
  · exact known

theorem completedBy_eq_some_iff (apart : Discernible b window units) :
    completedBy b units heard pdu = some unit ↔
      unit ∈ units ∧ ¬ unit.InFull b heard ∧ unit.InFull b (pdu :: heard) := by
  constructor
  · intro found
    have completes := List.find?_some found
    exact ⟨List.mem_of_find?_eq_some found, of_decide_eq_true completes⟩
  · rintro ⟨member, lacking, full⟩
    cases found : completedBy b units heard pdu with
    | none => exact absurd (decide_eq_true ⟨lacking, full⟩) (List.find?_eq_none.1 found unit member)
    | some other =>
      have completes := List.find?_some found
      obtain ⟨lacking', full'⟩ := of_decide_eq_true completes
      rw [apart.eq_of_mem_pdus member (List.mem_of_find?_eq_some found) (mem_of_completes lacking full)
        (mem_of_completes lacking' full')]

theorem some_mem_completions_iff (apart : Discernible b window units) (heard pdus : List Bytes) :
    some unit ∈ completions b units heard pdus ↔
      unit ∈ units ∧ ¬ unit.InFull b heard ∧ unit.InFull b (pdus.reverse ++ heard) := by
  induction pdus generalizing heard with
  | nil =>
    simp only [completions, List.not_mem_nil, List.reverse_nil, List.nil_append, false_iff]
    exact fun ⟨_, lacking, full⟩ => lacking full
  | cons pdu rest ih =>
    have heard_subset : pdu :: heard ⊆ rest.reverse ++ pdu :: heard := List.subset_append_right _ _
    rw [completions, List.mem_cons, eq_comm, completedBy_eq_some_iff apart, ih, List.reverse_cons, List.append_assoc,
      List.singleton_append]
    constructor
    · rintro (⟨member, lacking, full⟩ | ⟨member, lacking, full⟩)
      · exact ⟨member, lacking, full.mono heard_subset⟩
      · exact ⟨member, fun known => lacking (known.mono (List.subset_cons_self _ _)), full⟩
    · rintro ⟨member, lacking, full⟩
      by_cases now : unit.InFull b (pdu :: heard)
      · exact Or.inl ⟨member, lacking, now⟩
      · exact Or.inr ⟨member, now, full⟩

theorem nodup_completions (apart : Discernible b window units) (heard pdus : List Bytes) :
    (completions b units heard pdus).reduceOption.Nodup := by
  induction pdus generalizing heard with
  | nil => exact List.nodup_nil
  | cons pdu rest ih =>
    rw [completions]
    cases completed : completedBy b units heard pdu with
    | none => exact ih _
    | some unit =>
      rw [List.reduceOption_cons_of_some, List.nodup_cons, List.reduceOption_mem_iff, some_mem_completions_iff apart]
      exact ⟨fun ⟨_, lacking, _⟩ => lacking ((completedBy_eq_some_iff apart).1 completed).2.2, ih _⟩

/-- Data units among which are all segments complete every unit once. -/
theorem completions_perm (apart : Discernible b window units) {pdus : List Bytes}
    (all : ∀ unit ∈ units, unit.InFull b pdus) : (completions b units [] pdus).reduceOption.Perm units := by
  have once : units.Nodup := List.Nodup.of_map _ apart.distinct
  refine (List.perm_ext_iff_of_nodup (nodup_completions apart _ _) once).2 fun unit => ?_
  rw [List.reduceOption_mem_iff, some_mem_completions_iff apart, List.append_nil]
  exact ⟨And.left, fun member => ⟨member, apart.not_inFull_nil, (all unit member).mono fun x => List.mem_reverse.2⟩⟩

/-! ## Parts of a unit -/

namespace Discernible

theorem segment_eq_iff (apart : Discernible b window units) (member : unit ∈ units) {index' : Nat}
    (counted : index < b.pduCount unit.sdu.length) (counted' : index' < b.pduCount unit.sdu.length) :
    b.segment unit index = b.segment unit index' ↔ index = index' := by
  constructor
  · exact fun alike => (TransmitBuffer.segment_inj apart.segmented apart.room (apart.short unit member)
      (apart.short unit member) counted counted' alike).2
  · rintro rfl
    rfl

end Discernible

namespace Partial
variable {p : Partial}

/-- Whether a unit in parts has exactly those segments of a unit that are among some data units. -/
structure Holds (b : TransmitBuffer) (unit : Offer) (heard : List Bytes) (p : Partial) : Prop where
  segments : ∀ offset data, p.segments.get? offset = some data ↔
    ∃ index < b.pduCount unit.sdu.length, b.segment unit index ∈ heard ∧ offset = index * b.dataSize ∧
      data = b.stretch unit index
  total : ∀ length, p.total = some length ↔
    length = unit.sdu.length ∧
      ∃ index, index + 1 = b.pduCount unit.sdu.length ∧ b.segment unit index ∈ heard

theorem holds_empty (b : TransmitBuffer) (unit : Offer) : empty.Holds b unit [] where
  segments := fun offset data => by simp [empty]
  total := fun length => by simp [empty]

theorem Holds.congr {heard' : List Bytes} (holds : p.Holds b unit heard)
    (same : ∀ index < b.pduCount unit.sdu.length, b.segment unit index ∈ heard' ↔ b.segment unit index ∈ heard) :
    p.Holds b unit heard' where
  segments := fun offset data => by
    rw [holds.segments]
    refine exists_congr fun index => and_congr_right fun counted => ?_
    rw [same index counted]
  total := fun length => by
    rw [holds.total]
    refine and_congr_right fun _ => exists_congr fun index => and_congr_right fun last => ?_
    rw [same index (Nat.lt_of_succ_le (Nat.le_of_eq last))]

theorem Holds.partOf (apart : Discernible b window units) (holds : p.Holds b unit heard) : p.PartOf unit.sdu where
  lies := fun e member => by
    obtain ⟨index, counted, -, offset, data⟩ := (holds.segments _ _).1 ((SortedMap.get?_eq_some_iff _ _ _).2 member)
    rw [offset, data]
    exact TransmitBuffer.liesAt_stretch apart.segmented apart.room counted
  total := fun length known => ((holds.total length).1 known).1

/-- The parts of a unit are complete when all its segments were heard. -/
theorem Holds.isComplete_iff (apart : Discernible b window units) (holds : p.Holds b unit heard) :
    p.isComplete = true ↔ unit.InFull b heard := by
  have room := apart.room
  rw [Partial.isComplete_iff (holds.partOf apart), apart.inFull_iff, holds.total]
  constructor
  · rintro ⟨⟨-, final, last, lastHeard⟩, all⟩ index counted
    by_cases isLast : index + 1 = b.pduCount unit.sdu.length
    · obtain rfl : index = final := Nat.succ.inj (isLast.trans last.symm)
      exact lastHeard
    · -- No other segment reaches the place where this one begins.
      have next := TransmitBuffer.offset_le_of_counted apart.segmented room
        (Nat.lt_of_le_of_ne (Nat.succ_le_of_lt counted) isLast)
      rw [Nat.succ_mul] at next
      obtain ⟨e, member, starts, ends⟩ := all (index * b.dataSize) (by omega)
      obtain ⟨index', -, known, offset, data⟩ := (holds.segments _ _).1 ((SortedMap.get?_eq_some_iff _ _ _).2 member)
      have size : e.2.length ≤ b.dataSize := by
        rw [data, TransmitBuffer.stretch]
        exact List.length_take_le _ _
      rw [offset] at starts ends
      have notLater : index' ≤ index := Nat.le_of_mul_le_mul_right starts room
      have notEarlier : index < index' + 1 := by
        refine Nat.lt_of_mul_lt_mul_right (a := b.dataSize) ?_
        rw [Nat.succ_mul]
        omega
      obtain rfl : index' = index := by omega
      exact known
  · intro all
    have positive := TransmitBuffer.pduCount_pos apart.segmented room unit.sdu.length
    have enough := length_le_segmentCount_mul unit.sdu.length room
    rw [← TransmitBuffer.pduCount_of_segmented apart.segmented] at enough
    refine ⟨⟨rfl, b.pduCount unit.sdu.length - 1, by omega, all _ (by omega)⟩, fun place before => ?_⟩
    -- The octet at a place is in the segment that the place divided by the size of segments leads to.
    have counted : place / b.dataSize < b.pduCount unit.sdu.length := by
      rw [Nat.div_lt_iff_lt_mul room]
      omega
    have found := (holds.segments _ _).2 ⟨_, counted, all _ counted, rfl, rfl⟩
    refine ⟨_, (SortedMap.get?_eq_some_iff _ _ _).1 found, Nat.div_mul_le_self _ _, ?_⟩
    show place < place / b.dataSize * b.dataSize + (b.stretch unit (place / b.dataSize)).length
    by_cases isLast : place / b.dataSize + 1 = b.pduCount unit.sdu.length
    · rw [TransmitBuffer.end_of_last apart.segmented room isLast]
      exact before
    · rw [TransmitBuffer.length_stretch apart.segmented room (by omega)]
      exact Nat.lt_div_mul_add room

/-- A segment that was heard before is not taken again. -/
theorem Holds.insert?_known (holds : p.Holds b unit heard) (counted : index < b.pduCount unit.sdu.length)
    (known : b.segment unit index ∈ heard) (data : Bytes) (last : Bool) :
    p.insert? (index * b.dataSize) data last = none :=
  (insert?_eq_none_iff _ _ _ _).2 <| (SortedMap.contains_eq_true_iff _ _).2
    ⟨_, (holds.segments _ _).2 ⟨index, counted, known, rfl, rfl⟩⟩

/-- A segment that was not heard before is added. -/
theorem Holds.insert?_new (apart : Discernible b window units) (member : unit ∈ units) (holds : p.Holds b unit heard)
    (counted : index < b.pduCount unit.sdu.length) (missing : b.segment unit index ∉ heard) :
    ∃ q, p.insert? (index * b.dataSize) (b.stretch unit index) (b.segmentHeader unit index).flags.last = some q ∧
      q.Holds b unit (b.segment unit index :: heard) := by
  have same_or_heard {index' : Nat} (counted' : index' < b.pduCount unit.sdu.length) :
      b.segment unit index' ∈ b.segment unit index :: heard ↔ index' = index ∨ b.segment unit index' ∈ heard := by
    rw [List.mem_cons, apart.segment_eq_iff member counted' counted]
  have free (data : Bytes) : p.segments.get? (index * b.dataSize) ≠ some data := fun found => by
    obtain ⟨index', -, known, same, -⟩ := (holds.segments _ _).1 found
    rw [← Nat.eq_of_mul_eq_mul_right apart.room same] at known
    exact missing known
  obtain ⟨q, grown⟩ := exists_insert? free (b.stretch unit index) (b.segmentHeader unit index).flags.last
  refine ⟨q, grown, fun offset data => ?_, fun length => ?_⟩
  · rw [segments_insert? grown, holds.segments]
    constructor
    · rintro (⟨index', counted', known, here⟩ | here)
      · exact ⟨index', counted', List.mem_cons_of_mem _ known, here⟩
      · exact ⟨index, counted, List.mem_cons_self, here⟩
    · rintro ⟨index', counted', heardNow, here⟩
      rcases (same_or_heard counted').1 heardNow with rfl | known
      · exact Or.inr here
      · exact Or.inl ⟨index', counted', known, here⟩
  · rw [total_insert? grown]
    by_cases isLast : index + 1 = b.pduCount unit.sdu.length
    · have flagged : (b.segmentHeader unit index).flags.last = true := decide_eq_true isLast
      rw [flagged, if_pos rfl, TransmitBuffer.end_of_last apart.segmented apart.room isLast]
      constructor
      · intro same
        exact ⟨(Option.some.inj same).symm, index, isLast, List.mem_cons_self⟩
      · rintro ⟨rfl, -⟩
        rfl
    · have flagged : (b.segmentHeader unit index).flags.last = false := decide_eq_false isLast
      rw [flagged, if_neg Bool.false_ne_true, holds.total]
      refine and_congr_right fun _ => exists_congr fun final => and_congr_right fun last => ?_
      have different : final ≠ index := fun same => isLast (same ▸ last)
      rw [same_or_heard (Nat.lt_of_succ_le (Nat.le_of_eq last)), or_iff_right different]

end Partial

/-! ## What a receiver knows -/

namespace ReceiveState
variable {s t : ReceiveState}

/-- Whether what a receiver knows of some units is what some data units tell, of which it dropped those that repeat
others. -/
structure Collects (b : TransmitBuffer) (units : List Offer) (heard : List Bytes) (s : ReceiveState) : Prop where
  settled : s.Settled
  done : ∀ n, s.Done n ↔ ∃ unit ∈ units, unit.sn.toNat = n ∧ unit.InFull b heard
  holds : ∀ unit ∈ units, ¬ unit.InFull b heard →
    ((s.pending.get? unit.sn.toNat).getD .empty).Holds b unit heard
  pending : ∀ n p, s.pending.get? n = some p → ∃ unit ∈ units, unit.sn.toNat = n
  dropped : s.counters.dropped + heard.dedup.length = heard.length
  abandoned : s.counters.abandoned = 0

theorem collects_new (apart : Discernible b window units) : new.Collects b units [] where
  settled := settled_new
  done := fun n => by
    simp only [apart.not_inFull_nil, and_false, exists_false, iff_false]
    rintro (below | given)
    · exact absurd below (Nat.not_lt_zero n)
    · cases given
  holds := fun unit _ _ => Partial.holds_empty b unit
  pending := fun n p found => by cases found
  dropped := rfl
  abandoned := rfl

theorem inFull_cons_of_mem (known : pdu ∈ heard) : unit.InFull b (pdu :: heard) ↔ unit.InFull b heard :=
  ⟨fun full => full.mono (List.cons_subset.2 ⟨known, List.Subset.refl _⟩),
    fun full => full.mono (List.subset_cons_self _ _)⟩

theorem inFull_cons_of_not_mem (foreign : pdu ∉ b.pdus unit.sn unit.sdu) :
    unit.InFull b (pdu :: heard) ↔ unit.InFull b heard :=
  ⟨fun full => Decidable.byContradiction fun lacking => foreign (mem_of_completes lacking full),
    fun full => full.mono (List.subset_cons_self _ _)⟩

theorem completedBy_of_mem (apart : Discernible b window units) (known : pdu ∈ heard) :
    completedBy b units heard pdu = none := by
  cases completed : completedBy b units heard pdu with
  | none => rfl
  | some unit =>
    obtain ⟨-, lacking, full⟩ := (completedBy_eq_some_iff apart).1 completed
    exact absurd ((inFull_cons_of_mem known).1 full) lacking

theorem completedBy_of_lacks (apart : Discernible b window units) (member : unit ∈ units)
    (carries : pdu ∈ b.pdus unit.sn unit.sdu) (lacking : ¬ unit.InFull b (pdu :: heard)) :
    completedBy b units heard pdu = none := by
  cases completed : completedBy b units heard pdu with
  | none => rfl
  | some other =>
    obtain ⟨member', lacking', full⟩ := (completedBy_eq_some_iff apart).1 completed
    rw [apart.eq_of_mem_pdus member' member (mem_of_completes lacking' full) carries] at full
    exact absurd full lacking

/-- A data unit that repeats another is dropped and changes nothing else. -/
theorem Collects.repeated (collects : s.Collects b units heard) (known : pdu ∈ heard) :
    s.received.drop.Collects b units (pdu :: heard) where
  settled := settled_drop (settled_received collects.settled)
  done := fun n => by
    simp only [inFull_cons_of_mem known]
    exact collects.done n
  holds := fun unit member lacking => by
    rw [inFull_cons_of_mem known] at lacking
    exact (collects.holds unit member lacking).congr fun index _ =>
      ⟨fun h => (List.mem_cons.1 h).elim (fun same => same ▸ known) id, List.mem_cons_of_mem _⟩
  pending := collects.pending
  dropped := by
    have before := collects.dropped
    rw [List.dedup_cons_of_mem known, List.length_cons]
    show s.counters.dropped + 1 + _ = _
    omega
  abandoned := collects.abandoned

/-- A segment that was not heard before concerns its unit only. -/
theorem Collects.learned (apart : Discernible b window units) (collects : s.Collects b units heard)
    (member : unit ∈ units) (carries : pdu ∈ b.pdus unit.sn unit.sdu) (missing : pdu ∉ heard) (settled : t.Settled)
    (done : ∀ n, t.Done n ↔ s.Done n ∨ n = unit.sn.toNat ∧ unit.InFull b (pdu :: heard))
    (elsewhere : ∀ n, n ≠ unit.sn.toNat → t.pending.get? n = s.pending.get? n)
    (here : ¬ unit.InFull b (pdu :: heard) →
      ((t.pending.get? unit.sn.toNat).getD .empty).Holds b unit (pdu :: heard))
    (dropped : t.counters.dropped = s.counters.dropped) (abandoned : t.counters.abandoned = s.counters.abandoned) :
    t.Collects b units (pdu :: heard) := by
  have foreign {other : Offer} (member' : other ∈ units) (different : other ≠ unit) :
      pdu ∉ b.pdus other.sn other.sdu :=
    fun carries' => different (apart.eq_of_mem_pdus member' member carries' carries)
  refine ⟨settled, fun n => ?_, fun other member' lacking => ?_, fun n p found => ?_, ?_,
    abandoned.trans collects.abandoned⟩
  · rw [done, collects.done]
    constructor
    · rintro (⟨other, member', same, full⟩ | ⟨rfl, full⟩)
      · exact ⟨other, member', same, full.mono (List.subset_cons_self _ _)⟩
      · exact ⟨unit, member, rfl, full⟩
    · rintro ⟨other, member', rfl, full⟩
      by_cases same : other = unit
      · exact Or.inr ⟨by rw [same], same ▸ full⟩
      · exact Or.inl ⟨other, member', rfl, (inFull_cons_of_not_mem (foreign member' same)).1 full⟩
  · by_cases same : other = unit
    · rw [same] at lacking ⊢
      exact here lacking
    · have otherNumber : other.sn.toNat ≠ unit.sn.toNat := fun h => same (apart.eq_of_toNat_sn member' member h)
      rw [inFull_cons_of_not_mem (foreign member' same)] at lacking
      rw [elsewhere _ otherNumber]
      refine (collects.holds other member' lacking).congr fun index counted => ?_
      rw [List.mem_cons, or_iff_right]
      rintro rfl
      exact foreign member' same (apart.segment_mem_pdus counted)
  · by_cases same : n = unit.sn.toNat
    · exact ⟨unit, member, same.symm⟩
    · rw [elsewhere n same] at found
      exact collects.pending n p found
  · have before := collects.dropped
    rw [dropped, List.dedup_cons_of_notMem missing, List.length_cons, List.length_cons]
    omega

theorem lacks_of_fresh (collects : s.Collects b units heard) (member : unit ∈ units) (fresh : ¬ s.Done unit.sn.toNat) :
    ¬ unit.InFull b heard :=
  fun full => fresh ((collects.done _).2 ⟨unit, member, rfl, full⟩)

theorem grown?_segment (s : ReceiveState) (apart : Discernible b window units) (member : unit ∈ units)
    (counted : index < b.pduCount unit.sdu.length) :
    s.grown? window (b.segmentHeader unit index) (b.stretch unit index) =
      ((s.pending.get? unit.sn.toNat).getD .empty).insert? (index * b.dataSize) (b.stretch unit index)
        (b.segmentHeader unit index).flags.last := by
  rw [← TransmitBuffer.toNat_offset apart.segmented apart.room (apart.short unit member) counted, grown?,
    TransmitBuffer.sn_segmentHeader, makeRoom_of_inWindow s (apart.inWindow unit member) apart.window_le]
  rfl

/-- A segment that was heard before is dropped. -/
theorem accept_known (apart : Discernible b window units) (collects : s.Collects b units heard) (member : unit ∈ units)
    (counted : index < b.pduCount unit.sdu.length) (known : b.segment unit index ∈ heard) :
    s.accept window (b.segmentHeader unit index) (b.stretch unit index) = (none, s.received.drop) := by
  have repeats (fresh : ¬ s.Done unit.sn.toNat) :
      s.grown? window (b.segmentHeader unit index) (b.stretch unit index) = none :=
    (grown?_segment s apart member counted).trans
      ((collects.holds unit member (lacks_of_fresh collects member fresh)).insert?_known counted known _ _)
  have taken := taken_accept s window (b.segmentHeader unit index) (b.stretch unit index)
  generalize s.accept window (b.segmentHeader unit index) (b.stretch unit index) = answer at taken ⊢
  cases taken with
  | late done => rfl
  | again fresh grown =>
    rw [TransmitBuffer.sn_segmentHeader, makeRoom_of_inWindow s (apart.inWindow unit member) apart.window_le]
  | stored p fresh grown lacking => cases (repeats fresh).symm.trans grown
  | completed p fresh grown whole => cases (repeats fresh).symm.trans grown

/-- The state with other parts of a unit. -/
def withParts (s : ReceiveState) (sn : Nat) (p : Partial) : ReceiveState :=
  { s.received with pending := s.pending.insert sn p }

theorem store_of_inWindow (s : ReceiveState) (apart : Discernible b window units) (member : unit ∈ units)
    (p : Partial) :
    s.store window unit.sn.toNat p = s.withParts unit.sn.toNat p := by
  rw [store, makeRoom_of_inWindow s (apart.inWindow unit member) apart.window_le]
  rfl

/-- A segment that was not heard before is stored, and its unit is handed out if it is complete then. -/
theorem accept_new (apart : Discernible b window units) (collects : s.Collects b units heard) (member : unit ∈ units)
    (counted : index < b.pduCount unit.sdu.length) (missing : b.segment unit index ∉ heard) :
    ∃ p : Partial, ¬ s.Done unit.sn.toNat ∧ p.Holds b unit (b.segment unit index :: heard) ∧
      s.accept window (b.segmentHeader unit index) (b.stretch unit index) =
        if p.isComplete then (some p.assemble, (s.withParts unit.sn.toNat p).handedOut unit.sn.toNat)
        else (none, s.withParts unit.sn.toNat p) := by
  have fresh : ¬ s.Done unit.sn.toNat := fun done => by
    obtain ⟨other, member', same, full⟩ := (collects.done _).1 done
    rw [apart.eq_of_toNat_sn member' member same] at full
    exact missing (full (apart.segment_mem_pdus counted))
  obtain ⟨p, grown, holds⟩ :=
    (collects.holds unit member (lacks_of_fresh collects member fresh)).insert?_new apart member counted missing
  rw [← grown?_segment s apart member counted] at grown
  refine ⟨p, fresh, holds, ?_⟩
  have taken := taken_accept s window (b.segmentHeader unit index) (b.stretch unit index)
  generalize s.accept window (b.segmentHeader unit index) (b.stretch unit index) = answer at taken ⊢
  cases taken with
  | late done => exact absurd done fresh
  | again _ grown' => cases grown.symm.trans grown'
  | stored q _ grown' lacking =>
    obtain rfl := Option.some.inj (grown.symm.trans grown')
    rw [lacking, if_neg Bool.false_ne_true, TransmitBuffer.sn_segmentHeader, store_of_inWindow s apart member]
  | completed q _ grown' whole =>
    obtain rfl := Option.some.inj (grown.symm.trans grown')
    rw [if_pos whole, TransmitBuffer.sn_segmentHeader, store_of_inWindow s apart member]

/-- What becomes of a segment of a unit: the unit is handed out if this was the last segment missing, and afterwards the
receiver knows of this segment, too. -/
theorem collects_accept (apart : Discernible b window units) (collects : s.Collects b units heard)
    (member : unit ∈ units) (counted : index < b.pduCount unit.sdu.length) :
    (s.accept window (b.segmentHeader unit index) (b.stretch unit index)).1 =
        (completedBy b units heard (b.segment unit index)).map (·.sdu) ∧
      (s.accept window (b.segmentHeader unit index) (b.stretch unit index)).2.Collects b units
        (b.segment unit index :: heard) := by
  by_cases known : b.segment unit index ∈ heard
  · rw [accept_known apart collects member counted known, completedBy_of_mem apart known]
    exact ⟨rfl, collects.repeated known⟩
  · have carries := apart.segment_mem_pdus counted
    have settled := settled_accept collects.settled window (b.segmentHeader unit index) (b.stretch unit index)
    obtain ⟨p, fresh, holds, accepted⟩ := accept_new apart collects member counted known
    rw [accepted] at settled ⊢
    by_cases whole : p.isComplete = true
    · have full : unit.InFull b (b.segment unit index :: heard) := (holds.isComplete_iff apart).1 whole
      have completed := (completedBy_eq_some_iff apart).2 ⟨member, lacks_of_fresh collects member fresh, full⟩
      rw [if_pos whole] at settled ⊢
      refine ⟨?_, collects.learned apart member carries known settled (fun n => ?_) (fun n other => ?_)
        (fun lacking => absurd full lacking) rfl rfl⟩
      · rw [completed, Option.map_some, Partial.assemble_of_isComplete (holds.partOf apart) whole]
      · rw [done_handedOut, and_iff_left full, or_comm]
        rfl
      · exact (SortedMap.get?_erase_of_ne _ other).trans (SortedMap.get?_insert_of_ne _ other _)
    · have lacking : ¬ unit.InFull b (b.segment unit index :: heard) :=
        fun full => whole ((holds.isComplete_iff apart).2 full)
      rw [if_neg whole] at settled ⊢
      refine ⟨?_, collects.learned apart member carries known settled (fun n => ?_)
        (fun n other => SortedMap.get?_insert_of_ne _ other _) (fun _ => ?_) rfl rfl⟩
      · rw [completedBy_of_lacks apart member carries lacking]
        rfl
      · rw [or_iff_left fun h => lacking h.2]
        rfl
      · rw [withParts, SortedMap.get?_insert_self]
        exact holds

end ReceiveState

/-! ## Runs -/

namespace Receiver

variable {r : Receiver}

/-- A segment of a unit whose length is a word is read and taken in. -/
theorem receive_segment (segmented : b.mode ≠ .transparent) (room : 0 < b.dataSize)
    (short : unit.sdu.length < 4294967296) (counted : index < b.pduCount unit.sdu.length) (r : Receiver) :
    r.receive (b.segment unit index) =
      .ok ((r.state.accept r.window (b.segmentHeader unit index) (b.stretch unit index)).1,
        { r with state := (r.state.accept r.window (b.segmentHeader unit index) (b.stretch unit index)).2 }) := by
  refine receive_eq_ok_iff.2 ⟨_, _, SegmentHeader.parse_encode _ _, ?_, rfl⟩
  have inside := (TransmitBuffer.liesAt_stretch segmented room counted).1
  rw [TransmitBuffer.toNat_offset segmented room short counted, lastWord]
  omega

/-- Over segments of some units, a receiver answers with the units that they complete. -/
theorem collects_nextAll (apart : Discernible b r.window units) (collects : r.state.Collects b units heard)
    {pdus : List Bytes} (genuine : ∀ pdu ∈ pdus, ∃ unit ∈ units, pdu ∈ b.pdus unit.sn unit.sdu) :
    r.answers pdus = (completions b units heard pdus).map (fun unit => .ok (unit.map (·.sdu))) ∧
      (r.nextAll pdus).state.Collects b units (pdus.reverse ++ heard) := by
  induction pdus generalizing r heard with
  | nil => exact ⟨rfl, collects⟩
  | cons pdu rest ih =>
    obtain ⟨unit, member, carries⟩ := genuine pdu List.mem_cons_self
    obtain ⟨index, counted, rfl⟩ := (TransmitBuffer.mem_pdus_iff apart.segmented apart.room).1 carries
    have received := receive_segment apart.segmented apart.room (apart.short unit member) counted r
    obtain ⟨answer, after⟩ := ReceiveState.collects_accept apart collects member counted
    have later := ih (r := r.next (b.segment unit index)) (by rw [next, received]; exact apart)
      (by rw [next, received]; exact after) fun pdu later => genuine pdu (List.mem_cons_of_mem _ later)
    rw [answers, completions, List.map_cons, received, later.1, ← answer, List.reverse_cons, List.append_assoc]
    exact ⟨rfl, later.2⟩

/-- A receiver that has all segments of some units has nothing left to wait for, and its edge is at the first number
that none of them has. -/
theorem at_rest (apart : Discernible b window units) {s : ReceiveState} (collects : s.Collects b units heard)
    (all : ∀ unit ∈ units, unit.InFull b heard) :
    s.pending = .empty ∧ IsLeast {n | ∀ unit ∈ units, unit.sn.toNat ≠ n} s.edge := by
  have done_iff (n : Nat) : s.Done n ↔ ∃ unit ∈ units, unit.sn.toNat = n := by
    rw [collects.done]
    exact exists_congr fun unit => and_congr_right fun member => and_iff_left (all unit member)
  refine ⟨SortedMap.ext_get? fun n => ?_, fun unit member same => ?_, fun n unused => Nat.not_lt.1 fun below => ?_⟩
  · cases found : s.pending.get? n with
    | none => rfl
    | some p =>
      exact absurd ((done_iff n).2 (collects.pending n p found)) (collects.settled.waiting n p found).1
  · rcases (done_iff s.edge).2 ⟨unit, member, same⟩ with below | given
    · exact absurd below (Nat.lt_irrefl _)
    · have full := collects.settled.gap given
      have below := apart.inWindow unit member
      have bound := apart.window_le
      omega
  · obtain ⟨unit, member, same⟩ := (done_iff n).1 (Or.inl below)
    exact unused unit member same

/-- Some calls put units with distinct numbers below a window into a new buffer and take all their segments out. When
these arrive at a new receiver with this window, in any order and any number of times each, the receiver answers every
segment that completes its unit with this unit and every other with nothing, so that every unit is handed out once. In
the end it has dropped the segments that repeat others, given up and kept nothing, and its edge is at the first number
that no unit has. -/
theorem any_order_exact {b : TransmitBuffer} {key : EntityKey} {mode : DeliveryMode} {path : Path}
    {capacity maxPduSize : Nat} (fresh : b = .new key mode path capacity maxPduSize)
    (segmented : mode ≠ .transparent) (room : SegmentHeader.length < maxPduSize) (calls : List BufferCall)
    (kept : .discard ∉ calls) (drained : (b.performAll calls).queue = [])
    (distinct : ((b.taken calls).map (·.sn)).Nodup)
    (short : ∀ unit ∈ b.taken calls, unit.sdu.length < 4294967296)
    (window : UInt32) (inWindow : ∀ unit ∈ b.taken calls, unit.sn < window)
    (pdus : List Bytes) (genuine : pdus ⊆ (b.pulled calls).map (·.bytes))
    (all : (b.pulled calls).map (·.bytes) ⊆ pdus) (receiverKey : EntityKey) (receiverPath : Path) :
    let units := b.taken calls
    let r := new receiverKey receiverPath window.toNat
    let s := (r.nextAll pdus).state
    r.answers pdus = (completions b units [] pdus).map (fun unit => .ok (unit.map (·.sdu))) ∧
      (completions b units [] pdus).reduceOption.Perm units ∧
      s.counters.dropped = pdus.length - pdus.dedup.length ∧ s.counters.abandoned = 0 ∧ s.pending = .empty ∧
      IsLeast {n | ∀ unit ∈ units, unit.sn.toNat ≠ n} s.edge := by
  intro units r s
  have chunk : 0 < b.dataSize := by
    rw [fresh]
    cases mode with
    | transparent => exact absurd rfl segmented
    | unacknowledged | acknowledged => exact Nat.sub_pos_of_lt room
  have apart : Discernible b r.window units :=
    ⟨by rw [fresh]; exact segmented, chunk, distinct, short,
      fun unit member => UInt32.lt_iff_toNat_lt.1 (inWindow unit member), Nat.le_of_lt_succ window.toNat_lt⟩
  have sent : (b.pulled calls).map (·.bytes) = units.flatMap fun unit => b.pdus unit.sn unit.sdu := by
    have conserved := TransmitBuffer.pulled_append_queue (b := b) kept
    have empty : b.queue = [] := by rw [fresh]; rfl
    rw [drained, empty, List.append_nil, List.nil_append] at conserved
    rw [conserved, List.map_flatMap]
    simp only [TransmitBuffer.queuedAs, List.map_map, Function.comp_def, List.map_id']
    rfl
  rw [sent] at genuine all
  have whole : ∀ unit ∈ units, unit.InFull b pdus := fun unit member pdu carries =>
    all (List.mem_flatMap.2 ⟨unit, member, carries⟩)
  obtain ⟨answers, collects⟩ := collects_nextAll (r := r) apart (ReceiveState.collects_new apart)
    fun pdu member => List.mem_flatMap.1 (genuine member)
  rw [List.append_nil] at collects
  obtain ⟨nothing, edge⟩ := at_rest apart collects fun unit member =>
    (whole unit member).mono fun pdu => List.mem_reverse.2
  have dropped := collects.dropped
  rw [List.length_reverse, ((List.reverse_perm pdus).dedup).length_eq] at dropped
  exact ⟨answers, completions_perm apart whole, Nat.eq_sub_of_add_eq dropped, collects.abandoned, nothing, edge⟩

/-- Calls that put a unit of seven octets and an empty one into a buffer and take their data units out. -/
def twoUnits : List BufferCall :=
  [.offer ⟨2, [1, 2, 3, 4, 5, 6, 7], []⟩, .hold, .offer ⟨1, [8], []⟩, .pull 2, .resume, .offer ⟨0, [], []⟩, .pull 9]

/-- A buffer whose segments carry three octets. -/
def smallBuffer : TransmitBuffer := .new ⟨⟨2⟩, .first⟩ .unacknowledged .direct 4 12

/-- The segments of both units in reverse order, and the first two of them again. -/
def reversed : List Bytes :=
  let sent := (smallBuffer.pulled twoUnits).map (·.bytes)
  sent.reverse ++ sent.take 2

theorem any_order_exact_at_reversed :
    let s := ((new ⟨⟨1⟩, .first⟩ .direct 3).nextAll reversed).state
    (smallBuffer.taken twoUnits).map (·.sn) = [2, 0] ∧
      (new ⟨⟨1⟩, .first⟩ .direct 3).answers reversed =
        [.ok (some []), .ok none, .ok none, .ok (some [1, 2, 3, 4, 5, 6, 7]), .ok none, .ok none] ∧
      s.counters.dropped = 2 ∧ s.counters.abandoned = 0 ∧ s.pending = .empty ∧
      IsLeast {n | ∀ unit ∈ smallBuffer.taken twoUnits, unit.sn.toNat ≠ n} s.edge := by
  obtain ⟨answers, -, dropped, rest⟩ := any_order_exact (b := smallBuffer) rfl (by decide) (by decide) twoUnits
    (by decide) (by decide) (by decide) (by decide) 3 (by decide) reversed (by decide) (by decide) ⟨⟨1⟩, .first⟩ .direct
  exact ⟨rfl, answers.trans (by decide), dropped.trans (by decide), rest⟩

end Receiver
end Sidelink
