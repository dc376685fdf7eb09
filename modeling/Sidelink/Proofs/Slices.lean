import Mathlib.Data.List.Induction
import Sidelink.Proofs.Receiving
import Sidelink.Proofs.Segmentation

/-!
What a receiver makes of slices of a unit, however the unit was cut: they may overlap, lie one inside another, be empty
or come again. Whatever else arrives, a unit that is handed out under the number of the slices is the one they were cut
from (`Receiver.answers_faithful`).

A receiver stores slices by the place where they begin and keeps the first of each place. So it hands a unit out as soon
as the slices that came first where they begin cover it, which may be later than all slices together do
(`Receiver.returned_when_kept_cover`).
-/
namespace Sidelink

instance (sdu : Bytes) (offset : Nat) (data : Bytes) : Decidable (LiesAt sdu offset data) :=
  inferInstanceAs (Decidable (_ ∧ _))

/-! ## One number among others -/

/-- Whether a data unit, if it carries a segment under a number, carries a slice of a unit, which is marked as the last
only if it ends where the unit ends. A data unit that cannot be read or has another number may carry anything. -/
def HonestFor (sn : UInt32) (sdu pdu : Bytes) : Prop :=
  ∀ header data, SegmentHeader.parse pdu = .ok (header, data) → header.sn = sn →
    LiesAt sdu header.offset.toNat data ∧ (header.flags.last = true → header.offset.toNat + data.length = sdu.length)

instance (sn : UInt32) (sdu pdu : Bytes) : Decidable (HonestFor sn sdu pdu) :=
  match parsed : SegmentHeader.parse pdu with
  | .error _ => .isTrue fun _ _ same => by rw [parsed] at same; cases same
  | .ok (header, data) =>
    decidable_of_iff (header.sn = sn → LiesAt sdu header.offset.toNat data ∧
        (header.flags.last = true → header.offset.toNat + data.length = sdu.length)) <| by
      simp only [HonestFor, parsed, Except.ok.injEq, Prod.mk.injEq, and_imp]
      exact ⟨fun holds _ _ h d => h ▸ d ▸ holds, fun holds => holds header data rfl rfl⟩

namespace ReceiveState
variable {s : ReceiveState} {window : Nat} {sn : UInt32} {sdu : Bytes} {header : SegmentHeader} {data : Bytes}

/-- Whether all that waits under a number belongs to a unit. -/
def WaitsFor (s : ReceiveState) (sn : UInt32) (sdu : Bytes) : Prop :=
  ∀ p, s.pending.get? sn.toNat = some p → p.PartOf sdu

theorem waitsFor_new (sn : UInt32) (sdu : Bytes) : new.WaitsFor sn sdu := fun p found => by cases found

/-- A segment adds nothing under other numbers than its own. -/
theorem pending_accept_of_ne {n : Nat} (other : n ≠ header.sn.toNat) {p : Partial}
    (found : (s.accept window header data).2.pending.get? n = some p) : s.pending.get? n = some p := by
  have taken := taken_accept s window header data
  generalize s.accept window header data = answer at taken found
  cases taken with
  | late done => exact found
  | again fresh known => exact pending_makeRoom found
  | stored q fresh grown lacking =>
    change ((s.makeRoom window header.sn.toNat).pending.insert header.sn.toNat q).get? n = some p at found
    rw [SortedMap.get?_insert_of_ne _ other] at found
    exact pending_makeRoom found
  | completed q fresh grown whole =>
    change (((s.makeRoom window header.sn.toNat).pending.insert header.sn.toNat q).erase header.sn.toNat).get? n =
      some p at found
    rw [SortedMap.get?_erase_of_ne _ other, SortedMap.get?_insert_of_ne _ other] at found
    exact pending_makeRoom found

/-- What is stored for a slice of the unit that waits under its number is still of this unit. -/
theorem partOf_grown (waits : s.WaitsFor header.sn sdu) (lies : LiesAt sdu header.offset.toNat data)
    (ends : header.flags.last = true → header.offset.toNat + data.length = sdu.length) {p : Partial}
    (grown : s.grown? window header data = some p) : p.PartOf sdu := by
  refine Partial.partOf_insert? ?_ lies ends grown
  cases found : (s.makeRoom window header.sn.toNat).pending.get? header.sn.toNat with
  | none => exact Partial.partOf_empty sdu
  | some q => exact waits q (pending_makeRoom found)

/-- A slice of the unit that waits under its number adds to that unit, and makes a receiver hand out that unit at
most. -/
theorem waitsFor_accept (window : Nat) (waits : s.WaitsFor header.sn sdu) (lies : LiesAt sdu header.offset.toNat data)
    (ends : header.flags.last = true → header.offset.toNat + data.length = sdu.length) :
    (s.accept window header data).2.WaitsFor header.sn sdu ∧
      ∀ handed, (s.accept window header data).1 = some handed → handed = sdu := by
  have taken := taken_accept s window header data
  generalize s.accept window header data = answer at taken ⊢
  cases taken with
  | late done => exact ⟨waits, fun handed h => by cases h⟩
  | again fresh known => exact ⟨fun p found => waits p (pending_makeRoom found), fun handed h => by cases h⟩
  | stored p fresh grown lacking =>
    refine ⟨fun q found => ?_, fun handed h => by cases h⟩
    rw [store, SortedMap.get?_insert_self] at found
    rw [← Option.some.inj found]
    exact partOf_grown waits lies ends grown
  | completed p fresh grown whole =>
    refine ⟨fun q found => ?_, fun handed h => ?_⟩
    · change ((s.store window header.sn.toNat p).pending.erase header.sn.toNat).get? header.sn.toNat = some q at found
      rw [SortedMap.get?_erase_self] at found
      cases found
    · rw [← Option.some.inj h]
      exact Partial.assemble_of_isComplete (partOf_grown waits lies ends grown) whole

end ReceiveState

namespace Receiver
variable {r : Receiver} {sn : UInt32} {sdu : Bytes}

/-- An honest data unit leaves what waits under a number honest. -/
theorem waitsFor_next (waits : r.state.WaitsFor sn sdu) {pdu : Bytes} (honest : HonestFor sn sdu pdu) :
    (r.next pdu).state.WaitsFor sn sdu := by
  rcases r.next_state pdu with ⟨same, -, -⟩ | ⟨header, data, parsed, -, state, -⟩
  · rw [same]
    exact waits
  · rw [state]
    by_cases named : header.sn = sn
    · obtain ⟨lies, ends⟩ := honest header data parsed named
      subst named
      exact (ReceiveState.waitsFor_accept r.window waits lies ends).1
    · have other : sn.toNat ≠ header.sn.toNat := fun same => named (UInt32.toNat_inj.1 same).symm
      exact fun p found => waits p (ReceiveState.pending_accept_of_ne other found)

/-- What an honest data unit under a number makes a receiver hand out is the unit. -/
theorem eq_of_receive (waits : r.state.WaitsFor sn sdu) {pdu : Bytes} (honest : HonestFor sn sdu pdu)
    {header : SegmentHeader} {data : Bytes} (parsed : SegmentHeader.parse pdu = .ok (header, data))
    (named : header.sn = sn) {handed : Bytes} (answered : (r.receive pdu).map (·.1) = .ok (some handed)) :
    handed = sdu := by
  obtain ⟨lies, ends⟩ := honest header data parsed named
  subst named
  cases received : r.receive pdu with
  | error cause =>
    rw [received] at answered
    cases answered
  | ok answer =>
    obtain ⟨header', data', parsed', -, rfl⟩ := receive_eq_ok_iff.1 received
    obtain ⟨rfl, rfl⟩ := Prod.mk.inj (Except.ok.inj (parsed.symm.trans parsed'))
    rw [received] at answered
    exact (ReceiveState.waitsFor_accept r.window waits lies ends).2 handed (Except.ok.inj answered)

theorem faithful_of_waitsFor (waits : r.state.WaitsFor sn sdu) {pdus : List Bytes}
    (honest : ∀ pdu ∈ pdus, HonestFor sn sdu pdu) {index : Nat} {pdu : Bytes} (given : pdus[index]? = some pdu)
    {header : SegmentHeader} {data : Bytes} (parsed : SegmentHeader.parse pdu = .ok (header, data))
    (named : header.sn = sn) {handed : Bytes} (answered : (r.answers pdus)[index]? = some (.ok (some handed))) :
    handed = sdu := by
  induction pdus generalizing r index with
  | nil => cases given
  | cons first rest ih =>
    have here := honest first List.mem_cons_self
    cases index with
    | zero =>
      obtain rfl := Option.some.inj given
      exact eq_of_receive waits here parsed named (Option.some.inj answered)
    | succ index =>
      exact ih (waitsFor_next waits here) (fun x later => honest x (List.mem_cons_of_mem _ later)) given answered

/-- Whatever data units arrive at a new receiver, if those under one number carry slices of one unit, marked as the last
only where the unit ends, then every unit that a data unit under this number makes the receiver hand out is this
unit. -/
theorem answers_faithful (key : EntityKey) (path : Path) (window : Nat) (sn : UInt32) (sdu : Bytes) {pdus : List Bytes}
    (honest : ∀ pdu ∈ pdus, HonestFor sn sdu pdu) :
    ∀ (index : Nat) pdu header data handed, pdus[index]? = some pdu → SegmentHeader.parse pdu = .ok (header, data) →
      header.sn = sn → ((new key path window).answers pdus)[index]? = some (.ok (some handed)) → handed = sdu :=
  fun _ _ _ _ _ given parsed named answered =>
    faithful_of_waitsFor (r := new key path window) (ReceiveState.waitsFor_new sn sdu) honest given parsed named answered

/-- Slices of five octets that overlap, one of them empty, between data units of other numbers, one of which contradicts
them, and one that cannot be read. -/
def medley : List Bytes :=
  [SegmentHeader.encode ⟨⟨false, false, false⟩, 4, 1⟩ [2, 3, 4], SegmentHeader.encode ⟨⟨true, true, false⟩, 9, 0⟩ [7],
    SegmentHeader.encode ⟨⟨false, true, false⟩, 4, 3⟩ [4, 5], [1, 0, 0],
    SegmentHeader.encode ⟨⟨false, false, false⟩, 4, 2⟩ [], SegmentHeader.encode ⟨⟨false, false, false⟩, 5, 1⟩ [6, 6],
    SegmentHeader.encode ⟨⟨true, false, false⟩, 4, 0⟩ [1, 2, 3]]

theorem answers_faithful_at_medley :
    (∀ pdu ∈ medley, HonestFor 4 [1, 2, 3, 4, 5] pdu) ∧
      ((new ⟨⟨1⟩, .first⟩ .direct 8).answers medley)[6]? = some (.ok (some [1, 2, 3, 4, 5])) ∧
      ∀ handed, ((new ⟨⟨1⟩, .first⟩ .direct 8).answers medley)[6]? = some (.ok (some handed)) →
        handed = [1, 2, 3, 4, 5] :=
  ⟨by decide, by decide, fun handed =>
    answers_faithful ⟨⟨1⟩, .first⟩ .direct 8 4 [1, 2, 3, 4, 5] (by decide) 6 _ ⟨⟨true, false, false⟩, 4, 0⟩ [1, 2, 3]
      handed rfl rfl rfl⟩

end Receiver

/-! ## Coverage -/

namespace Segment

/-- Whether a segment is a slice of a unit under a number, marked as the last exactly if it ends where the unit ends. -/
def IsSlice (sn : UInt32) (sdu : Bytes) (s : Segment) : Prop :=
  s.header.sn = sn ∧ LiesAt sdu s.start s.data ∧ (s.header.flags.last = true ↔ s.stop = sdu.length)

instance (sn : UInt32) (sdu : Bytes) (s : Segment) : Decidable (s.IsSlice sn sdu) :=
  inferInstanceAs (Decidable (_ ∧ _ ∧ _))

end Segment

/-- Whether every octet of a unit is in one of some segments, and the end of the unit is marked. -/
def Covers (sdu : Bytes) (segments : List Segment) : Prop :=
  (∀ place < sdu.length, ∃ s ∈ segments, s.start ≤ place ∧ place < s.stop) ∧
    ∃ s ∈ segments, s.header.flags.last = true

instance (sdu : Bytes) (segments : List Segment) : Decidable (Covers sdu segments) :=
  inferInstanceAs (Decidable (_ ∧ _))

theorem Covers.mono {sdu : Bytes} {l k : List Segment} (covers : Covers sdu l) (more : l ⊆ k) : Covers sdu k := by
  obtain ⟨all, last, member, marked⟩ := covers
  refine ⟨fun place before => ?_, last, more member, marked⟩
  obtain ⟨s, member, has⟩ := all place before
  exact ⟨s, more member, has⟩

/-- The segments that come first where they begin. -/
def firstCome : List Segment → List Segment
  | [] => []
  | s :: rest => s :: (firstCome rest).filter (·.start ≠ s.start)

theorem firstCome_subset (l : List Segment) : firstCome l ⊆ l := by
  induction l with
  | nil => exact List.Subset.refl _
  | cons s rest ih =>
    exact List.cons_subset_cons s fun t member => ih (List.mem_filter.1 member).1

/-- Among the segments that come first there is one that begins where any other does. -/
theorem exists_firstCome {l : List Segment} {t : Segment} (member : t ∈ l) : ∃ s ∈ firstCome l, s.start = t.start := by
  induction l with
  | nil => cases member
  | cons first rest ih =>
    by_cases same : first.start = t.start
    · exact ⟨first, List.mem_cons_self, same⟩
    · rcases List.mem_cons.1 member with rfl | later
      · exact absurd rfl same
      · obtain ⟨s, kept, begins⟩ := ih later
        refine ⟨s, List.mem_cons_of_mem _ (List.mem_filter.2 ⟨kept, decide_eq_true ?_⟩), begins⟩
        exact fun h => same (h.symm.trans begins)

theorem firstCome_append (l k : List Segment) :
    firstCome (l ++ k) = firstCome l ++ (firstCome k).filter fun t => ∀ s ∈ l, t.start ≠ s.start := by
  induction l with
  | nil => exact (List.filter_eq_self.2 fun t _ => decide_eq_true (List.forall_mem_nil _)).symm
  | cons first rest ih => simp [firstCome, ih, List.filter_filter]

/-- A segment that begins where another does is none that comes first. -/
theorem firstCome_concat_of_known {l : List Segment} {s t : Segment} (member : t ∈ l) (same : t.start = s.start) :
    firstCome (l ++ [s]) = firstCome l := by
  have later : ¬ ∀ u ∈ l, s.start ≠ u.start := fun apart => apart t member same.symm
  simp [firstCome_append, firstCome, later]

theorem firstCome_concat_of_new {l : List Segment} {s : Segment} (apart : ∀ t ∈ l, t.start ≠ s.start) :
    firstCome (l ++ [s]) = firstCome l ++ [s] := by
  have new : ∀ u ∈ l, s.start ≠ u.start := fun u member => (apart u member).symm
  simpa [firstCome_append, firstCome] using new

theorem exists_firstCome_of_nested {l : List Segment} (nested : l.Pairwise fun s t => s.start = t.start → t.stop ≤ s.stop)
    {t : Segment} (member : t ∈ l) : ∃ s ∈ firstCome l, s.start = t.start ∧ t.stop ≤ s.stop := by
  induction l with
  | nil => cases member
  | cons first rest ih =>
    obtain ⟨reaches, rest_nested⟩ := List.pairwise_cons.1 nested
    rcases List.mem_cons.1 member with rfl | later
    · exact ⟨t, List.mem_cons_self, rfl, Nat.le_refl _⟩
    · by_cases same : first.start = t.start
      · exact ⟨first, List.mem_cons_self, same, reaches t later same⟩
      · obtain ⟨s, kept, begins, ends⟩ := ih rest_nested later
        have other : s.start ≠ first.start := fun h => same (h.symm.trans begins)
        exact ⟨s, List.mem_cons_of_mem _ (List.mem_filter.2 ⟨kept, decide_eq_true other⟩), begins, ends⟩

/-- Where no slice reaches farther than one that came before it from the same place, the slices that come first cover a
unit if all of them do. -/
theorem covers_firstCome {sn : UInt32} {sdu : Bytes} {l : List Segment}
    (nested : l.Pairwise fun s t => s.start = t.start → t.stop ≤ s.stop) (slices : ∀ s ∈ l, s.IsSlice sn sdu)
    (covers : Covers sdu l) : Covers sdu (firstCome l) := by
  obtain ⟨all, last, member, marked⟩ := covers
  constructor
  · intro place before
    obtain ⟨t, member, starts, ends⟩ := all place before
    obtain ⟨s, kept, begins, reaches⟩ := exists_firstCome_of_nested nested member
    exact ⟨s, kept, begins ▸ starts, Nat.lt_of_lt_of_le ends reaches⟩
  · obtain ⟨s, kept, -, reaches⟩ := exists_firstCome_of_nested nested member
    obtain ⟨-, ⟨inside, -⟩, last_iff⟩ := slices s (firstCome_subset l kept)
    rw [(slices last member).2.2.1 marked] at reaches
    exact ⟨s, kept, last_iff.2 (Nat.le_antisymm inside reaches)⟩

namespace Partial
variable {p : Partial} {sn : UInt32} {sdu : Bytes} {kept : List Segment} {s : Segment}

/-- Whether a unit in parts has exactly some slices of a unit. -/
structure Keeps (sdu : Bytes) (kept : List Segment) (p : Partial) : Prop where
  segments : ∀ offset data, p.segments.get? offset = some data ↔ ∃ s ∈ kept, s.start = offset ∧ s.data = data
  total : ∀ length, p.total = some length ↔ length = sdu.length ∧ ∃ s ∈ kept, s.header.flags.last = true

theorem keeps_empty (sdu : Bytes) : empty.Keeps sdu [] where
  segments := fun offset data => by simp [empty]
  total := fun length => by simp [empty]

theorem Keeps.partOf (keeps : p.Keeps sdu kept) (slices : ∀ s ∈ kept, s.IsSlice sn sdu) : p.PartOf sdu where
  lies := fun e member => by
    obtain ⟨s, known, begins, data⟩ := (keeps.segments _ _).1 ((SortedMap.get?_eq_some_iff _ _ _).2 member)
    rw [← begins, ← data]
    exact (slices s known).2.1
  total := fun length known => ((keeps.total length).1 known).1

theorem Keeps.reaches_iff (keeps : p.Keeps sdu kept) (place : Nat) :
    Reaches p.segments.entries place ↔ ∃ s ∈ kept, s.start ≤ place ∧ place < s.stop := by
  constructor
  · rintro ⟨e, member, starts, ends⟩
    obtain ⟨s, known, begins, data⟩ := (keeps.segments _ _).1 ((SortedMap.get?_eq_some_iff _ _ _).2 member)
    rw [← begins] at starts ends
    rw [← data] at ends
    exact ⟨s, known, starts, ends⟩
  · rintro ⟨s, known, starts, ends⟩
    exact ⟨_, (SortedMap.get?_eq_some_iff _ _ _).1 ((keeps.segments _ _).2 ⟨s, known, rfl, rfl⟩), starts, ends⟩

/-- The parts of a unit are complete when the slices cover the unit. -/
theorem Keeps.isComplete_iff (keeps : p.Keeps sdu kept) (slices : ∀ s ∈ kept, s.IsSlice sn sdu) :
    p.isComplete = true ↔ Covers sdu kept := by
  rw [Partial.isComplete_iff (keeps.partOf slices), keeps.total, and_iff_right rfl, and_comm, Covers]
  simp only [keeps.reaches_iff]

/-- A slice that begins where none of the others does is added to them. -/
theorem Keeps.insert?_new (keeps : p.Keeps sdu kept) (slice : s.IsSlice sn sdu)
    (apart : ∀ t ∈ kept, t.start ≠ s.start) :
    ∃ q, p.insert? s.start s.data s.header.flags.last = some q ∧ q.Keeps sdu (kept ++ [s]) := by
  have free (data : Bytes) : p.segments.get? s.start ≠ some data := fun found => by
    obtain ⟨t, known, begins, -⟩ := (keeps.segments _ _).1 found
    exact apart t known begins
  obtain ⟨q, grown⟩ := exists_insert? free s.data s.header.flags.last
  refine ⟨q, grown, fun offset data => ?_, fun length => ?_⟩
  · rw [segments_insert? grown, keeps.segments, eq_comm (a := offset), eq_comm (a := data)]
    simp only [List.mem_append, List.mem_singleton, or_and_right, exists_or, exists_eq_left]
  · rw [total_insert? grown]
    simp only [List.mem_append, List.mem_singleton, or_and_right, exists_or, exists_eq_left]
    cases marked : s.header.flags.last with
    | true =>
      have reaches : s.start + s.data.length = sdu.length := slice.2.2.1 marked
      rw [if_pos rfl, Option.some.injEq, reaches, eq_comm]
      simp
    | false =>
      rw [if_neg Bool.false_ne_true, keeps.total]
      simp

/-- A slice that begins where another does is not added. -/
theorem Keeps.insert?_known (keeps : p.Keeps sdu kept) {t : Segment} (known : t ∈ kept) (same : t.start = s.start)
    (last : Bool) : p.insert? s.start s.data last = none :=
  (insert?_eq_none_iff _ _ _ _).2 <| (SortedMap.contains_eq_true_iff _ _).2
    ⟨t.data, (keeps.segments _ _).2 ⟨t, known, same, rfl⟩⟩

end Partial

/-! ## What a receiver knows of a unit -/

/-- Whether segments cover a unit once the one at an index is here, and not before. -/
def CoverAt (sdu : Bytes) (segments : List Segment) (index : Nat) : Prop :=
  ¬ Covers sdu (segments.take index) ∧ Covers sdu (segments.take (index + 1))

instance (sdu : Bytes) (segments : List Segment) (index : Nat) : Decidable (CoverAt sdu segments index) :=
  inferInstanceAs (Decidable (_ ∧ _))

theorem lt_length_of_coverAt {sdu : Bytes} {segments : List Segment} {index : Nat}
    (covers : CoverAt sdu segments index) : index < segments.length := by
  refine Nat.not_le.1 fun beyond => covers.1 ?_
  rw [List.take_of_length_le beyond, ← List.take_of_length_le (Nat.le_succ_of_le beyond)]
  exact covers.2

/-- Whether the segments that come first cover a unit once the one at an index is here, and not before. -/
def KeptCoverAt (sdu : Bytes) (segments : List Segment) (index : Nat) : Prop :=
  ¬ Covers sdu (firstCome (segments.take index)) ∧ Covers sdu (firstCome (segments.take (index + 1)))

instance (sdu : Bytes) (segments : List Segment) (index : Nat) : Decidable (KeptCoverAt sdu segments index) :=
  inferInstanceAs (Decidable (_ ∧ _))

namespace ReceiveState
variable {s : ReceiveState} {window : Nat} {sn : UInt32} {sdu : Bytes} {heard : List Segment} {segment : Segment}

/-- Whether a state tells of a number what some slices of its unit do: it is done with if they cover the unit, and
otherwise those that came first wait under it. -/
structure Knows (sn : UInt32) (sdu : Bytes) (heard : List Segment) (s : ReceiveState) : Prop where
  done_iff : s.Done sn.toNat ↔ Covers sdu (firstCome heard)
  keeps : ¬ Covers sdu (firstCome heard) → ((s.pending.get? sn.toNat).getD .empty).Keeps sdu (firstCome heard)

theorem knows_new (sn : UInt32) (sdu : Bytes) : new.Knows sn sdu [] where
  done_iff := by
    constructor
    · rintro (below | given)
      · exact absurd below (Nat.not_lt_zero _)
      · cases given
    · rintro ⟨-, s, member, -⟩
      cases member
  keeps := fun _ => Partial.keeps_empty sdu

/-- A slice that is looked at is added to those that came first, unless one of them begins where it does. -/
theorem grown?_of_knows (inWindow : sn.toNat < window) (inRange : window ≤ lastWord) (knows : s.Knows sn sdu heard)
    (lacking : ¬ Covers sdu (firstCome heard)) (slice : segment.IsSlice sn sdu) :
    match s.grown? window segment.header segment.data with
    | none => firstCome (heard ++ [segment]) = firstCome heard
    | some p => p.Keeps sdu (firstCome (heard ++ [segment])) := by
  have grown : s.grown? window segment.header segment.data =
      ((s.pending.get? sn.toNat).getD .empty).insert? segment.start segment.data segment.header.flags.last := by
    rw [grown?, slice.1, makeRoom_of_inWindow s inWindow inRange]
    rfl
  by_cases known : ∃ t ∈ heard, t.start = segment.start
  · obtain ⟨t, member, same⟩ := known
    obtain ⟨u, kept, begins⟩ := exists_firstCome member
    rw [grown, (knows.keeps lacking).insert?_known kept (begins.trans same)]
    exact firstCome_concat_of_known member same
  · have apart : ∀ t ∈ heard, t.start ≠ segment.start := fun t member same => known ⟨t, member, same⟩
    obtain ⟨p, added, keeps⟩ :=
      (knows.keeps lacking).insert?_new slice fun t kept => apart t (firstCome_subset heard kept)
    rw [grown, added, firstCome_concat_of_new apart]
    exact keeps

/-- A slice is answered with its unit if it is the one with which those that came first cover the unit, and the state
tells of the slice afterwards, too. -/
theorem knows_accept (inWindow : sn.toNat < window) (inRange : window ≤ lastWord) (knows : s.Knows sn sdu heard)
    (slices : ∀ t ∈ heard ++ [segment], t.IsSlice sn sdu) :
    (s.accept window segment.header segment.data).1 =
        (if KeptCoverAt sdu (heard ++ [segment]) heard.length then some sdu else none) ∧
      (s.accept window segment.header segment.data).2.Knows sn sdu (heard ++ [segment]) := by
  have slice : segment.IsSlice sn sdu := slices segment List.mem_concat_self
  have number : segment.header.sn.toNat = sn.toNat := congrArg UInt32.toNat slice.1
  have room : s.makeRoom window sn.toNat = s.received := makeRoom_of_inWindow s inWindow inRange
  have kept_slices : ∀ t ∈ firstCome (heard ++ [segment]), t.IsSlice sn sdu :=
    fun t kept => slices t (firstCome_subset _ kept)
  have more : firstCome heard ⊆ firstCome (heard ++ [segment]) := by
    rw [firstCome_append]
    exact List.subset_append_left _ _
  have answer_iff : KeptCoverAt sdu (heard ++ [segment]) heard.length ↔
      ¬ Covers sdu (firstCome heard) ∧ Covers sdu (firstCome (heard ++ [segment])) := by
    have size : heard.length + 1 = (heard ++ [segment]).length := by simp
    rw [KeptCoverAt, List.take_left, size, List.take_length]
  simp only [answer_iff]
  have taken := taken_accept s window segment.header segment.data
  generalize s.accept window segment.header segment.data = answer at taken ⊢
  have grown := fun lacking => grown?_of_knows inWindow inRange knows lacking slice
  cases taken with
  | late done =>
    rw [number] at done
    have covers := knows.done_iff.1 done
    refine ⟨(if_neg fun h => h.1 covers).symm, ⟨fun _ => covers.mono more, fun _ => done⟩, fun lacking => ?_⟩
    exact absurd (covers.mono more) lacking
  | again fresh known =>
    rw [number] at fresh
    have lacking := (not_congr knows.done_iff).1 fresh
    have same := grown lacking
    rw [known] at same
    rw [number, room]
    refine ⟨(if_neg fun h => h.1 (same ▸ h.2)).symm, ?_, ?_⟩
    · rw [same]
      exact knows.done_iff
    · rw [same]
      exact knows.keeps
  | stored p fresh stores lacks =>
    rw [number] at fresh
    have keeps := grown ((not_congr knows.done_iff).1 fresh)
    rw [stores] at keeps
    have lacking : ¬ Covers sdu (firstCome (heard ++ [segment])) := by
      rw [← keeps.isComplete_iff kept_slices, lacks]
      exact Bool.false_ne_true
    rw [number, store, room]
    refine ⟨(if_neg fun h => lacking h.2).symm, ⟨fun done => absurd done fresh, fun h => absurd h lacking⟩, fun _ => ?_⟩
    rw [SortedMap.get?_insert_self]
    exact keeps
  | completed p fresh stores whole =>
    rw [number] at fresh
    have lacking := (not_congr knows.done_iff).1 fresh
    have keeps := grown lacking
    rw [stores] at keeps
    have covers := (keeps.isComplete_iff kept_slices).1 whole
    rw [number, if_pos ⟨lacking, covers⟩, Partial.assemble_of_isComplete (keeps.partOf kept_slices) whole]
    refine ⟨rfl, ⟨fun _ => covers, fun _ => ?_⟩, fun h => absurd covers h⟩
    exact (done_handedOut _ _ _).2 (Or.inl rfl)

end ReceiveState

/-! ## Runs over slices -/

namespace Receiver
variable {sn : UInt32} {sdu : Bytes} {segments : List Segment}

theorem answers_concat (r : Receiver) (pdus : List Bytes) (pdu : Bytes) :
    r.answers (pdus ++ [pdu]) = r.answers pdus ++ [((r.nextAll pdus).receive pdu).map (·.1)] := by
  induction pdus generalizing r with
  | nil => rfl
  | cons first rest ih => rw [List.cons_append, answers, ih, answers, List.cons_append]; rfl

theorem nextAll_concat (r : Receiver) (pdus : List Bytes) (pdu : Bytes) :
    r.nextAll (pdus ++ [pdu]) = (r.nextAll pdus).next pdu := List.foldl_append

theorem window_nextAll (r : Receiver) (pdus : List Bytes) : (r.nextAll pdus).window = r.window := by
  induction pdus generalizing r with
  | nil => rfl
  | cons first rest ih => exact (ih (r.next first)).trans (next_window r first)

/-- A slice of a unit ends inside the range of offsets, and is taken in. -/
theorem receive_slice (r : Receiver) (short : sdu.length < 4294967296) {s : Segment} (slice : s.IsSlice sn sdu) :
    r.receive s.pdu = .ok ((r.state.accept r.window s.header s.data).1,
      { r with state := (r.state.accept r.window s.header s.data).2 }) := by
  refine receive_eq_ok_iff.2 ⟨s.header, s.data, SegmentHeader.parse_encode _ _, ?_, rfl⟩
  have inside : s.header.offset.toNat + s.data.length ≤ sdu.length := slice.2.1.1
  rw [lastWord]
  omega

theorem keptCoverAt_concat {s : Segment} {index : Nat} (before : index < segments.length) :
    KeptCoverAt sdu (segments ++ [s]) index ↔ KeptCoverAt sdu segments index := by
  rw [KeptCoverAt, KeptCoverAt, List.take_append_of_le_length (Nat.le_of_lt before),
    List.take_append_of_le_length (Nat.succ_le_of_lt before)]

/-- Over slices of one unit, a new receiver answers with the unit at the slice with which those that came first cover
it, and at no other. -/
theorem answers_slices (key : EntityKey) (path : Path) {window : Nat} (inWindow : sn.toNat < window)
    (inRange : window ≤ lastWord) (short : sdu.length < 4294967296) (slices : ∀ s ∈ segments, s.IsSlice sn sdu) :
    (new key path window).answers (segments.map Segment.pdu) =
        (List.range segments.length).map (fun index => .ok (if KeptCoverAt sdu segments index then some sdu else none)) ∧
      ((new key path window).nextAll (segments.map Segment.pdu)).state.Knows sn sdu segments := by
  induction segments using List.reverseRecOn with
  | nil => exact ⟨rfl, ReceiveState.knows_new sn sdu⟩
  | append_singleton heard s ih =>
    obtain ⟨answered, knows⟩ := ih fun t member => slices t (List.mem_append_left _ member)
    have received := receive_slice ((new key path window).nextAll (heard.map Segment.pdu)) short
      (slices s List.mem_concat_self)
    rw [window_nextAll] at received
    obtain ⟨answer, after⟩ := ReceiveState.knows_accept inWindow inRange knows slices
    rw [List.map_append, List.map_singleton, answers_concat, nextAll_concat, next, received, answered]
    refine ⟨?_, after⟩
    rw [List.length_append, List.length_singleton, List.range_succ, List.map_append, List.map_singleton]
    refine congr (congrArg _ (List.map_congr_left fun index before => ?_)) ?_
    · simp only [keptCoverAt_concat (List.mem_range.1 before)]
    · exact congrArg (fun x => [Except.ok x]) answer

/-- A new receiver in whose window a number lies answers with the unit of the number exactly at the slice with which the
slices that came first where they begin cover the unit. So it answers at the first slice with which all slices cover
the unit if and only if those that came first cover it by then, too; and it does if no slice reaches farther than one
that came before it from the same place. -/
theorem returned_when_kept_cover (key : EntityKey) (path : Path) (sn window : UInt32) (inWindow : sn < window)
    {sdu : Bytes} (short : sdu.length < 4294967296) {segments : List Segment}
    (slices : ∀ s ∈ segments, s.IsSlice sn sdu) :
    let answers := (new key path window.toNat).answers (segments.map Segment.pdu)
    (∀ index < segments.length,
        answers[index]? = some (.ok (if KeptCoverAt sdu segments index then some sdu else none))) ∧
      ((∀ index, CoverAt sdu segments index → answers[index]? = some (.ok (some sdu))) ↔
        ∀ index, CoverAt sdu segments index → Covers sdu (firstCome (segments.take (index + 1)))) ∧
      ((segments.Pairwise fun s t => s.start = t.start → t.stop ≤ s.stop) →
        ∀ index, CoverAt sdu segments index → answers[index]? = some (.ok (some sdu))) := by
  intro answers
  obtain ⟨all, -⟩ := answers_slices key path (UInt32.lt_iff_toNat_lt.1 inWindow)
    (Nat.le_of_lt_succ window.toNat_lt) short slices
  have answered (index : Nat) (counted : index < segments.length) :
      answers[index]? = some (.ok (if KeptCoverAt sdu segments index then some sdu else none)) := by
    show ((new key path window.toNat).answers (segments.map Segment.pdu))[index]? = _
    rw [all, List.getElem?_map, List.getElem?_range counted, Option.map_some]
  have prompt_iff (index : Nat) (covers : CoverAt sdu segments index) :
      answers[index]? = some (.ok (some sdu)) ↔ Covers sdu (firstCome (segments.take (index + 1))) := by
    have lacking : ¬ Covers sdu (firstCome (segments.take index)) := fun h => covers.1 (h.mono (firstCome_subset _))
    rw [answered index (lt_length_of_coverAt covers)]
    by_cases kept : Covers sdu (firstCome (segments.take (index + 1)))
    · simp [KeptCoverAt, lacking, kept]
    · simp [KeptCoverAt, kept]
  refine ⟨answered, forall_congr' fun index => forall_congr' fun covers => prompt_iff index covers, ?_⟩
  intro nested index covers
  have still : ∀ s ∈ segments.take (index + 1), s.IsSlice sn sdu := fun s member =>
    slices s (List.mem_of_mem_take member)
  exact (prompt_iff index covers).2 (covers_firstCome (nested.sublist (List.take_sublist _ _)) still covers.2)

/-- Overlapping slices of five octets, of which the second repeats the beginning of the first. -/
def overlapping : List Segment :=
  [⟨⟨⟨false, false, false⟩, 3, 1⟩, [2, 3]⟩, ⟨⟨⟨false, false, true⟩, 3, 1⟩, [2]⟩,
    ⟨⟨⟨false, true, false⟩, 3, 2⟩, [3, 4, 5]⟩, ⟨⟨⟨true, false, false⟩, 3, 0⟩, [1, 2, 3, 4]⟩]

theorem returned_when_kept_cover_overlapping :
    (3 : UInt32) < 8 ∧ (∀ s ∈ overlapping, s.IsSlice 3 [1, 2, 3, 4, 5]) ∧
      (overlapping.Pairwise fun s t => s.start = t.start → t.stop ≤ s.stop) ∧
      CoverAt [1, 2, 3, 4, 5] overlapping 3 ∧
      ((new ⟨⟨1⟩, .first⟩ .direct 8).answers (overlapping.map Segment.pdu))[3]? =
        some (.ok (some [1, 2, 3, 4, 5])) :=
  ⟨by decide, by decide, by decide, by decide,
    (returned_when_kept_cover ⟨⟨1⟩, .first⟩ .direct 3 8 (by decide) (by decide) (by decide)).2.2 (by decide) 3 (by decide)⟩

/-- Two slices that begin at the same place, of which the second is the whole unit. -/
def lengthened : List Segment :=
  [⟨⟨⟨true, false, false⟩, 0, 0⟩, [0xaa]⟩, ⟨⟨⟨true, true, false⟩, 0, 0⟩, [0xaa, 0xbb]⟩]

/-- The second slice covers the unit, but is not stored, as there is a slice where it begins. -/
theorem lengthened_unanswered :
    (∀ s ∈ lengthened, s.IsSlice 0 [0xaa, 0xbb]) ∧ CoverAt [0xaa, 0xbb] lengthened 1 ∧
      (new ⟨⟨1⟩, .first⟩ .direct 8).answers (lengthened.map Segment.pdu) = [.ok none, .ok none] := by
  decide

end Receiver
end Sidelink
