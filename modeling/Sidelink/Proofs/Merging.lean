import Sidelink.Proofs.AnyOrder
import Sidelink.Proofs.Reconciling

/-!
Two receivers of the same units. Every number has one unit, which one buffer cut (`UnitFamily`), and each receiver was
given some of the segments. What waits in a receiver is all that it heard of the numbers that it is not done with
(`ReceiveState.Tracks`). So if one of them takes over the state of the other, it hands out the units of exactly those
numbers that neither was done with and of whose segments each is stored in one of them, in the order of the numbers, and
takes nothing more of any number whose unit was handed out (`Receiver.merge_exact`).

All this rests on units whose length is a word. Of a longer unit, the segments beyond the range of offsets name places
at its beginning, and are put together with the segments that belong there (`Receiver.merged_short_of_unit`).
-/
namespace Sidelink

/-! ## One unit for each number -/

/-- A unit for each number, and a buffer that cuts it into segments. -/
structure UnitFamily where
  buffer : UInt32 → TransmitBuffer
  sdu : UInt32 → Bytes
  segmented : ∀ sn, (buffer sn).mode ≠ .transparent
  room : ∀ sn, 0 < (buffer sn).dataSize

namespace UnitFamily

/-- The unit of a number. -/
def unit (F : UnitFamily) (sn : UInt32) : Offer := ⟨sn, F.sdu sn, []⟩

/-- The data units of the unit of a number. -/
def pdus (F : UnitFamily) (sn : UInt32) : List Bytes := (F.buffer sn).pdus sn (F.sdu sn)

/-- A segment of the unit of a number. -/
def segment (F : UnitFamily) (sn : UInt32) (index : Nat) : Bytes := (F.buffer sn).segment (F.unit sn) index

/-- The header of a segment of the unit of a number. -/
def header (F : UnitFamily) (sn : UInt32) (index : Nat) : SegmentHeader :=
  (F.buffer sn).segmentHeader (F.unit sn) index

/-- The data of a segment of the unit of a number. -/
def stretch (F : UnitFamily) (sn : UInt32) (index : Nat) : Bytes := (F.buffer sn).stretch (F.unit sn) index

/-- How many segments the unit of a number has. -/
def count (F : UnitFamily) (sn : UInt32) : Nat := (F.buffer sn).pduCount (F.sdu sn).length

/-- Whether a data unit is one of a number that is not the largest. -/
def Sends (F : UnitFamily) (pdu : Bytes) : Prop := ∃ sn, sn.toNat < lastWord ∧ pdu ∈ F.pdus sn

/-- Whether the length of every unit is a word. -/
def Short (F : UnitFamily) : Prop := ∀ sn, (F.sdu sn).length < 4294967296

variable {F : UnitFamily} {sn sn' : UInt32} {pdu : Bytes} {index index' : Nat} {heard : List Bytes}

theorem mem_pdus_iff : pdu ∈ F.pdus sn ↔ ∃ index < F.count sn, pdu = F.segment sn index := by
  have members : pdu ∈ (F.buffer sn).pdus (F.unit sn).sn (F.unit sn).sdu ↔ _ :=
    TransmitBuffer.mem_pdus_iff (F.segmented sn) (F.room sn)
  exact members

theorem count_pos (F : UnitFamily) (sn : UInt32) : 0 < F.count sn :=
  TransmitBuffer.pduCount_pos (F.segmented sn) (F.room sn) _

theorem parse_segment (F : UnitFamily) (sn : UInt32) (index : Nat) :
    SegmentHeader.parse (F.segment sn index) = .ok (F.header sn index, F.stretch sn index) :=
  SegmentHeader.parse_encode _ _

@[simp] theorem sn_header (F : UnitFamily) (sn : UInt32) (index : Nat) : (F.header sn index).sn = sn := rfl

theorem toNat_offset (short : F.Short) (counted : index < F.count sn) :
    (F.header sn index).offset.toNat = index * (F.buffer sn).dataSize := by
  have length : (F.unit sn).sdu.length < 4294967296 := short sn
  exact TransmitBuffer.toNat_offset (F.segmented sn) (F.room sn) length counted

theorem eq_of_segment_eq (alike : F.segment sn index = F.segment sn' index') : sn = sn' := by
  have parsed := congrArg SegmentHeader.parse alike
  rw [parse_segment, parse_segment] at parsed
  exact congrArg SegmentHeader.sn (Prod.mk.inj (Except.ok.inj parsed)).1

theorem discernible (short : F.Short) (below : sn.toNat < lastWord) :
    Discernible (F.buffer sn) lastWord [F.unit sn] where
  segmented := F.segmented sn
  room := F.room sn
  distinct := List.nodup_singleton _
  short := fun _ member => List.mem_singleton.1 member ▸ short sn
  inWindow := fun _ member => List.mem_singleton.1 member ▸ below
  window_le := Nat.le_refl _

/-- No data unit of the family moves an edge back. -/
theorem Sends.not_retreats (sends : F.Sends pdu) (r : Receiver) : ¬ r.Retreats pdu := by
  obtain ⟨sn, below, member⟩ := sends
  obtain ⟨index, -, rfl⟩ := mem_pdus_iff.1 member
  rintro ⟨header, data, parsed, -, top, -⟩
  rw [parse_segment] at parsed
  obtain ⟨rfl, rfl⟩ := Prod.mk.inj (Except.ok.inj parsed)
  exact Nat.lt_irrefl _ (top ▸ below)

theorem steady {pdus : List Bytes} (sends : ∀ pdu ∈ pdus, F.Sends pdu) (r : Receiver) : r.Steady pdus := by
  induction pdus generalizing r with
  | nil => trivial
  | cons pdu rest ih =>
    exact ⟨(sends pdu List.mem_cons_self).not_retreats r, ih (fun x later => sends x (List.mem_cons_of_mem _ later)) _⟩

end UnitFamily

/-! ## Two parts of one unit -/

namespace Partial
variable {b : TransmitBuffer} {unit : Offer} {heard heard' : List Bytes} {p q : Partial}

/-- Two parts of a unit together have the segments that either has. -/
theorem Holds.merge (room : 0 < b.dataSize) (holds : p.Holds b unit heard) (holds' : q.Holds b unit heard') :
    (p.merge q).Holds b unit (heard ++ heard') where
  segments := fun offset data => by
    rw [get?_merge, Option.or_eq_some_iff]
    constructor
    · rintro (own | ⟨-, other⟩)
      · obtain ⟨index, counted, known, here⟩ := (holds.segments offset data).1 own
        exact ⟨index, counted, List.mem_append_left _ known, here⟩
      · obtain ⟨index, counted, known, here⟩ := (holds'.segments offset data).1 other
        exact ⟨index, counted, List.mem_append_right _ known, here⟩
    · rintro ⟨index, counted, known, rfl, rfl⟩
      cases own : p.segments.get? (index * b.dataSize) with
      | some data =>
        -- Segments at one offset have one place in the unit, and so the same data.
        obtain ⟨index', -, -, same, rfl⟩ := (holds.segments _ _).1 own
        exact Or.inl (by rw [Nat.eq_of_mul_eq_mul_right room same])
      | none =>
        refine Or.inr ⟨rfl, (holds'.segments _ _).2 ⟨index, counted, ?_, rfl, rfl⟩⟩
        refine (List.mem_append.1 known).resolve_left fun before => ?_
        cases own.symm.trans ((holds.segments _ _).2 ⟨index, counted, before, rfl, rfl⟩)
  total := fun length => by
    show p.total.or q.total = some length ↔ _
    rw [Option.or_eq_some_iff]
    constructor
    · rintro (own | ⟨-, other⟩)
      · obtain ⟨same, index, last, known⟩ := (holds.total length).1 own
        exact ⟨same, index, last, List.mem_append_left _ known⟩
      · obtain ⟨same, index, last, known⟩ := (holds'.total length).1 other
        exact ⟨same, index, last, List.mem_append_right _ known⟩
    · rintro ⟨rfl, index, last, known⟩
      cases own : p.total with
      | some length => exact Or.inl (by rw [((holds.total length).1 own).1])
      | none =>
        refine Or.inr ⟨rfl, (holds'.total _).2 ⟨rfl, index, last, ?_⟩⟩
        refine (List.mem_append.1 known).resolve_left fun before => ?_
        cases own.symm.trans ((holds.total _).2 ⟨rfl, index, last, before⟩)

end Partial

/-! ## What a receiver heard -/

namespace ReceiveState
variable {s t : ReceiveState} {window n : Nat} {header : SegmentHeader} {data : Bytes}

/-- Making room leaves what waits of the numbers that are not done with then. -/
theorem pending_makeRoom_of_fresh {sn : Nat} (fresh : ¬ (s.makeRoom window sn).Done n) :
    (s.makeRoom window sn).pending.get? n = s.pending.get? n := by
  by_cases above : sn - (window - 1) ≤ n
  · exact pending_makeRoom_of_le s above
  · -- The edge was not moved, since it would have passed the number.
    rw [makeRoom] at fresh ⊢
    split at fresh
    · rw [slide, done_advance] at fresh
      exact absurd (Or.inl (Nat.not_le.1 above)) fresh
    · rename_i inside
      rw [if_neg inside]
      rfl

/-- A segment leaves what waits of other numbers that are not done with afterwards. -/
theorem pending_accept_of_fresh (other : n ≠ header.sn.toNat) (fresh : ¬ (s.accept window header data).2.Done n) :
    (s.accept window header data).2.pending.get? n = s.pending.get? n := by
  have taken := taken_accept s window header data
  generalize s.accept window header data = answer at taken fresh ⊢
  cases taken with
  | late done => rfl
  | again _ known => exact pending_makeRoom_of_fresh fresh
  | stored p _ grown lacking =>
    exact (SortedMap.get?_insert_of_ne _ other p).trans (pending_makeRoom_of_fresh fresh)
  | completed p _ grown whole =>
    rw [done_handedOut, not_or] at fresh
    rw [pending_handedOut, if_neg other]
    exact (SortedMap.get?_insert_of_ne _ other p).trans (pending_makeRoom_of_fresh fresh.2)

/-- Nothing is handed out for a number that is done with. -/
theorem accept_of_done (done : s.Done header.sn.toNat) : (s.accept window header data).1 = none := by
  have taken := taken_accept s window header data
  generalize s.accept window header data = answer at taken ⊢
  cases taken with
  | late done => rfl
  | again fresh known => rfl
  | stored p fresh grown lacking => rfl
  | completed p fresh grown whole => exact absurd done fresh

theorem grown?_eq (s : ReceiveState) (window : Nat) (header : SegmentHeader) (data : Bytes) :
    s.grown? window header data =
      ((s.pending.get? header.sn.toNat).getD .empty).insert? header.offset.toNat data header.flags.last := by
  rw [grown?, (makeRoom_of_le s window (Nat.le_refl _)).2]

/-- Of its own number, unless the number is done with afterwards, a segment is added to what waits or is there
already. -/
theorem pending_accept_self (fresh : ¬ (s.accept window header data).2.Done header.sn.toNat) :
    ¬ s.Done header.sn.toNat ∧
      (s.grown? window header data = none ∧
          (s.accept window header data).2.pending.get? header.sn.toNat = s.pending.get? header.sn.toNat ∨
        ∃ p, s.grown? window header data = some p ∧
          (s.accept window header data).2.pending.get? header.sn.toNat = some p) := by
  have taken := taken_accept s window header data
  generalize s.accept window header data = answer at taken fresh ⊢
  cases taken with
  | late done => exact absurd done fresh
  | again before known => exact ⟨before, Or.inl ⟨known, (makeRoom_of_le s window (Nat.le_refl _)).2⟩⟩
  | stored p before grown lacking => exact ⟨before, Or.inr ⟨p, grown, SortedMap.get?_insert_self _ _ _⟩⟩
  | completed p before grown whole => exact absurd ((done_handedOut _ _ _).2 (Or.inl rfl)) fresh

/-- A segment lists its own number at most, and only if its unit is handed out. -/
theorem contains_delivered_accept (given : (s.accept window header data).2.delivered.contains n = true) :
    s.delivered.contains n = true ∨ n = header.sn.toNat ∧ (s.accept window header data).1.isSome = true := by
  have taken := taken_accept s window header data
  generalize s.accept window header data = answer at taken given ⊢
  cases taken with
  | late done => exact Or.inl given
  | again fresh known => exact Or.inl (delivered_makeRoom given)
  | stored p fresh grown lacking => exact Or.inl (delivered_makeRoom given)
  | completed p fresh grown whole =>
    rcases (SortedMap.contains_add _ _ _).1 ((contains_advance _ n).1 given).1 with same | before
    · exact Or.inr ⟨same, rfl⟩
    · exact Or.inl (delivered_makeRoom before)

/-- Whether the segment that a data unit carries is stored in a state. -/
def Stores (s : ReceiveState) (pdu : Bytes) : Prop :=
  ∃ header data p, SegmentHeader.parse pdu = .ok (header, data) ∧ s.pending.get? header.sn.toNat = some p ∧
    p.segments.get? header.offset.toNat = some data

/-- Whether what waits in a state, of each number that it is not done with, is what some data units tell of the unit of
the number. -/
structure Tracks (F : UnitFamily) (heard : List Bytes) (s : ReceiveState) : Prop where
  settled : s.Settled
  below : ∀ n, s.pending.contains n = true → n < lastWord
  holds : ∀ sn : UInt32, sn.toNat < lastWord → ¬ s.Done sn.toNat →
    ((s.pending.get? sn.toNat).getD .empty).Holds (F.buffer sn) (F.unit sn) heard

theorem tracks_new (F : UnitFamily) : new.Tracks F [] where
  settled := settled_new
  below := fun n waits => by cases waits
  holds := fun sn _ _ => Partial.holds_empty _ _

variable {F : UnitFamily} {heard heard' : List Bytes} {sn : UInt32} {pdu : Bytes} {index : Nat}

/-- What waits of the number of a segment, with the segment if it is new, is what is told then. -/
theorem holds_accept_self (short : F.Short) (tracks : s.Tracks F heard) (below : sn.toNat < lastWord)
    (counted : index < F.count sn)
    (fresh : ¬ (s.accept window (F.header sn index) (F.stretch sn index)).2.Done (F.header sn index).sn.toNat) :
    (((s.accept window (F.header sn index) (F.stretch sn index)).2.pending.get? sn.toNat).getD .empty).Holds
      (F.buffer sn) (F.unit sn) (F.segment sn index :: heard) := by
  obtain ⟨before, taken⟩ := pending_accept_self fresh
  rw [UnitFamily.sn_header] at before taken
  have holds := tracks.holds sn below before
  have grown_eq := grown?_eq s window (F.header sn index) (F.stretch sn index)
  rw [UnitFamily.toNat_offset short counted, UnitFamily.sn_header] at grown_eq
  by_cases known : F.segment sn index ∈ heard
  · have repeats := grown_eq.trans (holds.insert?_known counted known _ _)
    rcases taken with ⟨-, same⟩ | ⟨p, grown, -⟩
    · rw [same]
      exact holds.congr fun index' _ =>
        ⟨fun h => (List.mem_cons.1 h).elim (fun here => here ▸ known) id, List.mem_cons_of_mem _⟩
    · cases repeats.symm.trans grown
  · obtain ⟨q, added, holds'⟩ :=
      holds.insert?_new (UnitFamily.discernible short below) List.mem_cons_self counted known
    rcases taken with ⟨nothing, -⟩ | ⟨p, grown, same⟩
    · cases (grown_eq.trans added).symm.trans nothing
    · obtain rfl := Option.some.inj ((grown_eq.trans added).symm.trans grown)
      rw [same]
      exact holds'

/-- A state goes on to have what is told, whatever segment of the family it takes in. -/
theorem tracks_accept (short : F.Short) (positive : 0 < window) (tracks : s.Tracks F heard)
    (below : sn.toNat < lastWord) (counted : index < F.count sn) :
    (s.accept window (F.header sn index) (F.stretch sn index)).2.Tracks F (F.segment sn index :: heard) where
  settled := settled_accept tracks.settled _ _ _
  below := fun n waits => by
    by_cases same : n = sn.toNat
    · exact same ▸ below
    · obtain ⟨p, found⟩ := (SortedMap.contains_eq_true_iff _ _).1 waits
      exact tracks.below n ((SortedMap.contains_eq_true_iff _ _).2 ⟨p, pending_accept_of_ne same found⟩)
  holds := fun k k_below fresh => by
    by_cases same : k = sn
    · subst same
      exact holds_accept_self short tracks below counted fresh
    · have other : k.toNat ≠ sn.toNat := fun h => same (UInt32.toNat_inj.1 h)
      have before : ¬ s.Done k.toNat := fun done =>
        fresh (done_accept positive _ (fun retreats => Nat.ne_of_lt below retreats.1) done)
      rw [pending_accept_of_fresh other fresh]
      refine (tracks.holds k k_below before).congr fun index' _ => ?_
      rw [List.mem_cons, or_iff_right]
      exact fun alike => same (UnitFamily.eq_of_segment_eq (show F.segment k index' = F.segment sn index from alike))

/-- A segment of a number that is not done with is stored exactly if it is among what is told. -/
theorem Tracks.stores_iff (short : F.Short) (tracks : s.Tracks F heard) (below : sn.toNat < lastWord)
    (fresh : ¬ s.Done sn.toNat) (member : pdu ∈ F.pdus sn) : s.Stores pdu ↔ pdu ∈ heard := by
  have holds := tracks.holds sn below fresh
  obtain ⟨index, counted, rfl⟩ := UnitFamily.mem_pdus_iff.1 member
  have offset := UnitFamily.toNat_offset short counted
  constructor
  · rintro ⟨header, data, p, parsed, found, stored⟩
    rw [UnitFamily.parse_segment] at parsed
    obtain ⟨rfl, rfl⟩ := Prod.mk.inj (Except.ok.inj parsed)
    rw [UnitFamily.sn_header] at found
    rw [found] at holds
    rw [offset] at stored
    obtain ⟨index', -, known, same, -⟩ := (holds.segments _ _).1 stored
    rw [Nat.eq_of_mul_eq_mul_right (F.room sn) same]
    exact known
  · intro known
    have stored := (holds.segments _ _).2 ⟨index, counted, known, rfl, rfl⟩
    cases found : s.pending.get? sn.toNat with
    | none =>
      rw [found] at stored
      cases stored
    | some p =>
      rw [found] at stored
      exact ⟨_, _, p, F.parse_segment sn index, found, by rw [offset]; exact stored⟩

/-- A number of which a segment is stored is not the largest. -/
theorem Tracks.below_of_stores (tracks : s.Tracks F heard) (member : pdu ∈ F.pdus sn) (stores : s.Stores pdu) :
    sn.toNat < lastWord := by
  obtain ⟨index, -, rfl⟩ := UnitFamily.mem_pdus_iff.1 member
  obtain ⟨header, data, p, parsed, found, -⟩ := stores
  rw [UnitFamily.parse_segment] at parsed
  obtain ⟨rfl, -⟩ := Prod.mk.inj (Except.ok.inj parsed)
  exact tracks.below sn.toNat ((SortedMap.contains_eq_true_iff _ _).2 ⟨p, found⟩)

/-! ## Two states in one -/

/-- What waits of a number that is done with in neither of two states is what is told to either. -/
theorem Tracks.holds_joined (tracks : s.Tracks F heard) (tracks' : t.Tracks F heard') (below : sn.toNat < lastWord)
    (fresh : ¬ s.Done sn.toNat) (fresh' : ¬ t.Done sn.toNat) :
    (((s.joined t).pending.get? sn.toNat).getD .empty).Holds (F.buffer sn) (F.unit sn) (heard ++ heard') := by
  rw [pending_joined_of_fresh fresh fresh']
  exact (tracks.holds sn below fresh).merge (F.room sn) (tracks'.holds sn below fresh')

/-- A number whose unit is complete in two states together is not the largest. -/
theorem Tracks.below_of_ready (tracks : s.Tracks F heard) (tracks' : t.Tracks F heard')
    (ready : n ∈ (s.joined t).ready) : n < lastWord := by
  obtain ⟨p, found, -⟩ := (mem_ready_iff _ n).1 ready
  have waits : (s.joined t).pending.contains n = true := (SortedMap.contains_eq_true_iff _ _).2 ⟨p, found⟩
  exact (contains_joined waits).elim (tracks.below n) (tracks'.below n)

/-- The unit of a number is complete in two states together exactly if neither is done with the number and the two have
all its segments. -/
theorem Tracks.mem_ready_joined_iff (short : F.Short) (tracks : s.Tracks F heard) (tracks' : t.Tracks F heard') :
    sn.toNat ∈ (s.joined t).ready ↔
      ¬ s.Done sn.toNat ∧ ¬ t.Done sn.toNat ∧ ∀ pdu ∈ F.pdus sn, s.Stores pdu ∨ t.Stores pdu := by
  constructor
  · intro ready
    have below := tracks.below_of_ready tracks' ready
    obtain ⟨p, found, whole⟩ := (mem_ready_iff _ _).1 ready
    have neither : ¬ (s.Done sn.toNat ∨ t.Done sn.toNat) := fun done => by
      rw [pending_joined_of_done done] at found
      rw [(tracks.settled.waiting _ p found).2] at whole
      cases whole
    obtain ⟨fresh, fresh'⟩ := not_or.1 neither
    have holds := tracks.holds_joined tracks' below fresh fresh'
    rw [found] at holds
    have full := (holds.isComplete_iff (UnitFamily.discernible short below)).1 whole
    refine ⟨fresh, fresh', fun pdu member => ?_⟩
    rw [tracks.stores_iff short below fresh member, tracks'.stores_iff short below fresh' member]
    exact List.mem_append.1 (full member)
  · rintro ⟨fresh, fresh', all⟩
    have first := UnitFamily.mem_pdus_iff.2 ⟨0, F.count_pos sn, rfl⟩
    have below : sn.toNat < lastWord :=
      (all _ first).elim (tracks.below_of_stores first) (tracks'.below_of_stores first)
    have full : (F.unit sn).InFull (F.buffer sn) (heard ++ heard') := fun pdu member => by
      have either := all pdu member
      rw [tracks.stores_iff short below fresh member, tracks'.stores_iff short below fresh' member] at either
      exact List.mem_append.2 either
    have whole := ((tracks.holds_joined tracks' below fresh fresh').isComplete_iff
      (UnitFamily.discernible short below)).2 full
    cases found : (s.joined t).pending.get? sn.toNat with
    | none =>
      rw [found] at whole
      cases whole
    | some p =>
      rw [found] at whole
      exact (mem_ready_iff _ _).2 ⟨p, found, whole⟩

/-- A unit that two states together complete is that of the family. -/
theorem Tracks.unitOf_joined (short : F.Short) (tracks : s.Tracks F heard) (tracks' : t.Tracks F heard')
    (ready : sn.toNat ∈ (s.joined t).ready) : (s.joined t).unitOf sn.toNat = F.sdu sn := by
  have below := tracks.below_of_ready tracks' ready
  obtain ⟨fresh, fresh', -⟩ := (tracks.mem_ready_joined_iff short tracks').1 ready
  have holds := tracks.holds_joined tracks' below fresh fresh'
  obtain ⟨p, found, whole⟩ := (mem_ready_iff _ _).1 ready
  rw [unitOf, found]
  rw [found] at holds
  exact Partial.assemble_of_isComplete (holds.partOf (UnitFamily.discernible short below)) whole

/-- The numbers whose units two states together complete, in order. -/
def readyNumbers (s t : ReceiveState) : List UInt32 := (s.joined t).ready.map UInt32.ofNat

theorem Tracks.toNat_of_mem_ready (tracks : s.Tracks F heard) (tracks' : t.Tracks F heard')
    (ready : n ∈ (s.joined t).ready) : (UInt32.ofNat n).toNat = n := by
  have below := tracks.below_of_ready tracks' ready
  rw [lastWord] at below
  rw [UInt32.toNat_ofNat']
  omega

theorem Tracks.mem_readyNumbers_iff (tracks : s.Tracks F heard) (tracks' : t.Tracks F heard') :
    sn ∈ s.readyNumbers t ↔ sn.toNat ∈ (s.joined t).ready := by
  rw [readyNumbers, List.mem_map]
  constructor
  · rintro ⟨n, ready, rfl⟩
    rw [tracks.toNat_of_mem_ready tracks' ready]
    exact ready
  · exact fun ready => ⟨_, ready, UInt32.toNat_inj.1 (tracks.toNat_of_mem_ready tracks' ready)⟩

theorem Tracks.increasing_readyNumbers (tracks : s.Tracks F heard) (tracks' : t.Tracks F heard') :
    (s.readyNumbers t).Pairwise (· < ·) := by
  rw [readyNumbers, List.pairwise_map]
  refine (s.joined t).increasing_ready.imp_of_mem fun {a b} first second before => ?_
  rw [UInt32.lt_iff_toNat_lt, tracks.toNat_of_mem_ready tracks' first, tracks.toNat_of_mem_ready tracks' second]
  exact before

theorem Tracks.reconcile_eq_map (short : F.Short) (tracks : s.Tracks F heard) (tracks' : t.Tracks F heard') :
    (s.reconcile t).1 = (s.readyNumbers t).map F.sdu := by
  rw [reconcile_eq_handedOut, readyNumbers, List.map_map]
  refine List.map_congr_left fun n ready => ?_
  have same := tracks.toNat_of_mem_ready tracks' ready
  have ready' : (UInt32.ofNat n).toNat ∈ (s.joined t).ready := by rwa [same]
  have unit := tracks.unitOf_joined short tracks' ready'
  rwa [same] at unit

end ReceiveState

/-! ## Runs -/

namespace Receiver
variable {r : Receiver} {F : UnitFamily} {heard pdus : List Bytes} {sn : UInt32}

/-- A data unit of the family is read as a segment of its number, and taken in. -/
theorem receive_of_family (short : F.Short) {index : Nat} (counted : index < F.count sn) (r : Receiver) :
    r.receive (F.segment sn index) =
      .ok ((r.state.accept r.window (F.header sn index) (F.stretch sn index)).1,
        { r with state := (r.state.accept r.window (F.header sn index) (F.stretch sn index)).2 }) := by
  have length : (F.unit sn).sdu.length < 4294967296 := short sn
  exact receive_segment (F.segmented sn) (F.room sn) length counted r

theorem tracks_nextAll (short : F.Short) (positive : 0 < r.window) (tracks : r.state.Tracks F heard)
    (sends : ∀ pdu ∈ pdus, F.Sends pdu) : (r.nextAll pdus).state.Tracks F (pdus.reverse ++ heard) := by
  induction pdus generalizing r heard with
  | nil => exact tracks
  | cons pdu rest ih =>
    obtain ⟨sn, below, member⟩ := sends pdu List.mem_cons_self
    obtain ⟨index, counted, rfl⟩ := UnitFamily.mem_pdus_iff.1 member
    have here : (r.next (F.segment sn index)).state.Tracks F (F.segment sn index :: heard) := by
      rw [next, receive_of_family short counted]
      exact ReceiveState.tracks_accept short positive tracks below counted
    rw [List.reverse_cons, List.append_assoc]
    exact ih (by rw [next_window]; exact positive) here fun x later => sends x (List.mem_cons_of_mem _ later)

theorem done_nextAll (positive : 0 < r.window) (steady : r.Steady pdus) {n : Nat} (done : r.state.Done n) :
    (r.nextAll pdus).state.Done n := by
  induction pdus generalizing r with
  | nil => exact done
  | cons pdu rest ih => exact ih (by rwa [next_window]) steady.2 (done_next positive steady.1 done)

theorem done_of_mem_numbers (positive : 0 < r.window) (steady : r.Steady pdus) (given : sn ∈ r.numbers pdus) :
    (r.nextAll pdus).state.Done sn.toNat := by
  induction pdus generalizing r with
  | nil => cases given
  | cons pdu rest ih =>
    have still : 0 < (r.next pdu).window := by rwa [next_window]
    rcases List.mem_append.1 given with now | later
    · exact done_nextAll still steady.2 (done_of_returned? (Option.mem_toList.1 now)).2
    · exact ih still steady.2 later

/-- A number that is listed was listed before, or its unit was handed out since. -/
theorem mem_numbers_of_listed (listed : (r.nextAll pdus).state.delivered.contains sn.toNat = true) :
    r.state.delivered.contains sn.toNat = true ∨ sn ∈ r.numbers pdus := by
  induction pdus generalizing r with
  | nil => exact Or.inl listed
  | cons pdu rest ih =>
    rcases ih listed with before | later
    · rcases r.next_state pdu with ⟨same, -, -⟩ | ⟨header, data, -, -, state, returned⟩
      · rw [same] at before
        exact Or.inl before
      · rw [state] at before
        rcases ReceiveState.contains_delivered_accept before with earlier | ⟨same, handed⟩
        · exact Or.inl earlier
        · obtain ⟨sdu, handed⟩ := Option.isSome_iff_exists.1 handed
          rw [handed, ← UInt32.toNat_inj.1 same] at returned
          exact Or.inr (List.mem_append_left _ (Option.mem_toList.2 returned))
    · exact Or.inr (List.mem_append_right _ later)

/-- A receiver that was new is not done with a number exactly if the edge has not passed it and its unit was not handed
out. -/
theorem not_done_iff (key : EntityKey) (path : Path) {window : Nat} (positive : 0 < window)
    (steady : (new key path window).Steady pdus) :
    ¬ ((new key path window).nextAll pdus).state.Done sn.toNat ↔
      sn ∉ (new key path window).numbers pdus ∧ ((new key path window).nextAll pdus).state.edge ≤ sn.toNat := by
  constructor
  · intro fresh
    exact ⟨fun given => fresh (done_of_mem_numbers (r := new key path window) positive steady given),
      Nat.not_lt.1 fun below => fresh (Or.inl below)⟩
  · rintro ⟨notGiven, above⟩ (below | listed)
    · exact Nat.not_lt.2 above below
    · exact (mem_numbers_of_listed listed).elim (fun listed => by cases listed) notGiven

/-- Nothing more is taken of a number that is done with. -/
theorem receive_done (short : F.Short) (done : r.state.Done sn.toNat) {pdu : Bytes} (member : pdu ∈ F.pdus sn) :
    (r.receive pdu).map (·.1) = .ok none := by
  obtain ⟨index, counted, rfl⟩ := UnitFamily.mem_pdus_iff.1 member
  have late : r.state.Done (F.header sn index).sn.toNat := done
  rw [receive_of_family short counted]
  exact congrArg Except.ok (ReceiveState.accept_of_done late)

/-- Two new receivers are given data units of a family of units of which no number is the largest. If the first takes
over the state of the second, it hands out, in the order of their numbers, the units of exactly those numbers whose unit
neither handed out, that neither edge has passed, and of which every segment is stored in one of the two. Afterwards,
whatever data units of the family arrive, it answers with nothing to those under a number whose unit either of the two
or the merged one handed out. -/
theorem merge_exact (short : F.Short) (key key' : EntityKey) (path path' : Path) {window window' : Nat}
    (positive : 0 < window) (positive' : 0 < window') {pdus pdus' : List Bytes} (sends : ∀ pdu ∈ pdus, F.Sends pdu)
    (sends' : ∀ pdu ∈ pdus', F.Sends pdu) :
    let a := (new key path window).nextAll pdus
    let b := (new key' path' window').nextAll pdus'
    let given := (new key path window).numbers pdus
    let given' := (new key' path' window').numbers pdus'
    let merged := a.reconcile (b.handOver false)
    ∃ numbers : List UInt32,
      merged.1 = numbers.map F.sdu ∧ numbers.Pairwise (· < ·) ∧
        (∀ sn, sn ∈ numbers ↔
          sn ∉ given ∧ sn ∉ given' ∧ a.state.edge ≤ sn.toNat ∧ b.state.edge ≤ sn.toNat ∧
            ∀ pdu ∈ F.pdus sn, a.state.Stores pdu ∨ b.state.Stores pdu) ∧
        ∀ later, (∀ pdu ∈ later, F.Sends pdu) → ∀ sn, sn ∈ given ∨ sn ∈ given' ∨ sn ∈ numbers →
          ∀ pdu ∈ F.pdus sn, ((merged.2.nextAll later).receive pdu).map (·.1) = .ok none := by
  intro a b given given' merged
  have steady : (new key path window).Steady pdus := UnitFamily.steady sends _
  have steady' : (new key' path' window').Steady pdus' := UnitFamily.steady sends' _
  have tracks : a.state.Tracks F (pdus.reverse ++ []) :=
    tracks_nextAll (r := new key path window) short positive (ReceiveState.tracks_new F) sends
  have tracks' : b.state.Tracks F (pdus'.reverse ++ []) :=
    tracks_nextAll (r := new key' path' window') short positive' (ReceiveState.tracks_new F) sends'
  refine ⟨a.state.readyNumbers b.state, tracks.reconcile_eq_map short tracks',
    tracks.increasing_readyNumbers tracks', fun sn => ?_, fun later sent sn known pdu member => ?_⟩
  · rw [tracks.mem_readyNumbers_iff tracks', tracks.mem_ready_joined_iff short tracks',
      not_done_iff key path positive steady, not_done_iff key' path' positive' steady']
    tauto
  · have done : merged.2.state.Done sn.toNat := by
      refine (ReceiveState.done_reconcile _ _ _).2 ?_
      rcases known with own | other | ready
      · exact Or.inr (Or.inl (done_of_mem_numbers (r := new key path window) positive steady own))
      · exact Or.inr (Or.inr (done_of_mem_numbers (r := new key' path' window') positive' steady' other))
      · exact Or.inl ((tracks.mem_readyNumbers_iff tracks').1 ready)
    have open_yet : 0 < merged.2.window := by
      show 0 < a.window
      rw [window_nextAll]
      exact positive
    exact receive_done short (done_nextAll open_yet (UnitFamily.steady sent _) done) member

/-- Under one number a unit of three segments, under every other a unit of one. -/
def threeParts : UnitFamily where
  buffer := fun _ => smallBuffer
  sdu := fun sn => if sn = 2 then [1, 2, 3, 4, 5, 6, 7] else [8]
  segmented := fun _ => by decide
  room := fun _ => by decide

/-- What the receiver heard that takes over: all of one unit, and two segments of another. -/
def heardHere : List Bytes := threeParts.pdus 1 ++ (threeParts.pdus 2).drop 1

/-- What the other receiver heard: all of a third unit, and the first two segments of the second. -/
def heardThere : List Bytes := threeParts.pdus 4 ++ (threeParts.pdus 2).take 2

theorem sends_heardHere : ∀ pdu ∈ heardHere, threeParts.Sends pdu := fun pdu member => by
  rcases List.mem_append.1 member with whole | part
  · exact ⟨1, by decide, whole⟩
  · exact ⟨2, by decide, List.mem_of_mem_drop part⟩

theorem sends_heardThere : ∀ pdu ∈ heardThere, threeParts.Sends pdu := fun pdu member => by
  rcases List.mem_append.1 member with whole | part
  · exact ⟨4, by decide, whole⟩
  · exact ⟨2, by decide, List.mem_of_mem_take part⟩

theorem short_threeParts : threeParts.Short := fun sn => by
  show (if sn = 2 then [1, 2, 3, 4, 5, 6, 7] else [8] : Bytes).length < _
  split <;> decide

/-- The unit of which both have segments is handed out, and nothing is taken of its number or the other two later. -/
theorem merge_exact_in_parts :
    let merged := ((new ⟨⟨1⟩, .first⟩ .infrastructure 8).nextAll heardHere).reconcile
      (((new ⟨⟨1⟩, .first⟩ .direct 8).nextAll heardThere).handOver false)
    0 < 8 ∧ merged.1 = [[1, 2, 3, 4, 5, 6, 7]] ∧
      ∀ later, (∀ pdu ∈ later, threeParts.Sends pdu) → ∀ sn, sn = 1 ∨ sn = 4 ∨ sn = 2 →
        ∀ pdu ∈ threeParts.pdus sn, ((merged.2.nextAll later).receive pdu).map (·.1) = .ok none := by
  intro merged
  obtain ⟨numbers, units, -, -, nothing⟩ := merge_exact short_threeParts ⟨⟨1⟩, .first⟩ ⟨⟨1⟩, .first⟩ .infrastructure
    .direct (show 0 < 8 by decide) (show 0 < 8 by decide) sends_heardHere sends_heardThere
  have merged_units : merged.1 = [[1, 2, 3, 4, 5, 6, 7]] := by decide
  obtain ⟨k, rfl, unit⟩ := List.map_eq_singleton_iff.1 (units.symm.trans merged_units)
  have second : k = 2 := Decidable.byContradiction fun other => by
    rw [show threeParts.sdu k = [8] from if_neg other] at unit
    cases unit
  refine ⟨by decide, merged_units, fun later sent sn known => nothing later sent sn ?_⟩
  rcases known with rfl | rfl | rfl
  · exact Or.inl (by decide)
  · exact Or.inr (Or.inl (by decide))
  · exact Or.inr (Or.inr (List.mem_singleton.2 second.symm))

/-! ## Units that are too long -/

/-- A unit that is longer than a word can say, under every number, cut as the default configuration has it. It is only
reasoned about, never built. -/
noncomputable def longUnits : UnitFamily where
  buffer := fun _ => .new ⟨⟨2⟩, .first⟩ .unacknowledged .direct 4333975 LinkSettings.default.maxPduSize
  sdu := fun _ => List.replicate 4294968237 0
  segmented := fun _ => by decide
  room := fun _ => by decide

theorem count_longUnits : longUnits.count 0 = 4333975 := by
  rw [UnitFamily.count, TransmitBuffer.pduCount_of_segmented (longUnits.segmented 0), longUnits, List.length_replicate]
  decide

theorem header_longUnits (index : Nat) :
    longUnits.header 0 index =
      ⟨⟨index = 0, index + 1 = 4333975, false⟩, 0, UInt32.ofNat (index * (longUnits.buffer 0).dataSize)⟩ := by
  have count := count_longUnits
  rw [UnitFamily.count] at count
  have unacknowledged : ((longUnits.buffer 0).mode == .acknowledged) = false := rfl
  rw [UnitFamily.header, TransmitBuffer.segmentHeader, UnitFamily.unit]
  simp only [count, unacknowledged, Bool.and_false]

theorem stretch_longUnits (index : Nat) :
    longUnits.stretch 0 index = List.replicate (min 991 (4294968237 - index * 991)) 0 := by
  rw [UnitFamily.stretch, TransmitBuffer.stretch, UnitFamily.unit, longUnits, List.drop_replicate, List.take_replicate]
  rfl

/-- The first segment of the unit. -/
def longFirst : Bytes := SegmentHeader.encode ⟨⟨true, false, false⟩, 0, 0⟩ (List.replicate 991 0)

/-- The last segment of the unit. The place where it begins does not fit into a word, so that it names one in the first
segment. -/
def longLast : Bytes := SegmentHeader.encode ⟨⟨false, true, false⟩, 0, 938⟩ [0, 0, 0]

theorem sends_longUnits : longUnits.Sends longFirst ∧ longUnits.Sends longLast := by
  have first : longUnits.segment 0 0 = longFirst :=
    congrArg₂ SegmentHeader.encode (header_longUnits 0) (stretch_longUnits 0)
  have last : longUnits.segment 0 4333974 = longLast :=
    congrArg₂ SegmentHeader.encode (header_longUnits 4333974) (stretch_longUnits 4333974)
  have count := count_longUnits
  exact ⟨⟨0, by decide, UnitFamily.mem_pdus_iff.2 ⟨0, by omega, first.symm⟩⟩,
    ⟨0, by decide, UnitFamily.mem_pdus_iff.2 ⟨4333974, by omega, last.symm⟩⟩⟩

/-- One receiver has the first segment of the unit and the other the last. They are put together, and what is handed out
is no unit of the family. -/
theorem merged_short_of_unit :
    let a := (new ⟨⟨1⟩, .first⟩ .infrastructure 16).nextAll [longFirst]
    let b := (new ⟨⟨1⟩, .first⟩ .direct 16).nextAll [longLast]
    longUnits.Sends longFirst ∧ longUnits.Sends longLast ∧
      (a.reconcile (b.handOver false)).1 = [List.replicate 991 0] ∧
      ¬ ∃ numbers : List UInt32, (a.reconcile (b.handOver false)).1 = numbers.map longUnits.sdu := by
  intro a b
  have merged : (a.reconcile (b.handOver false)).1 = [List.replicate 991 0] := by decide +kernel
  refine ⟨sends_longUnits.1, sends_longUnits.2, merged, ?_⟩
  rintro ⟨numbers, units⟩
  obtain ⟨sn, -, unit⟩ := List.map_eq_singleton_iff.1 (units.symm.trans merged)
  have length := congrArg List.length unit
  rw [longUnits, List.length_replicate, List.length_replicate] at length
  omega

end Receiver
end Sidelink
