import Sidelink.Link.Reassembly
import Sidelink.Proofs.Maps

/-!
What a receiver promises about sequence numbers. A number is done with (`ReceiveState.Done`) when it lies below the
lower edge or its unit was handed out; between data units every state is settled (`ReceiveState.Settled`), so that a
replacement that takes a state over finds nothing to hand out (`ReceiveState.reconcile_new`).

Numbers stay done with as long as the edge does not move back. It moves back at one place only: at the largest
number, which counts as beyond every window that reaches it (`Receiver.Retreats`).
-/
namespace Sidelink

/-! ## The lower edge -/

namespace ReceiveState

theorem le_climb (edge : Nat) (l : List Nat) : edge ≤ climb edge l := by
  induction l generalizing edge with
  | nil => exact Nat.le_refl edge
  | cons sn rest ih =>
    simp only [climb]
    split
    · exact ih edge
    · split
      · exact Nat.le_of_succ_le (ih (edge + 1))
      · exact Nat.le_refl edge

theorem climb_le_last {edge : Nat} (l : List Nat) (inRange : edge ≤ lastWord) : climb edge l ≤ lastWord := by
  induction l generalizing edge with
  | nil => exact inRange
  | cons sn rest ih =>
    simp only [climb]
    split
    · exact ih inRange
    · split
      · rename_i below
        simp only [Bool.and_eq_true, decide_eq_true_eq] at below
        exact ih below.2
      · exact inRange

/-- The edge passes only numbers that are in the list. -/
theorem mem_of_lt_climb {edge n : Nat} {l : List Nat} (above : edge ≤ n) (passed : n < climb edge l) : n ∈ l := by
  induction l generalizing edge with
  | nil => exact absurd passed (Nat.not_lt.2 above)
  | cons sn rest ih =>
    simp only [climb] at passed
    split at passed
    · exact List.mem_cons_of_mem _ (ih above passed)
    · split at passed
      · rename_i here
        simp only [Bool.and_eq_true, decide_eq_true_eq] at here
        by_cases same : n = edge
        · rw [same, ← here.1]
          exact List.mem_cons_self
        · exact List.mem_cons_of_mem _ (ih (by omega) passed)
      · exact absurd passed (Nat.not_lt.2 above)

/-- Where the edge stops there is a gap, or the largest number. -/
theorem climb_eq_last_of_mem {edge : Nat} {l : List Nat} (increasing : l.Pairwise (· < ·)) (inRange : edge ≤ lastWord)
    (member : climb edge l ∈ l) : climb edge l = lastWord := by
  induction l generalizing edge with
  | nil => simp at member
  | cons sn rest ih =>
    obtain ⟨below, rest_increasing⟩ := List.pairwise_cons.1 increasing
    simp only [climb] at member ⊢
    split at member
    · rename_i behind
      rw [if_pos behind]
      have past := le_climb edge rest
      rcases List.mem_cons.1 member with same | later
      · omega
      · exact ih rest_increasing inRange later
    · rename_i notBehind
      rw [if_neg notBehind]
      split at member
      · rename_i here
        rw [if_pos here]
        simp only [Bool.and_eq_true, decide_eq_true_eq] at here
        have past := le_climb (edge + 1) rest
        rcases List.mem_cons.1 member with same | later
        · omega
        · exact ih rest_increasing here.2 later
      · rename_i stop
        rw [if_neg stop]
        simp only [Bool.and_eq_true, decide_eq_true_eq, not_and] at stop
        rcases List.mem_cons.1 member with same | later
        · have := stop same.symm
          omega
        · exact absurd (below _ later) notBehind

theorem climb_eq_self {edge : Nat} {l : List Nat} (gap : edge ∈ l → edge = lastWord) : climb edge l = edge := by
  by_cases moved : edge < climb edge l
  · have full := gap (mem_of_lt_climb (Nat.le_refl edge) moved)
    have bound := climb_le_last l (Nat.le_of_eq full)
    omega
  · exact Nat.le_antisymm (Nat.not_lt.1 moved) (le_climb edge l)

theorem increasing_keys (s : ReceiveState) : s.delivered.keys.Pairwise (· < ·) := s.delivered.sorted_keys

/-! ## Numbers done with -/

/-- Whether nothing more is taken of a number. -/
def Done (s : ReceiveState) (sn : Nat) : Prop := sn < s.edge ∨ s.delivered.contains sn = true

instance (s : ReceiveState) (sn : Nat) : Decidable (s.Done sn) := inferInstanceAs (Decidable (_ ∨ _))

/-- A state whose edge may still have to pass numbers that were handed out. -/
structure Pausing (s : ReceiveState) : Prop where
  edge_le : s.edge ≤ lastWord
  bounded : ∀ sn, s.delivered.contains sn = true → sn ≤ lastWord
  waiting : ∀ sn p, s.pending.get? sn = some p → ¬ s.Done sn ∧ p.isComplete = false

/-- A state as it is between data units: only numbers from the edge on are listed, the unit of the edge itself was
not handed out, unless there is no larger number, and every unit that waits lacks a segment. -/
structure Settled (s : ReceiveState) : Prop extends Pausing s where
  above : ∀ sn, s.delivered.contains sn = true → s.edge ≤ sn
  gap : s.delivered.contains s.edge = true → s.edge = lastWord

theorem settled_new : new.Settled where
  edge_le := Nat.zero_le _
  bounded := fun sn given => by simp [new] at given
  waiting := fun sn p found => by simp [new] at found
  above := fun sn given => by simp [new] at given
  gap := fun given => by simp [new] at given

theorem contains_advance (s : ReceiveState) (sn : Nat) :
    s.advance.delivered.contains sn = true ↔ s.delivered.contains sn = true ∧ s.advance.edge ≤ sn := by
  simp [advance, SortedMap.contains_filter_keys]

/-- Moving the edge over what was handed out makes no number done with, and none undone. -/
theorem done_advance (s : ReceiveState) (sn : Nat) : s.advance.Done sn ↔ s.Done sn := by
  simp only [Done, contains_advance]
  constructor
  · rintro (passed | ⟨given, _⟩)
    · by_cases below : sn < s.edge
      · exact Or.inl below
      · exact Or.inr ((SortedMap.mem_keys_iff _ _).1 (mem_of_lt_climb (Nat.not_lt.1 below) passed))
    · exact Or.inr given
  · rintro (below | given)
    · exact Or.inl (Nat.lt_of_lt_of_le below (le_climb _ _))
    · by_cases passed : sn < s.advance.edge
      · exact Or.inl passed
      · exact Or.inr ⟨given, Nat.not_lt.1 passed⟩

theorem settled_advance {s : ReceiveState} (pausing : s.Pausing) : s.advance.Settled where
  edge_le := climb_le_last _ pausing.edge_le
  bounded := fun sn given => pausing.bounded sn ((contains_advance s sn).1 given).1
  waiting := fun sn p found => by
    rw [done_advance]
    exact pausing.waiting sn p found
  above := fun sn given => ((contains_advance s sn).1 given).2
  gap := fun given => by
    have member := ((contains_advance s _).1 given).1
    exact climb_eq_last_of_mem s.increasing_keys pausing.edge_le ((SortedMap.mem_keys_iff _ _).2 member)

theorem advance_eq_self {s : ReceiveState} (settled : s.Settled) : s.advance = s := by
  have edge : climb s.edge s.delivered.keys = s.edge :=
    climb_eq_self fun member => settled.gap ((SortedMap.mem_keys_iff _ _).1 member)
  have delivered : s.delivered.filter (fun sn _ => decide (s.edge ≤ sn)) = s.delivered := by
    apply SortedMap.ext_get?
    intro sn
    rw [SortedMap.get?_filter]
    cases found : s.delivered.get? sn with
    | none => rfl
    | some u =>
      have above := settled.above sn ((SortedMap.contains_eq_true_iff _ _).2 ⟨u, found⟩)
      simp [Option.filter, above]
  simp only [advance, edge, delivered]

/-! ## Segments -/

/-- The state before a segment is looked at. -/
def received (s : ReceiveState) : ReceiveState :=
  { s with counters := { s.counters with received := s.counters.received + 1 } }

/-- The state in which a segment of a number is stored: a number beyond the window moves the edge first. -/
def makeRoom (s : ReceiveState) (window sn : Nat) : ReceiveState :=
  if min (s.edge + window) lastWord ≤ sn then s.received.slide (sn - (window - 1)) else s.received

/-- The unit of a segment with the segment added, if there is none at its offset. -/
def grown? (s : ReceiveState) (window : Nat) (header : SegmentHeader) (data : Bytes) : Option Partial :=
  (((s.makeRoom window header.sn.toNat).pending.get? header.sn.toNat).getD .empty).insert? header.offset.toNat data
    header.flags.last

/-- The state with a segment stored. -/
def store (s : ReceiveState) (window sn : Nat) (p : Partial) : ReceiveState :=
  { s.makeRoom window sn with pending := (s.makeRoom window sn).pending.insert sn p }

/-- The state after the unit of a number was handed out. -/
def handedOut (s : ReceiveState) (sn : Nat) : ReceiveState :=
  advance
    { s with
      pending := s.pending.erase sn
      delivered := s.delivered.add sn
      counters := { s.counters with delivered := s.counters.delivered + 1 } }

/-- Everything that can become of a segment. -/
inductive Taken (s : ReceiveState) (window : Nat) (header : SegmentHeader) (data : Bytes) :
    Option Bytes × ReceiveState → Prop
  /-- Its number is done with. -/
  | late (done : s.Done header.sn.toNat) : Taken s window header data (none, s.received.drop)
  /-- There is a segment at its offset. -/
  | again (fresh : ¬ s.Done header.sn.toNat) (known : s.grown? window header data = none) :
      Taken s window header data (none, (s.makeRoom window header.sn.toNat).drop)
  | stored (p : Partial) (fresh : ¬ s.Done header.sn.toNat) (grown : s.grown? window header data = some p)
      (lacking : p.isComplete = false) : Taken s window header data (none, s.store window header.sn.toNat p)
  | completed (p : Partial) (fresh : ¬ s.Done header.sn.toNat) (grown : s.grown? window header data = some p)
      (whole : p.isComplete = true) :
      Taken s window header data
        (some p.assemble, (s.store window header.sn.toNat p).handedOut header.sn.toNat)

/-- A segment of a number that is not done with is stored, if it is new. -/
theorem accept_of_fresh {s : ReceiveState} {header : SegmentHeader} (fresh : ¬ s.Done header.sn.toNat) (window : Nat)
    (data : Bytes) :
    s.accept window header data =
      match s.grown? window header data with
      | none => (none, (s.makeRoom window header.sn.toNat).drop)
      | some p =>
        if p.isComplete then
          match (s.store window header.sn.toNat p).complete header.sn.toNat with
          | some (sdu, s) => (some sdu, s)
          | none => (none, s.store window header.sn.toNat p)
        else (none, s.store window header.sn.toNat p) := by
  have notLate : ¬ (decide (header.sn.toNat < s.edge) || s.delivered.contains header.sn.toNat) = true := by
    simpa [Done] using fresh
  rw [accept, if_neg notLate]
  rfl

theorem taken_accept (s : ReceiveState) (window : Nat) (header : SegmentHeader) (data : Bytes) :
    Taken s window header data (s.accept window header data) := by
  by_cases done : s.Done header.sn.toNat
  · rw [accept, if_pos (by simpa [Done] using done)]
    exact .late done
  · rw [accept_of_fresh done]
    cases grown : s.grown? window header data with
    | none => exact .again done grown
    | some p =>
      cases whole : p.isComplete with
      | false =>
        simp only [whole, Bool.false_eq_true, if_false]
        exact .stored p done grown whole
      | true =>
        simp only [whole, if_true, complete, store, SortedMap.get?_insert_self, Option.map_some]
        exact .completed p done grown whole

/-! ## What a segment leaves of the state -/

/-- Whether taking in a segment of a number moves the edge back. Only the largest number can count as beyond a window
that it lies in. -/
def Retreats (s : ReceiveState) (window sn : Nat) : Prop :=
  sn = lastWord ∧ ¬ s.Done sn ∧ sn - (window - 1) < s.edge

instance (s : ReceiveState) (window sn : Nat) : Decidable (s.Retreats window sn) :=
  inferInstanceAs (Decidable (_ ∧ _ ∧ _))

variable {s : ReceiveState} {window sn : Nat}

theorem pausing_behind (settled : s.Settled) {edge : Nat} (inRange : edge ≤ lastWord) (c : ReceiveCounters) :
    Pausing ⟨edge, s.pending.filter (fun sn _ => edge ≤ sn), s.delivered, c⟩ where
  edge_le := inRange
  bounded := settled.bounded
  waiting := fun n p found => by
    obtain ⟨found, kept⟩ := (SortedMap.get?_filter_eq_some_iff _ _ _ _).1 found
    obtain ⟨fresh, lacking⟩ := settled.waiting n p found
    refine ⟨?_, lacking⟩
    rintro (below | given)
    · exact absurd below (Nat.not_lt.2 (of_decide_eq_true kept))
    · exact fresh (Or.inr given)

theorem settled_received (settled : s.Settled) : s.received.Settled :=
  ⟨⟨settled.edge_le, settled.bounded, settled.waiting⟩, settled.above, settled.gap⟩

theorem settled_drop (settled : s.Settled) : s.drop.Settled :=
  ⟨⟨settled.edge_le, settled.bounded, settled.waiting⟩, settled.above, settled.gap⟩

theorem settled_makeRoom (window : Nat) (settled : s.Settled) (inRange : sn ≤ lastWord) :
    (s.makeRoom window sn).Settled := by
  rw [makeRoom]
  split
  · exact settled_advance (pausing_behind settled (by omega) _)
  · exact settled_received settled

/-- Making room for a number gives up units, and adds none. -/
theorem pending_makeRoom {n : Nat} {p : Partial} (found : (s.makeRoom window sn).pending.get? n = some p) :
    s.pending.get? n = some p := by
  rw [makeRoom] at found
  split at found
  · exact ((SortedMap.get?_filter_eq_some_iff _ _ _ _).1 found).1
  · exact found

/-- Making room for a number leaves what waits from the place on that it moves the edge to. -/
theorem pending_makeRoom_of_le (s : ReceiveState) {window sn n : Nat} (above : sn - (window - 1) ≤ n) :
    (s.makeRoom window sn).pending.get? n = s.pending.get? n := by
  rw [makeRoom]
  split
  · change (s.pending.filter (fun k _ => decide (sn - (window - 1) ≤ k))).get? n = s.pending.get? n
    rw [SortedMap.get?_filter]
    cases s.pending.get? n with
    | none => rfl
    | some p => simp [Option.filter, above]
  · rfl

/-- Making room for a number does not concern the number or any after it. -/
theorem makeRoom_of_le (s : ReceiveState) (window : Nat) {sn n : Nat} (above : sn ≤ n) :
    (¬ s.Done n → ¬ (s.makeRoom window sn).Done n) ∧
      (s.makeRoom window sn).pending.get? n = s.pending.get? n := by
  refine ⟨fun fresh => ?_, pending_makeRoom_of_le s (by omega)⟩
  rw [makeRoom]
  split
  · rw [slide, done_advance]
    rintro (below | given)
    · change n < sn - (window - 1) at below
      omega
    · exact fresh (Or.inr given)
  · exact fresh

/-- No number in the window of a new receiver moves the edge to make room. -/
theorem makeRoom_of_inWindow (s : ReceiveState) (inWindow : sn < window) (inRange : window ≤ lastWord) :
    s.makeRoom window sn = s.received := by
  rw [makeRoom, if_neg]
  omega

theorem fresh_makeRoom (fresh : ¬ s.Done sn) : ¬ (s.makeRoom window sn).Done sn :=
  (makeRoom_of_le s window (Nat.le_refl sn)).1 fresh

theorem settled_store {p : Partial} (settled : s.Settled) (inRange : sn ≤ lastWord) (fresh : ¬ s.Done sn)
    (lacking : p.isComplete = false) : (s.store window sn p).Settled := by
  have room := settled_makeRoom window settled inRange
  refine ⟨⟨room.edge_le, room.bounded, ?_⟩, room.above, room.gap⟩
  intro n q found
  by_cases same : n = sn
  · subst same
    rw [store, SortedMap.get?_insert_self] at found
    obtain rfl := Option.some.inj found
    exact ⟨fresh_makeRoom fresh, lacking⟩
  · rw [store, SortedMap.get?_insert_of_ne _ same] at found
    exact room.waiting n q found

theorem settled_handedOut (p : Partial) (settled : s.Settled) (inRange : sn ≤ lastWord) :
    ((s.store window sn p).handedOut sn).Settled := by
  have room := settled_makeRoom window settled inRange
  refine settled_advance ⟨room.edge_le, ?_, ?_⟩
  · intro n given
    rcases (SortedMap.contains_add _ _ _).1 given with rfl | given
    · exact inRange
    · exact room.bounded n given
  · intro n q found
    by_cases same : n = sn
    · rw [same] at found
      simp only [SortedMap.get?_erase_self] at found
      cases found
    · rw [SortedMap.get?_erase_of_ne _ same, store, SortedMap.get?_insert_of_ne _ same] at found
      obtain ⟨fresh, lacking⟩ := room.waiting n q found
      refine ⟨?_, lacking⟩
      rintro (below | given)
      · exact fresh (Or.inl below)
      · rcases (SortedMap.contains_add _ _ _).1 given with same' | given
        · exact same same'
        · exact fresh (Or.inr given)

/-- A state stays settled, whatever segment it takes in. -/
theorem settled_accept (settled : s.Settled) (window : Nat) (header : SegmentHeader) (data : Bytes) :
    (s.accept window header data).2.Settled := by
  have inRange : header.sn.toNat ≤ lastWord := Nat.le_of_lt_succ header.sn.toNat_lt
  have taken := taken_accept s window header data
  generalize s.accept window header data = answer at taken
  cases taken with
  | late done => exact settled_drop (settled_received settled)
  | again fresh known => exact settled_drop (settled_makeRoom window settled inRange)
  | stored p fresh grown lacking => exact settled_store settled inRange fresh lacking
  | completed p fresh grown whole => exact settled_handedOut p settled inRange

/-! ## Moving the edge -/

theorem edge_le_makeRoom (positive : 0 < window) (inRange : sn ≤ lastWord) (fresh : ¬ s.Done sn)
    (steady : ¬ s.Retreats window sn) : s.edge ≤ (s.makeRoom window sn).edge := by
  rw [makeRoom]
  split
  · rename_i beyond
    have notBehind : ¬ (sn = lastWord ∧ sn - (window - 1) < s.edge) := fun h => steady ⟨h.1, fresh, h.2⟩
    have target : s.edge ≤ sn - (window - 1) := by omega
    exact Nat.le_trans target (le_climb _ _)
  · exact Nat.le_refl _

theorem done_makeRoom (positive : 0 < window) (inRange : sn ≤ lastWord) (fresh : ¬ s.Done sn)
    (steady : ¬ s.Retreats window sn) {n : Nat} (done : s.Done n) : (s.makeRoom window sn).Done n := by
  rw [makeRoom]
  split
  · rename_i beyond
    have notBehind : ¬ (sn = lastWord ∧ sn - (window - 1) < s.edge) := fun h => steady ⟨h.1, fresh, h.2⟩
    have target : s.edge ≤ sn - (window - 1) := by omega
    rw [slide, done_advance]
    exact done.imp_left fun below => Nat.lt_of_lt_of_le below target
  · exact done

theorem makeRoom_edge_of_retreats (settled : s.Settled) (retreats : s.Retreats window sn) :
    (s.makeRoom window sn).edge = sn - (window - 1) := by
  obtain ⟨top, fresh, behind⟩ := retreats
  rw [makeRoom, if_pos (by omega)]
  refine climb_eq_self fun member => ?_
  have above := settled.above _ ((SortedMap.mem_keys_iff _ _).1 member)
  change s.edge ≤ sn - (window - 1) at above
  omega

theorem done_handedOut (s : ReceiveState) (sn n : Nat) : (s.handedOut sn).Done n ↔ n = sn ∨ s.Done n := by
  rw [handedOut, done_advance]
  simp only [Done, SortedMap.contains_add]
  grind

/-- A segment that does not move the edge back leaves everything done with that was. -/
theorem done_accept (positive : 0 < window) {header : SegmentHeader} (data : Bytes)
    (steady : ¬ s.Retreats window header.sn.toNat) {n : Nat} (done : s.Done n) :
    (s.accept window header data).2.Done n := by
  have inRange : header.sn.toNat ≤ lastWord := Nat.le_of_lt_succ header.sn.toNat_lt
  have taken := taken_accept s window header data
  generalize s.accept window header data = answer at taken
  cases taken with
  | late late => exact done
  | again fresh known => exact done_makeRoom positive inRange fresh steady done
  | stored p fresh grown lacking => exact done_makeRoom positive inRange fresh steady done
  | completed p fresh grown whole =>
    exact (done_handedOut _ _ _).2 (Or.inr (done_makeRoom positive inRange fresh steady done))

/-- A number whose unit is handed out was not done with before, and is from then on. -/
theorem done_of_returned {header : SegmentHeader} {data sdu : Bytes}
    (returned : (s.accept window header data).1 = some sdu) :
    ¬ s.Done header.sn.toNat ∧ (s.accept window header data).2.Done header.sn.toNat := by
  have taken := taken_accept s window header data
  generalize s.accept window header data = answer at taken returned
  cases taken with
  | late late => cases returned
  | again fresh known => cases returned
  | stored p fresh grown lacking => cases returned
  | completed p fresh grown whole => exact ⟨fresh, (done_handedOut _ _ _).2 (Or.inl rfl)⟩

/-- The edge moves back exactly at the segments that `Retreats` describes. -/
theorem edge_le_accept_iff (settled : s.Settled) (positive : 0 < window) (header : SegmentHeader) (data : Bytes) :
    s.edge ≤ (s.accept window header data).2.edge ↔ ¬ s.Retreats window header.sn.toNat := by
  have inRange : header.sn.toNat ≤ lastWord := Nat.le_of_lt_succ header.sn.toNat_lt
  have taken := taken_accept s window header data
  generalize s.accept window header data = answer at taken
  constructor
  · intro onward retreats
    have back := makeRoom_edge_of_retreats settled retreats
    obtain ⟨top, fresh, behind⟩ := retreats
    cases taken with
    | late done => exact fresh done
    | again fresh known =>
      have : s.edge ≤ (s.makeRoom window header.sn.toNat).edge := onward
      omega
    | stored p fresh grown lacking =>
      have : s.edge ≤ (s.makeRoom window header.sn.toNat).edge := onward
      omega
    | completed p fresh grown whole =>
      -- The edge does not climb from where it moved back to: its number was neither handed out nor is it the largest.
      have stays : ((s.store window header.sn.toNat p).handedOut header.sn.toNat).edge =
          (s.makeRoom window header.sn.toNat).edge := by
        refine climb_eq_self fun member => ?_
        rcases (SortedMap.contains_add _ _ _).1 ((SortedMap.mem_keys_iff _ _).1 member) with same | given
        · exact Eq.trans same top
        · exact (settled_makeRoom window settled inRange).gap given
      have : s.edge ≤ (s.makeRoom window header.sn.toNat).edge := stays ▸ onward
      omega
  · intro steady
    cases taken with
    | late done => exact Nat.le_refl _
    | again fresh known => exact edge_le_makeRoom positive inRange fresh steady
    | stored p fresh grown lacking => exact edge_le_makeRoom positive inRange fresh steady
    | completed p fresh grown whole =>
      exact Nat.le_trans (edge_le_makeRoom positive inRange fresh steady) (le_climb _ _)

/-! ## Replacement -/

theorem settled_clear (settled : s.Settled) : s.clear.Settled where
  edge_le := settled.edge_le
  bounded := settled.bounded
  waiting := fun sn p found => by simp [clear] at found
  above := settled.above
  gap := settled.gap

theorem merge_empty (p : Partial) : Partial.empty.merge p = p := by
  have segments : p.segments.entries.foldl (fun m e => if m.contains e.1 then m else m.insert e.1 e.2)
      (SortedMap.empty : SortedMap Nat Bytes) = p.segments := by
    rw [SortedMap.foldl_eq_insertAll p.segments.sorted, SortedMap.insertAll_entries]
    · intro e _
      exact SortedMap.contains_empty _
    · intro e _ m missing
      simp only [missing, Bool.false_eq_true, if_false]
  simp only [Partial.merge, Partial.empty, segments, Option.none_or]

theorem absorb_pending (settled : s.Settled) (c : ReceiveCounters) :
    absorb ⟨s.edge, .empty, s.delivered, c⟩ s.pending.entries = ⟨s.edge, s.pending, s.delivered, c⟩ := by
  simp only [absorb, ReceiveState.mk.injEq, true_and, and_true]
  rw [SortedMap.foldl_eq_insertAll s.pending.sorted, SortedMap.insertAll_entries]
  · intro e _
    exact SortedMap.contains_empty _
  · intro e member m missing
    have fresh := (settled.waiting e.1 e.2 ((SortedMap.get?_eq_some_iff _ _ _).2 member)).1
    have none_yet := (SortedMap.contains_eq_false_iff _ _).1 missing
    have open_yet : (decide (e.1 < s.edge) || s.delivered.contains e.1) = false := by
      simpa [Done] using fresh
    simp only [open_yet, Bool.false_eq_true, if_false, none_yet, Option.getD_none, merge_empty]

/-- A new receiver that takes over a settled state has that state, and nothing to hand out. -/
theorem reconcile_new (settled : s.Settled) : new.reconcile s = ([], s) := by
  have counters : ReceiveCounters.add new.counters s.counters = s.counters := by
    simp [ReceiveCounters.add, new]
  have delivered : s.delivered.keys.foldl SortedMap.add new.delivered = s.delivered := SortedMap.foldl_add_keys _
  have lacking : (s.pending.filter (fun _ p => p.isComplete)).keys = [] := by
    rw [List.eq_nil_iff_forall_not_mem]
    intro sn member
    obtain ⟨p, found⟩ := (SortedMap.contains_eq_true_iff _ _).1 ((SortedMap.mem_keys_iff _ _).1 member)
    obtain ⟨found, whole⟩ := (SortedMap.get?_filter_eq_some_iff _ _ _ _).1 found
    have := (settled.waiting sn p found).2
    rw [this] at whole
    cases whole
  have edge : max new.edge s.edge = s.edge := Nat.zero_max _
  have taken : (absorb ⟨s.edge, new.pending, s.delivered, s.counters⟩ s.pending.entries).advance = s :=
    (congrArg advance (absorb_pending settled _)).trans (advance_eq_self settled)
  simp only [reconcile, counters, delivered, edge, taken, lacking]
  rfl

end ReceiveState

/-! ## Receivers -/

namespace Receiver

theorem receive_eq_ok_iff {r : Receiver} {pdu : Bytes} {answer : Option Bytes × Receiver} :
    r.receive pdu = .ok answer ↔
      ∃ header data, SegmentHeader.parse pdu = .ok (header, data) ∧ header.offset.toNat + data.length ≤ lastWord ∧
        answer = ((r.state.accept r.window header data).1,
          { r with state := (r.state.accept r.window header data).2 }) := by
  cases parsed : SegmentHeader.parse pdu with
  | error cause => simp [receive, parsed, bind, Except.bind]
  | ok fields =>
    obtain ⟨header, data⟩ := fields
    simp only [receive, parsed, bind, Except.bind, Except.ok.injEq, Prod.mk.injEq]
    by_cases inRange : header.offset.toNat + data.length ≤ lastWord
    · rw [if_neg (Nat.not_lt.2 inRange)]
      simp only [pure, Except.pure, Except.ok.injEq]
      constructor
      · rintro rfl
        exact ⟨header, data, ⟨rfl, rfl⟩, inRange, rfl⟩
      · rintro ⟨h, d, ⟨rfl, rfl⟩, -, rfl⟩
        rfl
    · rw [if_pos (Nat.not_le.1 inRange)]
      simp only [throw, throwThe, MonadExceptOf.throw, reduceCtorEq, false_iff, not_exists]
      rintro h d ⟨⟨rfl, rfl⟩, within, -⟩
      exact inRange within

/-- The receiver after a data unit. -/
def next (r : Receiver) (pdu : Bytes) : Receiver :=
  match r.receive pdu with
  | .ok (_, r) => r
  | .error _ => r

/-- What a receiver answers to data units, one after the other. -/
def answers (r : Receiver) : List Bytes → List (Except MalformedPdu (Option Bytes))
  | [] => []
  | pdu :: rest => (r.receive pdu).map (·.1) :: (r.next pdu).answers rest

/-- The receiver after some data units. -/
def nextAll (r : Receiver) (pdus : List Bytes) : Receiver := pdus.foldl next r

/-- The sequence number of the unit that a data unit makes a receiver hand out. -/
def returned? (r : Receiver) (pdu : Bytes) : Option UInt32 :=
  match SegmentHeader.parse pdu, r.receive pdu with
  | .ok (header, _), .ok (some _, _) => some header.sn
  | _, _ => none

/-- The lower edge before, between and after some data units. -/
def edges (r : Receiver) : List Bytes → List Nat
  | [] => [r.state.edge]
  | pdu :: rest => r.state.edge :: (r.next pdu).edges rest

/-- The sequence numbers of the units that some data units make a receiver hand out, in order. -/
def numbers (r : Receiver) : List Bytes → List UInt32
  | [] => []
  | pdu :: rest => (r.returned? pdu).toList ++ (r.next pdu).numbers rest

/-- Whether a data unit moves the lower edge back. -/
def Retreats (r : Receiver) (pdu : Bytes) : Prop :=
  ∃ header data, SegmentHeader.parse pdu = .ok (header, data) ∧ header.offset.toNat + data.length ≤ lastWord ∧
    r.state.Retreats r.window header.sn.toNat

/-- Whether none of some data units moves the lower edge back. -/
def Steady (r : Receiver) : List Bytes → Prop
  | [] => True
  | pdu :: rest => ¬ r.Retreats pdu ∧ (r.next pdu).Steady rest

variable {r : Receiver}

theorem next_window (r : Receiver) (pdu : Bytes) : (r.next pdu).window = r.window := by
  rw [next]
  split
  · rename_i sdu after received
    obtain ⟨header, data, -, -, same⟩ := receive_eq_ok_iff.1 received
    rw [(Prod.mk.inj same).2]
  · rfl

/-- A data unit is either not taken in at all, or its segment is. -/
theorem next_state (r : Receiver) (pdu : Bytes) :
    r.next pdu = r ∧ r.returned? pdu = none ∧ ¬ r.Retreats pdu ∨
      ∃ header data, SegmentHeader.parse pdu = .ok (header, data) ∧ header.offset.toNat + data.length ≤ lastWord ∧
        (r.next pdu).state = (r.state.accept r.window header data).2 ∧
        r.returned? pdu = (r.state.accept r.window header data).1.map fun _ => header.sn := by
  cases received : r.receive pdu with
  | error cause =>
    refine Or.inl ⟨by rw [next, received], by rw [returned?, received]; split <;> simp_all, ?_⟩
    rintro ⟨header, data, parsed, inRange, -⟩
    have := (receive_eq_ok_iff (r := r)).2 ⟨header, data, parsed, inRange, rfl⟩
    rw [received] at this
    cases this
  | ok answer =>
    obtain ⟨header, data, parsed, inRange, rfl⟩ := receive_eq_ok_iff.1 received
    refine Or.inr ⟨header, data, parsed, inRange, by rw [next, received], ?_⟩
    rw [returned?, parsed, received]
    cases (r.state.accept r.window header data).1 <;> rfl

theorem settled_next (settled : r.state.Settled) (pdu : Bytes) : (r.next pdu).state.Settled := by
  rcases r.next_state pdu with ⟨same, -, -⟩ | ⟨header, data, -, -, state, -⟩
  · rw [same]
    exact settled
  · rw [state]
    exact ReceiveState.settled_accept settled _ _ _

/-- The edge moves back exactly at the data units that `Retreats` describes. -/
theorem edge_le_next_iff (settled : r.state.Settled) (positive : 0 < r.window) (pdu : Bytes) :
    r.state.edge ≤ (r.next pdu).state.edge ↔ ¬ r.Retreats pdu := by
  rcases r.next_state pdu with ⟨same, -, steady⟩ | ⟨header, data, parsed, inRange, state, -⟩
  · rw [same]
    exact ⟨fun _ => steady, fun _ => Nat.le_refl _⟩
  · rw [state, ReceiveState.edge_le_accept_iff settled positive]
    refine not_congr ⟨fun retreats => ⟨header, data, parsed, inRange, retreats⟩, ?_⟩
    rintro ⟨h, d, parsed', -, retreats⟩
    rw [parsed] at parsed'
    cases parsed'
    exact retreats

theorem done_next (positive : 0 < r.window) {pdu : Bytes} (steady : ¬ r.Retreats pdu) {n : Nat}
    (done : r.state.Done n) : (r.next pdu).state.Done n := by
  rcases r.next_state pdu with ⟨same, -, -⟩ | ⟨header, data, parsed, inRange, state, -⟩
  · rw [same]
    exact done
  · rw [state]
    exact ReceiveState.done_accept positive data (fun retreats => steady ⟨header, data, parsed, inRange, retreats⟩) done

theorem done_of_returned? {pdu : Bytes} {sn : UInt32} (returned : r.returned? pdu = some sn) :
    ¬ r.state.Done sn.toNat ∧ (r.next pdu).state.Done sn.toNat := by
  rcases r.next_state pdu with ⟨-, nothing, -⟩ | ⟨header, data, -, -, state, returns⟩
  · rw [nothing] at returned
    cases returned
  · rw [returned] at returns
    obtain ⟨sdu, handed, rfl⟩ := Option.map_eq_some_iff.1 returns.symm
    rw [state]
    exact ReceiveState.done_of_returned handed

/-! ## Runs -/

/-- No unit is handed out whose number was done with, and none twice, as long as the edge does not move back. -/
theorem numbers_of_steady {pdus : List Bytes} (positive : 0 < r.window) (steady : r.Steady pdus) :
    (∀ sn ∈ r.numbers pdus, ¬ r.state.Done sn.toNat) ∧ (r.numbers pdus).Nodup := by
  induction pdus generalizing r with
  | nil => exact ⟨fun sn member => (by cases member), List.nodup_nil⟩
  | cons pdu rest ih =>
    obtain ⟨still, after⟩ := steady
    obtain ⟨fresh, once⟩ := ih (r := r.next pdu) (by rwa [next_window]) after
    have later : ∀ sn ∈ (r.next pdu).numbers rest, ¬ r.state.Done sn.toNat :=
      fun sn member done => fresh sn member (done_next positive still done)
    rw [numbers]
    cases returned : r.returned? pdu with
    | none => exact ⟨later, once⟩
    | some sn =>
      obtain ⟨before, done⟩ := done_of_returned? returned
      simp only [Option.toList_some, List.singleton_append, List.mem_cons, List.nodup_cons]
      refine ⟨?_, fun again => fresh sn again done, once⟩
      rintro n (rfl | member)
      · exact before
      · exact later n member

theorem edges_sorted_iff (settled : r.state.Settled) (positive : 0 < r.window) (pdus : List Bytes) :
    (r.edges pdus).Pairwise (· ≤ ·) ↔ r.Steady pdus := by
  have least (r : Receiver) (pdus : List Bytes) (sorted : (r.edges pdus).Pairwise (· ≤ ·)) :
      ∀ e ∈ r.edges pdus, r.state.edge ≤ e := by
    cases pdus with
    | nil => simp [edges]
    | cons pdu rest =>
      obtain ⟨below, -⟩ := List.pairwise_cons.1 sorted
      intro e member
      rcases List.mem_cons.1 member with rfl | later
      · exact Nat.le_refl _
      · exact below e later
  have head (r : Receiver) (pdus : List Bytes) : r.state.edge ∈ r.edges pdus := by
    cases pdus <;> exact List.mem_cons_self
  induction pdus generalizing r with
  | nil => simp [edges, Steady]
  | cons pdu rest ih =>
    have step : ((r.next pdu).edges rest).Pairwise (· ≤ ·) ↔ (r.next pdu).Steady rest :=
      ih (settled_next settled pdu) (by rwa [next_window])
    rw [edges, List.pairwise_cons, Steady, step, ← edge_le_next_iff settled positive]
    constructor
    · rintro ⟨below, after⟩
      exact ⟨below _ (head _ _), after⟩
    · rintro ⟨onward, after⟩
      exact ⟨fun e member => Nat.le_trans onward (least _ _ (step.2 after) e member), after⟩

/-- The lower edge of a new receiver never moves back and no number has its unit handed out twice, over any data
units at all, exactly if no data unit carries the largest number while that number is not done with and the edge is
already past the place that the number moves it to. -/
theorem onward_and_once_iff_steady (key : EntityKey) (path : Path) {window : Nat} (positive : 0 < window)
    (pdus : List Bytes) :
    ((new key path window).edges pdus).Pairwise (· ≤ ·) ∧ ((new key path window).numbers pdus).Nodup ↔
      (new key path window).Steady pdus := by
  have sorted := edges_sorted_iff (r := new key path window) ReceiveState.settled_new positive pdus
  constructor
  · rintro ⟨onward, -⟩
    exact sorted.1 onward
  · intro steady
    exact ⟨sorted.2 steady, (numbers_of_steady positive steady).2⟩

/-- Data units of one segment each, under five numbers at the end of their range. -/
def topUnits : List Bytes :=
  [4294967294, 4294967287, 4294967288, 4294967295, 4294967288].map fun sn =>
    SegmentHeader.encode ⟨⟨true, true, false⟩, sn, 0⟩ [0xaa]

theorem onward_and_once_at_start : 0 < 8 ∧
    (((new ⟨⟨1⟩, .first⟩ .direct 8).edges (topUnits.take 3)).Pairwise (· ≤ ·) ∧
      ((new ⟨⟨1⟩, .first⟩ .direct 8).numbers (topUnits.take 3)).Nodup ↔
        (new ⟨⟨1⟩, .first⟩ .direct 8).Steady (topUnits.take 3)) :=
  ⟨by decide, onward_and_once_iff_steady ⟨⟨1⟩, .first⟩ .direct (by decide) (topUnits.take 3)⟩

/-- The fourth data unit moves the edge back, and the fifth repeats a unit that was handed out before. -/
theorem back_and_twice_at_top :
    (new ⟨⟨1⟩, .first⟩ .direct 8).edges topUnits =
        [0, 4294967287, 4294967288, 4294967289, 4294967288, 4294967289] ∧
      (new ⟨⟨1⟩, .first⟩ .direct 8).numbers topUnits =
        [4294967294, 4294967287, 4294967288, 4294967295, 4294967288] := by
  decide

end Receiver
end Sidelink
