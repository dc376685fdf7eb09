import Mathlib.Data.List.Perm.Subperm
import Sidelink.Proofs.Slices

/-!
The window of a receiver is all that it remembers. Whatever data units it was given, the numbers of the units that wait
in it and of those that it handed out differ, and all of them lie in the window that begins at the lower edge
(`ReceiveState.Windowed`), so that it never remembers more numbers than the window has (`Receiver.remembers_window`).
This holds at the largest number, too, where the edge can move back: the window then ends at this number.
-/
namespace Sidelink

namespace ReceiveState
variable {s : ReceiveState} {window sn : Nat}

/-- Whether the unit of a number waits, or the number is listed as one whose unit was handed out. -/
def Remembers (s : ReceiveState) (n : Nat) : Prop := s.pending.contains n = true ∨ s.delivered.contains n = true

/-- A settled state that remembers numbers in its window only, and no unit without a segment. -/
structure Windowed (window : Nat) (s : ReceiveState) : Prop extends Settled s where
  inRange : ∀ n, s.Remembers n → n ≤ lastWord
  within : ∀ n, s.Remembers n → n < s.edge + window
  started : ∀ n p, s.pending.get? n = some p → p.segments.isEmpty = false

theorem windowed_new (window : Nat) : new.Windowed window where
  toSettled := settled_new
  inRange := fun n remembered => by rcases remembered with waits | given <;> contradiction
  within := fun n remembered => by rcases remembered with waits | given <;> contradiction
  started := fun n p found => by cases found

/-! ## What waits, and what is remembered, after a step -/

/-- Making room for a number lists no number that was not listed. -/
theorem delivered_makeRoom {n : Nat} (given : (s.makeRoom window sn).delivered.contains n = true) :
    s.delivered.contains n = true := by
  rw [makeRoom] at given
  split at given
  · exact ((contains_advance _ n).1 given).1
  · exact given

theorem remembers_of_makeRoom {n : Nat} (remembered : (s.makeRoom window sn).Remembers n) : s.Remembers n := by
  rcases remembered with waits | given
  · obtain ⟨p, found⟩ := (SortedMap.contains_eq_true_iff _ _).1 waits
    exact Or.inl ((SortedMap.contains_eq_true_iff _ _).2 ⟨p, pending_makeRoom found⟩)
  · exact Or.inr (delivered_makeRoom given)

theorem pending_of_store {p q : Partial} {n : Nat} (found : (s.store window sn p).pending.get? n = some q) :
    n = sn ∧ q = p ∨ n ≠ sn ∧ (s.makeRoom window sn).pending.get? n = some q := by
  by_cases same : n = sn
  · rw [same, store, SortedMap.get?_insert_self] at found
    exact Or.inl ⟨same, (Option.some.inj found).symm⟩
  · rw [store, SortedMap.get?_insert_of_ne _ same] at found
    exact Or.inr ⟨same, found⟩

theorem remembers_of_store {p : Partial} {n : Nat} (remembered : (s.store window sn p).Remembers n) :
    n = sn ∨ (s.makeRoom window sn).Remembers n := by
  rcases remembered with waits | given
  · exact ((SortedMap.contains_insert _ _ _ _).1 waits).imp_right Or.inl
  · exact Or.inr (Or.inr given)

theorem pending_handedOut (s : ReceiveState) (sn n : Nat) :
    (s.handedOut sn).pending.get? n = if n = sn then none else s.pending.get? n :=
  SortedMap.get?_erase s.pending sn n

theorem remembers_of_handedOut {n : Nat} (remembered : (s.handedOut sn).Remembers n) : n = sn ∨ s.Remembers n := by
  rcases remembered with waits | given
  · obtain ⟨p, found⟩ := (SortedMap.contains_eq_true_iff _ _).1 waits
    rw [pending_handedOut, Option.ite_none_left_eq_some] at found
    exact Or.inr (Or.inl ((SortedMap.contains_eq_true_iff _ _).2 ⟨p, found.2⟩))
  · exact ((SortedMap.contains_add _ _ _).1 ((contains_advance _ n).1 given).1).imp_right Or.inr

/-! ## Keeping to the window -/

/-- The window in which there is room for a number ends at the number, or after it. -/
theorem lt_window_makeRoom (positive : 0 < window) (inRange : sn ≤ lastWord) {n : Nat} (range : n ≤ lastWord)
    (before : n < s.edge + window ∨ n = sn) : n < (s.makeRoom window sn).edge + window := by
  rw [makeRoom]
  split
  · rename_i beyond
    have onward : sn - (window - 1) ≤ (s.received.slide (sn - (window - 1))).edge := le_climb _ _
    omega
  · rename_i inside
    show n < s.edge + window
    omega

theorem windowed_makeRoom (positive : 0 < window) (windowed : s.Windowed window) (inRange : sn ≤ lastWord) :
    (s.makeRoom window sn).Windowed window where
  toSettled := settled_makeRoom window windowed.toSettled inRange
  inRange := fun n remembered => windowed.inRange n (remembers_of_makeRoom remembered)
  within := fun n remembered => by
    have before := remembers_of_makeRoom remembered
    exact lt_window_makeRoom positive inRange (windowed.inRange n before) (Or.inl (windowed.within n before))
  started := fun n p found => windowed.started n p (pending_makeRoom found)

/-- A state that remembers, where there was room for a number, this number at most and whose edge did not move back
keeps to the window. -/
theorem windowed_of_room (positive : 0 < window) (windowed : s.Windowed window) (inRange : sn ≤ lastWord)
    {t : ReceiveState} (settled : t.Settled) (onward : (s.makeRoom window sn).edge ≤ t.edge)
    (remembered : ∀ n, t.Remembers n → n = sn ∨ (s.makeRoom window sn).Remembers n)
    (started : ∀ n p, t.pending.get? n = some p → p.segments.isEmpty = false) : t.Windowed window := by
  have room := windowed_makeRoom positive windowed inRange
  have fits : sn < (s.makeRoom window sn).edge + window := lt_window_makeRoom positive inRange inRange (Or.inr rfl)
  refine ⟨settled, fun n h => ?_, fun n h => Nat.lt_of_lt_of_le ?_ (Nat.add_le_add_right onward window), started⟩
  · rcases remembered n h with rfl | before
    · exact inRange
    · exact room.inRange n before
  · rcases remembered n h with rfl | before
    · exact fits
    · exact room.within n before

/-- A unit to which a segment was added has a segment. -/
theorem isEmpty_of_grown {header : SegmentHeader} {data : Bytes} {p : Partial}
    (grown : s.grown? window header data = some p) : p.segments.isEmpty = false := by
  have stored := (SortedMap.get?_eq_some_iff _ _ _).1 ((Partial.segments_insert? grown _ _).2 (Or.inr ⟨rfl, rfl⟩))
  rw [SortedMap.isEmpty, List.isEmpty_eq_false_iff]
  exact List.ne_nil_of_mem stored

/-- A state keeps to its window, whatever segment it takes in. -/
theorem windowed_accept (positive : 0 < window) (windowed : s.Windowed window) (header : SegmentHeader) (data : Bytes) :
    (s.accept window header data).2.Windowed window := by
  have inRange : header.sn.toNat ≤ lastWord := Nat.le_of_lt_succ header.sn.toNat_lt
  have settled := settled_accept windowed.toSettled window header data
  have room := windowed_makeRoom positive windowed inRange
  have taken := taken_accept s window header data
  generalize s.accept window header data = answer at taken settled ⊢
  cases taken with
  | late done => exact ⟨settled, windowed.inRange, windowed.within, windowed.started⟩
  | again fresh known => exact ⟨settled, room.inRange, room.within, room.started⟩
  | stored p fresh grown lacking =>
    refine windowed_of_room positive windowed inRange settled (Nat.le_refl _) (fun n => remembers_of_store) ?_
    intro n q found
    rcases pending_of_store found with ⟨-, rfl⟩ | ⟨-, before⟩
    · exact isEmpty_of_grown grown
    · exact room.started n q before
  | completed p fresh grown whole =>
    refine windowed_of_room positive windowed inRange settled (le_climb _ _) (fun n remembered => ?_) ?_
    · rcases remembers_of_handedOut remembered with same | stored
      · exact Or.inl same
      · exact remembers_of_store stored
    · intro n q found
      rw [pending_handedOut, Option.ite_none_left_eq_some] at found
      rcases pending_of_store found.2 with ⟨same, -⟩ | ⟨-, before⟩
      · exact absurd same found.1
      · exact room.started n q before

theorem disjoint_of_settled (settled : s.Settled) {n : Nat} (waits : s.pending.contains n = true) :
    s.delivered.contains n = false := by
  obtain ⟨p, found⟩ := (SortedMap.contains_eq_true_iff _ _).1 waits
  rw [← Bool.not_eq_true]
  exact fun given => (settled.waiting n p found).1 (Or.inr given)

theorem edge_le_of_remembers (settled : s.Settled) {n : Nat} (remembered : s.Remembers n) : s.edge ≤ n := by
  rcases remembered with waits | given
  · obtain ⟨p, found⟩ := (SortedMap.contains_eq_true_iff _ _).1 waits
    exact Nat.not_lt.1 fun below => (settled.waiting n p found).1 (Or.inl below)
  · exact settled.above n given

/-- A state remembers at most as many numbers as its window has. -/
theorem size_le_window (windowed : s.Windowed window) : s.pending.size + s.delivered.size ≤ window := by
  have distinct : (s.pending.keys ++ s.delivered.keys).Nodup := by
    refine List.nodup_append.2 ⟨s.pending.nodup_keys, s.delivered.nodup_keys, fun n waits m given same => ?_⟩
    rw [SortedMap.mem_keys_iff] at waits given
    rw [← same, disjoint_of_settled windowed.toSettled waits] at given
    cases given
  have inside : s.pending.keys ++ s.delivered.keys ⊆ List.range' s.edge window := fun n member => by
    have remembered : s.Remembers n :=
      (List.mem_append.1 member).imp (SortedMap.mem_keys_iff _ _).1 (SortedMap.mem_keys_iff _ _).1
    exact List.mem_range'_1.2 ⟨edge_le_of_remembers windowed.toSettled remembered, windowed.within n remembered⟩
  have bound := (distinct.subperm inside).length_le
  rwa [List.length_append, List.length_range', SortedMap.keys, SortedMap.keys, List.length_map, List.length_map]
    at bound

end ReceiveState

namespace Receiver
variable {r : Receiver}

theorem windowed_nextAll (positive : 0 < r.window) (windowed : r.state.Windowed r.window) (pdus : List Bytes) :
    (r.nextAll pdus).state.Windowed r.window := by
  induction pdus using List.reverseRecOn with
  | nil => exact windowed
  | append_singleton before pdu ih =>
    rw [nextAll_concat]
    rcases (r.nextAll before).next_state pdu with ⟨same, -, -⟩ | ⟨header, data, -, -, state, -⟩
    · rw [same]
      exact ih
    · rw [state, window_nextAll]
      exact ReceiveState.windowed_accept positive ih header data

/-- Whatever data units a new receiver was given, the numbers whose units wait are not among those handed out, both lie
in the window that begins at the edge, the unit of the edge itself was not handed out unless there is no larger number,
every unit that waits has a segment and lacks one, and the window is as large as all that is remembered at least. -/
theorem remembers_window (key : EntityKey) (path : Path) {window : Nat} (positive : 0 < window) (pdus : List Bytes) :
    let s := ((new key path window).nextAll pdus).state
    (∀ n, s.pending.contains n = true → s.delivered.contains n = false) ∧
      (∀ n, s.pending.contains n = true ∨ s.delivered.contains n = true → s.edge ≤ n ∧ n ≤ s.edge + window - 1) ∧
      (s.delivered.contains s.edge = true → s.edge = lastWord) ∧
      (∀ n p, s.pending.get? n = some p → p.segments.isEmpty = false ∧ p.isComplete = false) ∧
      s.pending.size + s.delivered.size ≤ window := by
  intro s
  have windowed : s.Windowed window :=
    windowed_nextAll (r := new key path window) positive (ReceiveState.windowed_new window) pdus
  refine ⟨fun n => ReceiveState.disjoint_of_settled windowed.toSettled, fun n remembered => ?_, windowed.gap,
    fun n p found => ⟨windowed.started n p found, (windowed.waiting n p found).2⟩,
    ReceiveState.size_le_window windowed⟩
  have below := windowed.within n remembered
  exact ⟨ReceiveState.edge_le_of_remembers windowed.toSettled remembered, by omega⟩

/-- Data units at the end of the range of numbers: units of their own under two of them, and segments under two more, of
which the largest number moves the edge. -/
def topSegments : List Bytes :=
  [SegmentHeader.encode ⟨⟨true, true, false⟩, 4294967294, 0⟩ [0xaa],
    SegmentHeader.encode ⟨⟨true, false, false⟩, 4294967291, 0⟩ [0xbb],
    SegmentHeader.encode ⟨⟨true, true, false⟩, 4294967295, 0⟩ [0xcc],
    SegmentHeader.encode ⟨⟨false, true, false⟩, 4294967293, 4⟩ [0xdd]]

/-- Four numbers of the window are remembered, two of either kind. -/
theorem remembers_window_at_top :
    let s := ((new ⟨⟨1⟩, .first⟩ .direct 5).nextAll topSegments).state
    0 < 5 ∧ s.edge = 4294967291 ∧ s.pending.keys = [4294967291, 4294967293] ∧
      s.delivered.keys = [4294967294, 4294967295] ∧
      (∀ n, s.pending.contains n = true → s.delivered.contains n = false) ∧
      (∀ n, s.pending.contains n = true ∨ s.delivered.contains n = true → s.edge ≤ n ∧ n ≤ s.edge + 5 - 1) ∧
      s.pending.size + s.delivered.size ≤ 5 := by
  obtain ⟨disjoint, within, -, -, size⟩ :=
    remembers_window ⟨⟨1⟩, .first⟩ .direct (show 0 < 5 by decide) topSegments
  exact ⟨by decide, by decide, by decide, by decide, disjoint, within, size⟩

end Receiver
end Sidelink
