import Mathlib.Data.List.Nodup
import Sidelink.Calendar

/-!
The events that wait in a calendar (`Calendar.pending`), whatever else its heap still holds. Entering an event adds it
under a number of its own, cancelling takes away the event of a number, and the next event is one that waits, while all
others still do. The heap has no order in these statements: its entries are told up to a permutation.
-/
namespace Sidelink.Calendar
variable {ε : Type}

/-! ## Entries of a heap -/

namespace Heap

theorem toList_join (entry : Entry ε) (a b : Heap ε) :
    (join entry a b).toList.Perm (entry :: (a.toList ++ b.toList)) := by
  unfold join
  split
  · exact .refl _
  · exact .cons _ List.perm_append_comm

theorem toList_mergeInto {entry : Entry ε} {left whole : Heap ε} {mergeRight : Heap ε → Heap ε}
    {right : List (Entry ε)} (merges : ∀ h, (mergeRight h).toList.Perm (right ++ h.toList))
    (parts : whole.toList = entry :: (left.toList ++ right)) (h : Heap ε) :
    (mergeInto entry left mergeRight whole h).toList.Perm (whole.toList ++ h.toList) := by
  induction h with
  | leaf => simp [mergeInto, toList]
  | node s e l r _ ih =>
    unfold mergeInto
    split
    · refine (toList_join _ _ _).trans ?_
      rw [parts, List.cons_append, List.append_assoc]
      exact .cons _ ((merges _).append_left _)
    · refine (toList_join _ _ _).trans ?_
      have rest : (l.toList ++ (mergeInto entry left mergeRight whole r).toList).Perm
          (whole.toList ++ (l.toList ++ r.toList)) := by
        refine (ih.append_left _).trans ?_
        rw [← List.append_assoc, ← List.append_assoc]
        exact List.perm_append_comm.append_right _
      exact (rest.cons _).trans List.perm_middle.symm

theorem toList_merge (a b : Heap ε) : (merge a b).toList.Perm (a.toList ++ b.toList) := by
  induction a generalizing b with
  | leaf => exact .refl _
  | node s e l r _ ih => exact toList_mergeInto ih rfl b

theorem toList_insert (h : Heap ε) (entry : Entry ε) : (h.insert entry).toList.Perm (entry :: h.toList) :=
  toList_merge _ h

theorem toList_pop? {h rest : Heap ε} {entry : Entry ε} (popped : h.pop? = some (entry, rest)) :
    h.toList.Perm (entry :: rest.toList) := by
  cases h with
  | leaf => cases popped
  | node s e l r =>
    obtain ⟨rfl, rfl⟩ := Prod.mk.inj (Option.some.inj popped)
    exact (toList_merge l r).symm.cons _

end Heap

/-- What is dropped from the root of a heap is cancelled, and with enough fuel no cancelled event is left there. -/
theorem dropDead_spec (live : Std.TreeSet EventId) (fuel : Nat) (h : Heap ε) :
    (∃ dead, h.toList.Perm (dead ++ (dropDead live fuel h).toList) ∧ ∀ e ∈ dead, live.contains e.id = false) ∧
      (h.toList.length ≤ fuel →
        ∀ entry rest, (dropDead live fuel h).pop? = some (entry, rest) → live.contains entry.id = true) := by
  induction fuel generalizing h with
  | zero =>
    refine ⟨⟨[], .refl _, by simp⟩, fun short entry rest popped => ?_⟩
    have empty := (Heap.toList_pop? popped).length_eq
    simp only [dropDead, List.length_cons] at short empty
    omega
  | succ fuel ih =>
    unfold dropDead
    cases popped : h.pop? with
    | none => exact ⟨⟨[], .refl _, by simp⟩, fun _ entry rest found => by rw [popped] at found; cases found⟩
    | some answer =>
      obtain ⟨first, others⟩ := answer
      have parts := Heap.toList_pop? popped
      by_cases alive : live.contains first.id = true
      · simp only [alive, if_true]
        refine ⟨⟨[], .refl _, by simp⟩, fun _ entry rest found => ?_⟩
        rw [popped] at found
        obtain ⟨rfl, -⟩ := Prod.mk.inj (Option.some.inj found)
        exact alive
      · simp only [alive, Bool.false_eq_true, if_false]
        obtain ⟨⟨dead, shed, cancelled⟩, root⟩ := ih others
        refine ⟨⟨first :: dead, parts.trans (shed.cons _), ?_⟩, fun short => root ?_⟩
        · intro e member
          rcases List.mem_cons.1 member with rfl | member
          · exact Bool.not_eq_true _ ▸ alive
          · exact cancelled e member
        · have length := parts.length_eq
          simp only [List.length_cons] at length
          omega

/-! ## Events that wait -/

/-- The events that wait, in no particular order. -/
def pending (c : Calendar ε) : List (Entry ε) := c.heap.toList.filter fun e => c.live.contains e.id

/-- Whether each entry of the heap has a number of its own that was given out. -/
structure Valid (c : Calendar ε) : Prop where
  distinct : (c.heap.toList.map Entry.id).Nodup
  numbered : ∀ e ∈ c.heap.toList, e.id < c.nextId
  short : c.heap.toList.length ≤ c.nextId

theorem valid_empty : (empty : Calendar ε).Valid := ⟨List.nodup_nil, by simp [empty, Heap.toList], Nat.zero_le _⟩

variable {c : Calendar ε}

/-- Those that wait can be told apart by their numbers. -/
theorem Valid.eq_of_id (valid : c.Valid) {x y : Entry ε} (waits : x ∈ c.pending) (waits' : y ∈ c.pending)
    (same : x.id = y.id) : x = y :=
  List.inj_on_of_nodup_map valid.distinct (List.mem_filter.1 waits).1 (List.mem_filter.1 waits').1 same

theorem valid_enter (valid : c.Valid) (time : SimTime) (event : ε) : (c.enter time event).2.Valid := by
  have parts : (c.enter time event).2.heap.toList.Perm _ := Heap.toList_insert c.heap ⟨time, c.nextId, event⟩
  refine ⟨?_, fun e member => ?_, ?_⟩
  · rw [(parts.map Entry.id).nodup_iff, List.map_cons, List.nodup_cons]
    refine ⟨fun known => ?_, valid.distinct⟩
    obtain ⟨e, member, same⟩ := List.mem_map.1 known
    exact absurd (valid.numbered e member) (by rw [same]; exact Nat.lt_irrefl _)
  · rcases List.mem_cons.1 (parts.mem_iff.1 member) with rfl | old
    · exact Nat.lt_succ_self _
    · exact Nat.lt_succ_of_lt (valid.numbered e old)
  · rw [parts.length_eq]
    exact Nat.succ_le_succ valid.short

/-- An event that is entered waits, and so do all that waited before. -/
theorem pending_enter (valid : c.Valid) (time : SimTime) (event : ε) :
    (c.enter time event).2.pending.Perm (⟨time, c.nextId, event⟩ :: c.pending) := by
  have parts : (c.enter time event).2.heap.toList.Perm _ := Heap.toList_insert c.heap ⟨time, c.nextId, event⟩
  refine (parts.filter _).trans ?_
  have old : c.heap.toList.filter (fun e => (c.live.insert c.nextId).contains e.id) = c.pending := by
    refine List.filter_congr fun e member => ?_
    have other : c.nextId ≠ e.id := Nat.ne_of_gt (valid.numbered e member)
    simp [Std.TreeSet.contains_insert, other]
  rw [List.filter_cons_of_pos (by simp [enter])]
  exact .cons _ (.of_eq old)

theorem valid_cancel (valid : c.Valid) (id : EventId) : (c.cancel id).2.Valid := by
  unfold cancel
  split
  · exact ⟨valid.distinct, valid.numbered, valid.short⟩
  · exact valid

theorem pending_cancel (c : Calendar ε) (id : EventId) : (c.cancel id).2.pending = c.pending.filter (·.id ≠ id) := by
  unfold cancel
  split
  · simp only [pending, List.filter_filter]
    refine List.filter_congr fun e _ => ?_
    rw [Std.TreeSet.contains_erase, Bool.and_comm]
    by_cases same : e.id = id
    · simp [same]
    · simp [same, Ne.symm same]
  · rename_i missing
    refine (List.filter_eq_self.2 fun e member => ?_).symm
    rw [decide_eq_true_eq]
    rintro rfl
    exact missing (List.mem_filter.1 member).2

/-- Cancelling an event that waits takes away that event alone. -/
theorem pending_of_cancel (valid : c.Valid) {entry : Entry ε} (waits : entry ∈ c.pending) :
    c.pending.Perm (entry :: (c.cancel entry.id).2.pending) := by
  obtain ⟨before, later, parts⟩ := List.append_of_mem waits
  have first : c.pending.Perm (entry :: (before ++ later)) := parts ▸ List.perm_middle
  have distinct : (c.pending.map Entry.id).Nodup := valid.distinct.sublist (List.filter_sublist.map _)
  have only := (List.nodup_cons.1 ((first.map Entry.id).nodup_iff.1 distinct)).1
  have rest := first.filter fun e => decide (e.id ≠ entry.id)
  have all : (before ++ later).filter (·.id ≠ entry.id) = before ++ later :=
    List.filter_eq_self.2 fun e member => decide_eq_true fun same => only (List.mem_map.2 ⟨e, member, same⟩)
  rw [List.filter_cons_of_neg (by simp), all] at rest
  rw [pending_cancel]
  exact first.trans (rest.symm.cons _)

/-- The next event is one that waits, and the others go on waiting. -/
theorem pop_spec (valid : c.Valid) {entry : Entry ε} {d : Calendar ε} (popped : c.pop = some (entry, d)) :
    c.pending.Perm (entry :: d.pending) ∧ d.Valid ∧ d.nextId = c.nextId := by
  unfold pop at popped
  obtain ⟨⟨first, rest⟩, root, same⟩ := Option.map_eq_some_iff.1 popped
  obtain ⟨rfl, rfl⟩ := Prod.mk.inj same
  obtain ⟨⟨dead, shed, cancelled⟩, alive⟩ := dropDead_spec c.live c.nextId c.heap
  have alive := alive valid.short first rest root
  have parts : c.heap.toList.Perm (dead ++ first :: rest.toList) := shed.trans ((Heap.toList_pop? root).append_left _)
  have distinct := (parts.map Entry.id).nodup_iff.1 valid.distinct
  rw [List.map_append, List.map_cons, List.nodup_append] at distinct
  obtain ⟨-, distinct, -⟩ := distinct
  obtain ⟨only, distinct⟩ := List.nodup_cons.1 distinct
  refine ⟨?_, ⟨distinct, fun e member => ?_, ?_⟩, rfl⟩
  · refine (parts.filter _).trans (.of_eq ?_)
    rw [List.filter_append, List.filter_eq_nil_iff.2 fun e member => by simp [cancelled e member],
      List.nil_append, List.filter_cons, if_pos alive]
    refine congrArg _ (List.filter_congr fun e member => ?_)
    have other : first.id ≠ e.id := fun same => only (same ▸ List.mem_map_of_mem member)
    simp [settled, Std.TreeSet.contains_erase, other]
  · exact valid.numbered e (parts.mem_iff.2 (List.mem_append_right _ (List.mem_cons_of_mem _ member)))
  · have length := parts.length_eq
    have short := valid.short
    simp only [List.length_append, List.length_cons, settled] at length ⊢
    omega

end Sidelink.Calendar
