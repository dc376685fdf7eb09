import Sidelink.Proofs.Window

/-!
What a receiver becomes that takes over the state of another one. A number is done with afterwards if it was in either
state or its unit was handed out just now; the units of all other numbers are put together from the segments that both
states have (`ReceiveState.done_joined`, `ReceiveState.pending_joined`).

What waits in the receiver itself is not looked at again, though. If the other state is done with one of its numbers, the
number waits and is done with at the same time: its segments stay, and it counts as given up when the edge passes it,
although its unit was handed out (`Receiver.stale_after_takeover`).
-/
namespace Sidelink

namespace SortedMap
variable {κ ν μ : Type} [Ranked κ]

/-- Look-up after steps over the entries of a map, each of which concerns the key of its entry only. -/
theorem get?_foldl_entries (step : SortedMap κ ν → κ × μ → SortedMap κ ν) (value : κ → μ → Option ν → Option ν)
    (at_step : ∀ m e k, (step m e).get? k = if rank e.1 = rank k then value k e.2 (m.get? k) else m.get? k)
    (source : SortedMap κ μ) (m : SortedMap κ ν) (k : κ) :
    (source.entries.foldl step m).get? k = (source.get? k).elim (m.get? k) fun w => value k w (m.get? k) := by
  obtain ⟨l, sorted⟩ := source
  show (l.foldl step m).get? k = (lookup k l).elim (m.get? k) fun w => value k w (m.get? k)
  induction l generalizing m with
  | nil => rfl
  | cons x rest ih =>
    obtain ⟨below, rest_sorted⟩ := List.pairwise_cons.1 sorted
    rw [List.foldl_cons, ih (step m x) rest_sorted, at_step]
    by_cases same : rank x.1 = rank k
    · rw [lookup_eq_none (same ▸ below), if_pos same, lookup, if_pos same]
      rfl
    · rw [if_neg same, lookup, if_neg same]

theorem contains_foldl_add (s : SortedSet κ) (l : List κ) (k : κ) :
    (l.foldl add s).contains k = true ↔ k ∈ l ∨ s.contains k = true := by
  induction l generalizing s with
  | nil => simp
  | cons a rest ih => rw [List.foldl_cons, ih, contains_add, List.mem_cons]; tauto

end SortedMap

namespace Partial

/-- A segment of two parts of a unit together is that of the first, if it has one at the place. -/
theorem get?_merge (p q : Partial) (offset : Nat) :
    (p.merge q).segments.get? offset = (p.segments.get? offset).or (q.segments.get? offset) := by
  have added := SortedMap.get?_foldl_entries
    (fun (m : SortedMap Nat Bytes) e => if m.contains e.1 then m else m.insert e.1 e.2)
    (fun _ data old => old.or (some data)) (fun m e k => ?_) q.segments p.segments offset
  · rw [merge, added]
    cases q.segments.get? offset with
    | none => exact Option.or_none.symm
    | some data => rfl
  · by_cases same : rank e.1 = rank k
    · obtain rfl := Ranked.rank_inj same
      cases found : m.get? e.1 <;> simp [SortedMap.contains, found]
    · by_cases known : m.contains e.1 = true <;> simp [known, same, SortedMap.get?_insert]

end Partial

namespace ReceiveState
variable {s t : ReceiveState} {n : Nat}

/-! ## Two states in one -/

/-- What two states know together, before units are handed out. -/
def joined (s t : ReceiveState) : ReceiveState :=
  (absorb ⟨max s.edge t.edge, s.pending, t.delivered.keys.foldl SortedMap.add s.delivered, s.counters.add t.counters⟩
    t.pending.entries).advance

/-- The numbers whose units wait and are complete. -/
def ready (s : ReceiveState) : List Nat := (s.pending.filter (fun _ p => p.isComplete)).keys

theorem reconcile_eq (s t : ReceiveState) : s.reconcile t = (s.joined t).completeAll (s.joined t).ready := rfl

theorem done_joined (s t : ReceiveState) (n : Nat) : (s.joined t).Done n ↔ s.Done n ∨ t.Done n := by
  rw [joined, done_advance]
  show n < max s.edge t.edge ∨ (t.delivered.keys.foldl SortedMap.add s.delivered).contains n = true ↔ _
  have edge : n < max s.edge t.edge ↔ n < s.edge ∨ n < t.edge := by omega
  rw [SortedMap.contains_foldl_add, SortedMap.mem_keys_iff, edge, Done, Done]
  tauto

theorem pending_joined (s t : ReceiveState) (n : Nat) :
    (s.joined t).pending.get? n = (t.pending.get? n).elim (s.pending.get? n) fun q =>
      if s.Done n ∨ t.Done n then s.pending.get? n else some (((s.pending.get? n).getD .empty).merge q) := by
  have dropped_iff (k : Nat) :
      (decide (k < max s.edge t.edge) || (t.delivered.keys.foldl SortedMap.add s.delivered).contains k) = true ↔
        s.Done k ∨ t.Done k := by
    rw [← done_joined, joined, done_advance]
    simp [Done, absorb]
  refine SortedMap.get?_foldl_entries
    (fun m (e : Nat × Partial) =>
      if decide (e.1 < max s.edge t.edge) || (t.delivered.keys.foldl SortedMap.add s.delivered).contains e.1 then m
      else m.insert e.1 (((m.get? e.1).getD .empty).merge e.2))
    (fun k q old => if s.Done k ∨ t.Done k then old else some ((old.getD .empty).merge q)) (fun m e k => ?_)
    t.pending s.pending n
  obtain ⟨a, q⟩ := e
  show (if _ then m else m.insert a (((m.get? a).getD .empty).merge q)).get? k = if rank a = rank k then _ else _
  by_cases same : rank a = rank k
  · obtain rfl := Ranked.rank_inj same
    rw [if_pos rfl]
    by_cases done : s.Done a ∨ t.Done a
    · rw [if_pos ((dropped_iff a).2 done), if_pos done]
    · rw [if_neg (mt (dropped_iff a).1 done), if_neg done, SortedMap.get?_insert_self]
  · rw [if_neg same]
    split
    · rfl
    · rw [SortedMap.get?_insert, if_neg same]

/-- Of a number that is done with in either state, no segments are added. -/
theorem pending_joined_of_done (done : s.Done n ∨ t.Done n) : (s.joined t).pending.get? n = s.pending.get? n := by
  rw [pending_joined]
  cases t.pending.get? n with
  | none => rfl
  | some q => exact if_pos done

theorem merge_empty_right (p : Partial) : p.merge .empty = p := by
  rw [Partial.merge, Partial.empty, Option.or_none]
  rfl

/-- Of any other number, the segments that both states have are put together. -/
theorem pending_joined_of_fresh (fresh : ¬ s.Done n) (fresh' : ¬ t.Done n) :
    ((s.joined t).pending.get? n).getD .empty =
      ((s.pending.get? n).getD .empty).merge ((t.pending.get? n).getD .empty) := by
  rw [pending_joined]
  cases t.pending.get? n with
  | some q => simp [fresh, fresh']
  | none => exact (merge_empty_right _).symm

theorem contains_joined (waits : (s.joined t).pending.contains n = true) :
    s.pending.contains n = true ∨ t.pending.contains n = true := by
  obtain ⟨p, found⟩ := (SortedMap.contains_eq_true_iff _ _).1 waits
  rw [pending_joined] at found
  cases waits' : t.pending.get? n with
  | some q => exact Or.inr ((SortedMap.contains_eq_true_iff _ _).2 ⟨q, waits'⟩)
  | none =>
    rw [waits'] at found
    exact Or.inl ((SortedMap.contains_eq_true_iff _ _).2 ⟨p, found⟩)

/-! ## Handing out what is complete -/

theorem mem_ready_iff (s : ReceiveState) (n : Nat) :
    n ∈ s.ready ↔ ∃ p, s.pending.get? n = some p ∧ p.isComplete = true := by
  rw [ready, SortedMap.mem_keys_iff, SortedMap.contains_eq_true_iff]
  simp only [SortedMap.get?_filter_eq_some_iff]

theorem increasing_ready (s : ReceiveState) : s.ready.Pairwise (· < ·) := SortedMap.sorted_keys _

/-- The unit of a number as far as it waits. -/
def unitOf (s : ReceiveState) (n : Nat) : Bytes := ((s.pending.get? n).getD .empty).assemble

/-- Numbers whose units wait have them handed out in their order. Nothing else becomes done with, and nothing else
ceases to wait. -/
theorem completeAll_of_waiting {l : List Nat} (once : l.Nodup) (waiting : ∀ n ∈ l, s.pending.contains n = true) :
    s.completeAll l = (l.map s.unitOf, l.foldl handedOut s) := by
  induction l generalizing s with
  | nil => rfl
  | cons n rest ih =>
    obtain ⟨apart, rest_once⟩ := List.nodup_cons.1 once
    obtain ⟨p, found⟩ := (SortedMap.contains_eq_true_iff _ _).1 (waiting n List.mem_cons_self)
    have completed : s.complete n = some (p.assemble, s.handedOut n) := by rw [complete, found]; rfl
    have elsewhere (k : Nat) (later : k ∈ rest) : (s.handedOut n).pending.get? k = s.pending.get? k := by
      rw [pending_handedOut, if_neg]
      rintro rfl
      exact apart later
    have rest_waiting (k : Nat) (later : k ∈ rest) : (s.handedOut n).pending.contains k = true := by
      rw [SortedMap.contains, elsewhere k later]
      exact waiting k (List.mem_cons_of_mem _ later)
    have units : rest.map (s.handedOut n).unitOf = rest.map s.unitOf :=
      List.map_congr_left fun k later => by rw [unitOf, elsewhere k later, unitOf]
    rw [completeAll, completed]
    simp only [ih rest_once rest_waiting, units, List.map_cons, List.foldl_cons]
    rw [unitOf, found]
    rfl

theorem done_foldl_handedOut (s : ReceiveState) (l : List Nat) (n : Nat) :
    (l.foldl handedOut s).Done n ↔ n ∈ l ∨ s.Done n := by
  induction l generalizing s with
  | nil => simp
  | cons k rest ih => rw [List.foldl_cons, ih, done_handedOut, List.mem_cons]; tauto

theorem pending_foldl_handedOut (s : ReceiveState) (l : List Nat) (n : Nat) :
    (l.foldl handedOut s).pending.get? n = if n ∈ l then none else s.pending.get? n := by
  induction l generalizing s with
  | nil => simp
  | cons k rest ih => rw [List.foldl_cons, ih, pending_handedOut]; simp only [List.mem_cons]; grind

/-- A receiver that takes over a state hands out the units that are complete in both states together, in order of their
numbers. -/
theorem reconcile_eq_handedOut (s t : ReceiveState) :
    s.reconcile t =
      ((s.joined t).ready.map (s.joined t).unitOf, (s.joined t).ready.foldl handedOut (s.joined t)) := by
  refine (reconcile_eq s t).trans (completeAll_of_waiting (SortedMap.nodup_keys _) fun n member => ?_)
  obtain ⟨p, found, -⟩ := (mem_ready_iff _ n).1 member
  exact (SortedMap.contains_eq_true_iff _ _).2 ⟨p, found⟩

theorem done_reconcile (s t : ReceiveState) (n : Nat) :
    (s.reconcile t).2.Done n ↔ n ∈ (s.joined t).ready ∨ s.Done n ∨ t.Done n := by
  rw [reconcile_eq_handedOut, done_foldl_handedOut, done_joined]

theorem pending_reconcile (s t : ReceiveState) (n : Nat) :
    (s.reconcile t).2.pending.get? n = if n ∈ (s.joined t).ready then none else (s.joined t).pending.get? n := by
  rw [reconcile_eq_handedOut, pending_foldl_handedOut]

/-- What waits after a state was taken over lacks a segment. -/
theorem lacks_reconcile {p : Partial} (found : (s.reconcile t).2.pending.get? n = some p) : p.isComplete = false := by
  rw [pending_reconcile, Option.ite_none_left_eq_some] at found
  rw [← Bool.not_eq_true]
  exact fun whole => found.1 ((mem_ready_iff _ n).2 ⟨p, found.2, whole⟩)

/-! ## What holds of every state -/

/-- A state whose numbers can be written in a word. -/
structure Ranged (s : ReceiveState) : Prop where
  edge_le : s.edge ≤ lastWord
  inRange : ∀ n, s.Remembers n → n ≤ lastWord

/-- A state whose edge has passed all it can, and that lists no number below it. -/
structure Advanced (s : ReceiveState) : Prop extends Ranged s where
  above : ∀ n, s.delivered.contains n = true → s.edge ≤ n
  gap : s.delivered.contains s.edge = true → s.edge = lastWord

/-- A state as it is between calls, however it came about. A number that waits in it may be done with nevertheless. -/
structure Regular (s : ReceiveState) : Prop extends Advanced s where
  lacking : ∀ n p, s.pending.get? n = some p → p.isComplete = false

theorem regular_new : new.Regular where
  edge_le := Nat.zero_le _
  inRange := fun n remembered => by rcases remembered with waits | given <;> contradiction
  above := fun n given => by cases given
  gap := fun given => by cases given
  lacking := fun n p found => by cases found

/-- A regular state is settled if nothing waits in it that it is done with. -/
theorem Regular.settled (regular : s.Regular) (fresh : ∀ n, s.pending.contains n = true → ¬ s.Done n) : s.Settled where
  edge_le := regular.edge_le
  bounded := fun n given => regular.inRange n (Or.inr given)
  waiting := fun n p found =>
    ⟨fresh n ((SortedMap.contains_eq_true_iff _ _).2 ⟨p, found⟩), regular.lacking n p found⟩
  above := regular.above
  gap := regular.gap

theorem advanced_advance (ranged : s.Ranged) : s.advance.Advanced where
  edge_le := climb_le_last _ ranged.edge_le
  inRange := fun n remembered => ranged.inRange n (remembered.imp_right fun given => ((contains_advance s n).1 given).1)
  above := fun n given => ((contains_advance s n).1 given).2
  gap := fun given => by
    have member := ((contains_advance s _).1 given).1
    exact climb_eq_last_of_mem s.increasing_keys ranged.edge_le ((SortedMap.mem_keys_iff _ _).2 member)

theorem advanced_handedOut (ranged : s.Ranged) (inRange : n ≤ lastWord) : (s.handedOut n).Advanced := by
  refine advanced_advance ⟨ranged.edge_le, fun k remembered => ?_⟩
  rcases remembered with waits | given
  · obtain ⟨p, found⟩ := (SortedMap.contains_eq_true_iff _ _).1 waits
    rw [SortedMap.get?_erase, Option.ite_none_left_eq_some] at found
    exact ranged.inRange k (Or.inl ((SortedMap.contains_eq_true_iff _ _).2 ⟨p, found.2⟩))
  · rcases (SortedMap.contains_add _ _ _).1 given with rfl | given
    · exact inRange
    · exact ranged.inRange k (Or.inr given)

theorem advanced_foldl_handedOut (advanced : s.Advanced) {l : List Nat} (inRange : ∀ n ∈ l, n ≤ lastWord) :
    (l.foldl handedOut s).Advanced := by
  induction l generalizing s with
  | nil => exact advanced
  | cons n rest ih =>
    exact ih (advanced_handedOut advanced.toRanged (inRange n List.mem_cons_self))
      fun k later => inRange k (List.mem_cons_of_mem _ later)

theorem regular_makeRoom {window sn : Nat} (regular : s.Regular) (inRange : sn ≤ lastWord) :
    (s.makeRoom window sn).Regular where
  toAdvanced := by
    rw [makeRoom]
    split
    · refine advanced_advance ⟨?_, fun n remembered => ?_⟩
      · show sn - (window - 1) ≤ lastWord
        omega
      · refine regular.inRange n (remembered.imp_left fun waits => ?_)
        obtain ⟨p, found⟩ := (SortedMap.contains_eq_true_iff _ _).1 waits
        exact (SortedMap.contains_eq_true_iff _ _).2 ⟨p, ((SortedMap.get?_filter_eq_some_iff _ _ _ _).1 found).1⟩
    · exact ⟨⟨regular.edge_le, regular.inRange⟩, regular.above, regular.gap⟩
  lacking := fun n p found => regular.lacking n p (pending_makeRoom found)

/-- A state stays regular, whatever segment it takes in. -/
theorem regular_accept (regular : s.Regular) (window : Nat) (header : SegmentHeader) (data : Bytes) :
    (s.accept window header data).2.Regular := by
  have inRange : header.sn.toNat ≤ lastWord := Nat.le_of_lt_succ header.sn.toNat_lt
  have room : (s.makeRoom window header.sn.toNat).Regular := regular_makeRoom regular inRange
  have stored_ranged (p : Partial) : (s.store window header.sn.toNat p).Ranged := by
    refine ⟨room.edge_le, fun n remembered => ?_⟩
    rcases remembers_of_store remembered with rfl | before
    · exact inRange
    · exact room.inRange n before
  have taken := taken_accept s window header data
  generalize s.accept window header data = answer at taken ⊢
  cases taken with
  | late done => exact ⟨⟨⟨regular.edge_le, regular.inRange⟩, regular.above, regular.gap⟩, regular.lacking⟩
  | again fresh known => exact ⟨⟨⟨room.edge_le, room.inRange⟩, room.above, room.gap⟩, room.lacking⟩
  | stored p fresh grown lacking =>
    refine ⟨⟨stored_ranged p, room.above, room.gap⟩, fun n q found => ?_⟩
    rcases pending_of_store found with ⟨-, rfl⟩ | ⟨-, before⟩
    · exact lacking
    · exact room.lacking n q before
  | completed p fresh grown whole =>
    refine ⟨advanced_handedOut (stored_ranged p) inRange, fun n q found => ?_⟩
    rw [pending_handedOut, Option.ite_none_left_eq_some] at found
    rcases pending_of_store found.2 with ⟨same, -⟩ | ⟨-, before⟩
    · exact absurd same found.1
    · exact room.lacking n q before

theorem regular_clear (regular : s.Regular) : s.clear.Regular where
  edge_le := regular.edge_le
  inRange := fun n remembered => regular.inRange n (remembered.imp_left fun waits => by cases waits)
  above := regular.above
  gap := regular.gap
  lacking := fun n p found => by cases found

theorem advanced_joined (ranged : s.Ranged) (ranged' : t.Ranged) : (s.joined t).Advanced := by
  refine advanced_advance ⟨Nat.max_le.2 ⟨ranged.edge_le, ranged'.edge_le⟩, fun n remembered => ?_⟩
  rcases remembered with waits | given
  · rcases contains_joined (s := s) (t := t) waits with waits | waits
    · exact ranged.inRange n (Or.inl waits)
    · exact ranged'.inRange n (Or.inl waits)
  · rcases (SortedMap.contains_foldl_add _ _ _).1 given with given | given
    · exact ranged'.inRange n (Or.inr ((SortedMap.mem_keys_iff _ _).1 given))
    · exact ranged.inRange n (Or.inr given)

/-- Taking over a regular state leaves a state regular. -/
theorem regular_reconcile (regular : s.Regular) (regular' : t.Regular) : (s.reconcile t).2.Regular where
  toAdvanced := by
    have joined := advanced_joined regular.toRanged regular'.toRanged
    rw [reconcile_eq_handedOut]
    refine advanced_foldl_handedOut joined fun n member => joined.inRange n (Or.inl ?_)
    obtain ⟨p, found, -⟩ := (mem_ready_iff _ n).1 member
    exact (SortedMap.contains_eq_true_iff _ _).2 ⟨p, found⟩
  lacking := fun n p found => lacks_reconcile found

/-! ## Numbers that wait though they are done with -/

/-- Whether a number waits though it is done with. -/
def Stale (s : ReceiveState) (n : Nat) : Prop := s.pending.contains n = true ∧ s.Done n

/-- After a state was taken over, exactly those numbers wait though they are done with that waited before and that
either state is done with. -/
theorem stale_reconcile_iff (lacking : ∀ n p, s.pending.get? n = some p → p.isComplete = false) (t : ReceiveState)
    (n : Nat) : (s.reconcile t).2.Stale n ↔ s.pending.contains n = true ∧ (s.Done n ∨ t.Done n) := by
  rw [Stale, done_reconcile, SortedMap.contains, pending_reconcile]
  by_cases ready : n ∈ (s.joined t).ready
  · -- A number of which the own segments lack one is complete only with those of the other state.
    have fresh : ¬ (s.pending.contains n = true ∧ (s.Done n ∨ t.Done n)) := by
      rintro ⟨-, done⟩
      obtain ⟨p, found, whole⟩ := (mem_ready_iff _ n).1 ready
      rw [pending_joined_of_done done] at found
      rw [lacking n p found] at whole
      cases whole
    simp [ready, fresh]
  · by_cases done : s.Done n ∨ t.Done n
    · simp [ready, done, pending_joined_of_done done, SortedMap.contains]
    · simp [ready, done]

end ReceiveState

/-! ## Receivers with a past -/

namespace Receiver

/-- How a receiver came to be what it is: it was new once, and since then took in data units and the states of other
receivers. -/
inductive Past where
  | new (key : EntityKey) (path : Path) (window : Nat)
  | data (past : Past) (pdu : Bytes)
  | takeover (past other : Past) (clear : Bool)

/-- The receiver that has a past. -/
def Past.receiver : Past → Receiver
  | .new key path window => .new key path window
  | .data past pdu => past.receiver.next pdu
  | .takeover past other clear => (past.receiver.reconcile (other.receiver.handOver clear)).2

theorem regular_next {r : Receiver} (regular : r.state.Regular) (pdu : Bytes) : (r.next pdu).state.Regular := by
  rcases r.next_state pdu with ⟨same, -, -⟩ | ⟨header, data, -, -, state, -⟩
  · rw [same]
    exact regular
  · rw [state]
    exact ReceiveState.regular_accept regular _ _ _

theorem regular_handOver {r : Receiver} (regular : r.state.Regular) (clear : Bool) : (r.handOver clear).Regular := by
  cases clear with
  | false => exact regular
  | true => exact ReceiveState.regular_clear regular

theorem Past.regular (past : Past) : past.receiver.state.Regular := by
  induction past with
  | new key path window => exact ReceiveState.regular_new
  | data past pdu ih => exact regular_next ih pdu
  | takeover past other clear ih ih' => exact ReceiveState.regular_reconcile ih (regular_handOver ih' clear)

/-- Giving up the incomplete units leaves done with what was. -/
theorem done_handOver (r : Receiver) (clear : Bool) (n : Nat) : (r.handOver clear).Done n ↔ r.state.Done n := by
  cases clear <;> rfl

theorem settled_nextAll {r : Receiver} (settled : r.state.Settled) (pdus : List Bytes) :
    (r.nextAll pdus).state.Settled := by
  induction pdus generalizing r with
  | nil => exact settled
  | cons pdu rest ih => exact ih (settled_next settled pdu)

/-- Of two receivers with any past, one takes over the state of the other. Afterwards the numbers that wait in it though
they are done with are exactly those that waited in it before and that either receiver was done with; so there are none
exactly if nothing waited in it that either receiver was done with. In this case there are none either after any further
data units, so that no number whose unit was handed out is given up later. -/
theorem stale_after_takeover (own other : Past) (clear : Bool) :
    let r := own.receiver
    let q := other.receiver
    let merged := (r.reconcile (q.handOver clear)).2
    (∀ n, merged.state.pending.contains n = true ∧ merged.state.Done n ↔
        r.state.pending.contains n = true ∧ (r.state.Done n ∨ q.state.Done n)) ∧
      ((∀ n, merged.state.pending.contains n = true → ¬ merged.state.Done n) ↔
        ∀ n, r.state.pending.contains n = true → ¬ r.state.Done n ∧ ¬ q.state.Done n) ∧
      ((∀ n, r.state.pending.contains n = true → ¬ r.state.Done n ∧ ¬ q.state.Done n) →
        ∀ pdus n, (merged.nextAll pdus).state.pending.contains n = true → ¬ (merged.nextAll pdus).state.Done n) := by
  intro r q merged
  have stale (n : Nat) : merged.state.pending.contains n = true ∧ merged.state.Done n ↔
      r.state.pending.contains n = true ∧ (r.state.Done n ∨ q.state.Done n) := by
    rw [← done_handOver q clear]
    exact ReceiveState.stale_reconcile_iff own.regular.lacking _ n
  have none_iff : (∀ n, merged.state.pending.contains n = true → ¬ merged.state.Done n) ↔
      ∀ n, r.state.pending.contains n = true → ¬ r.state.Done n ∧ ¬ q.state.Done n := by
    refine forall_congr' fun n => ?_
    rw [← not_or, ← not_and, ← not_and]
    exact not_congr (stale n)
  refine ⟨stale, none_iff, fun apart pdus n waits => ?_⟩
  have settled : merged.state.Settled := (Past.takeover own other clear).regular.settled (none_iff.2 apart)
  obtain ⟨p, found⟩ := (SortedMap.contains_eq_true_iff _ _).1 waits
  exact ((settled_nextAll settled pdus).waiting n p found).1

/-- A receiver that has the first of two segments under a number. -/
def halfHeard : Past := .data (.new ⟨⟨1⟩, .first⟩ .direct 8) (SegmentHeader.encode ⟨⟨true, false, false⟩, 1, 0⟩ [0xaa])

/-- A receiver that has handed out the unit of this number. -/
def wholeHeard : Past :=
  .data (.new ⟨⟨1⟩, .first⟩ .infrastructure 8) (SegmentHeader.encode ⟨⟨true, true, false⟩, 1, 0⟩ [0xaa, 0xbb])

/-- When the first takes over the state of the second, the number waits and is listed as one whose unit was handed out,
and it counts as given up when a later number moves the edge past it. -/
theorem stale_after_whole :
    let merged := (halfHeard.receiver.reconcile (wholeHeard.receiver.handOver false)).2
    merged.state.pending.keys = [1] ∧ merged.state.delivered.keys = [1] ∧ merged.state.counters.abandoned = 0 ∧
      (merged.next (SegmentHeader.encode ⟨⟨true, true, false⟩, 20, 0⟩ [0xcc])).state.counters.abandoned = 1 := by
  decide

end Receiver
end Sidelink
