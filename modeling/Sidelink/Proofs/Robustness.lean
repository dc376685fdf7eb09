import Sidelink.Proofs.Reconciling

/-!
What a receiver makes of any byte strings at all, also if it took over the states of receivers that were given any
byte strings. Segments under one number may contradict each other in every way: they may overlap, leave gaps, be empty,
reach the end of the range of offsets or claim different lengths of their unit.

A receiver computes with offsets in words of 32 bits, with differences of them and with slices of data. The functions
whose names end in `InWords` repeat its computation with operations that have no result where a sum leaves the range of
words, a difference is negative or a slice begins beyond the end of the data. They always have a result, which is that
of the receiver (`Receiver.receive_robust`): the search for gaps lets through only what can be put together. Every octet
of a unit that is handed out is one that a segment under its number carried at this place.
-/
namespace Sidelink

/-! ## Operations on words -/

namespace Word

/-- The sum of two words, if it is one. -/
def sum? (a b : Nat) : Option Nat := if a + b ≤ lastWord then some (a + b) else none

/-- The difference of two words, if it is not negative. -/
def difference? (a b : Nat) : Option Nat := if b ≤ a then some (a - b) else none

/-- The data from a place on, if there is such a place. -/
def tail? (data : Bytes) (place : Nat) : Option Bytes := if place ≤ data.length then some (data.drop place) else none

end Word

/-! ## Receivers that compute in words -/

namespace Partial

/-- `insert?` in words. -/
def insertInWords (p : Partial) (offset : Nat) (data : Bytes) (last : Bool) : Option (Option Partial) :=
  if p.segments.contains offset then some none
  else do
    let total ← if last then (Word.sum? offset data.length).map some else some p.total
    return some { segments := p.segments.insert offset data, total }

/-- `coverage` in words. -/
def coverageInWords (covered : Nat) : List (Nat × Bytes) → Option (Option Nat)
  | [] => some (some covered)
  | (offset, data) :: rest =>
    if covered < offset then some none
    else do
      let finish ← Word.sum? offset data.length
      coverageInWords (max covered finish) rest

/-- `isComplete` in words. -/
def isCompleteInWords (p : Partial) : Option Bool :=
  match p.total with
  | none => some false
  | some total => (coverageInWords 0 p.segments.entries).map fun covered => covered.any (total ≤ ·)

/-- `join` in words. -/
def joinInWords (cursor : Nat) : List (Nat × Bytes) → Option Bytes
  | [] => some []
  | (offset, data) :: rest => do
    let finish ← Word.sum? offset data.length
    if finish ≤ cursor then joinInWords cursor rest
    else
      let known ← Word.difference? cursor offset
      let added ← Word.tail? data known
      let later ← joinInWords finish rest
      return added ++ later

/-- `assemble` in words. -/
def assembleInWords (p : Partial) : Option Bytes := joinInWords 0 p.segments.entries

end Partial

namespace ReceiveState

/-- `complete` in words. -/
def completeInWords (s : ReceiveState) (sn : Nat) : Option (Option (Bytes × ReceiveState)) :=
  match s.pending.get? sn with
  | none => some none
  | some p => do
    let sdu ← p.assembleInWords
    return some (sdu, s.handedOut sn)

/-- `accept` in words. -/
def acceptInWords (s : ReceiveState) (window : Nat) (header : SegmentHeader) (data : Bytes) :
    Option (Option Bytes × ReceiveState) :=
  let sn := header.sn.toNat
  if s.Done sn then some (none, s.received.drop)
  else do
    let room := s.makeRoom window sn
    match ← ((room.pending.get? sn).getD .empty).insertInWords header.offset.toNat data header.flags.last with
    | none => return (none, room.drop)
    | some p =>
      let stored := s.store window sn p
      if ← p.isCompleteInWords then
        match ← stored.completeInWords sn with
        | some (sdu, after) => return (some sdu, after)
        | none => return (none, stored)
      else return (none, stored)

/-- `ready` in words, over entries of what waits. -/
def readyInWords : List (Nat × Partial) → Option (List Nat)
  | [] => some []
  | (sn, p) :: rest => do
    let whole ← p.isCompleteInWords
    let later ← readyInWords rest
    return if whole then sn :: later else later

/-- `completeAll` in words. -/
def completeAllInWords (s : ReceiveState) : List Nat → Option (List Bytes × ReceiveState)
  | [] => some ([], s)
  | sn :: rest => do
    match ← s.completeInWords sn with
    | some (sdu, after) =>
      let (sdus, last) ← completeAllInWords after rest
      return (sdu :: sdus, last)
    | none => completeAllInWords s rest

/-- `reconcile` in words. -/
def reconcileInWords (s prior : ReceiveState) : Option (List Bytes × ReceiveState) := do
  let numbers ← readyInWords (s.joined prior).pending.entries
  (s.joined prior).completeAllInWords numbers

end ReceiveState

namespace Receiver

/-- `receive` in words. -/
def receiveInWords (r : Receiver) (pdu : Bytes) : Option (Except MalformedPdu (Option Bytes × Receiver)) :=
  match SegmentHeader.parse pdu with
  | .error cause => some (.error cause)
  | .ok (header, data) =>
    if lastWord < header.offset.toNat + data.length then
      some (.error (.outOfRange header.offset.toNat data.length))
    else do
      let (sdu, state) ← r.state.acceptInWords r.window header data
      return .ok (sdu, { r with state })

end Receiver

/-! ## Segments that end inside the range -/

namespace Partial
variable {p q : Partial}

/-- Whether all segments end inside the range of offsets. -/
def InRange (p : Partial) : Prop := ∀ e ∈ p.segments.entries, e.1 + e.2.length ≤ lastWord

theorem insertInWords_eq (p : Partial) {offset : Nat} {data : Bytes} (inRange : offset + data.length ≤ lastWord)
    (last : Bool) : p.insertInWords offset data last = some (p.insert? offset data last) := by
  rw [insertInWords, insert?]
  split
  · rfl
  · cases last with
    | true => simp [Word.sum?, inRange]
    | false => rfl

theorem coverageInWords_eq {l : List (Nat × Bytes)} (inRange : ∀ e ∈ l, e.1 + e.2.length ≤ lastWord) (covered : Nat) :
    coverageInWords covered l = some (coverage covered l) := by
  induction l generalizing covered with
  | nil => rfl
  | cons x rest ih =>
    obtain ⟨offset, data⟩ := x
    have here : offset + data.length ≤ lastWord := inRange _ List.mem_cons_self
    have later := ih fun e member => inRange e (List.mem_cons_of_mem _ member)
    rw [coverageInWords, coverage]
    split
    · rfl
    · simp [Word.sum?, here, later]

theorem isCompleteInWords_eq (inRange : p.InRange) : p.isCompleteInWords = some p.isComplete := by
  rw [isCompleteInWords, isComplete]
  cases p.total with
  | none => rfl
  | some total =>
    rw [coverageInWords_eq inRange]
    cases coverage 0 p.segments.entries <;> rfl

/-- Segments without a gap can be put together. -/
theorem joinInWords_eq {l : List (Nat × Bytes)} (inRange : ∀ e ∈ l, e.1 + e.2.length ≤ lastWord)
    {covered reached : Nat} (covers : coverage covered l = some reached) :
    joinInWords covered l = some (join covered l) := by
  induction l generalizing covered with
  | nil => rfl
  | cons x rest ih =>
    obtain ⟨offset, data⟩ := x
    have here : offset + data.length ≤ lastWord := inRange _ List.mem_cons_self
    have later := fun e member => inRange e (List.mem_cons_of_mem _ member)
    simp only [coverage] at covers
    split at covers
    · cases covers
    · rename_i noGap
      simp only [joinInWords, join, Word.sum?, here, if_true, Option.bind_eq_bind, Option.bind_some]
      split
      · rename_i known
        rw [Nat.max_eq_left known] at covers
        exact ih later covers
      · rename_i new
        rw [Nat.max_eq_right (by omega)] at covers
        have notNegative : offset ≤ covered := Nat.not_lt.1 noGap
        have inside : covered - offset ≤ data.length := by omega
        simp [Word.difference?, Word.tail?, notNegative, inside, ih later covers]

theorem exists_of_isComplete (whole : p.isComplete = true) :
    ∃ total reached, p.total = some total ∧ coverage 0 p.segments.entries = some reached ∧ total ≤ reached := by
  simp only [isComplete] at whole
  split at whole
  · rename_i total reached known covers
    exact ⟨total, reached, known, covers, of_decide_eq_true whole⟩
  · cases whole

theorem assembleInWords_eq (inRange : p.InRange) (whole : p.isComplete = true) :
    p.assembleInWords = some p.assemble := by
  obtain ⟨-, reached, -, covers, -⟩ := exists_of_isComplete whole
  exact joinInWords_eq inRange covers

/-- What segments without a gap make up reaches as far as they do, and each octet of it is one that a segment has at its
place. -/
theorem octet_of_join {l : List (Nat × Bytes)} {covered reached : Nat} (covers : coverage covered l = some reached) :
    covered ≤ reached ∧ (join covered l).length = reached - covered ∧
      ∀ index octet, (join covered l)[index]? = some octet →
        ∃ e ∈ l, e.1 ≤ covered + index ∧ e.2[covered + index - e.1]? = some octet := by
  induction l generalizing covered with
  | nil =>
    obtain rfl := Option.some.inj covers
    exact ⟨Nat.le_refl _, (Nat.sub_self _).symm, fun index octet found => by cases found⟩
  | cons x rest ih =>
    obtain ⟨offset, data⟩ := x
    simp only [coverage] at covers
    split at covers
    · cases covers
    · rename_i noGap
      obtain ⟨onward, size, octets⟩ := ih covers
      simp only [join]
      split
      · rename_i known
        rw [Nat.max_eq_left known] at onward size octets
        refine ⟨onward, size, fun index octet found => ?_⟩
        obtain ⟨e, member, has⟩ := octets index octet found
        exact ⟨e, List.mem_cons_of_mem _ member, has⟩
      · rename_i new
        rw [Nat.max_eq_right (by omega)] at onward size octets
        have added : (data.drop (covered - offset)).length = offset + data.length - covered := by
          rw [List.length_drop]
          omega
        refine ⟨by omega, by rw [List.length_append, added, size]; omega, fun index octet found => ?_⟩
        by_cases here : index < offset + data.length - covered
        · rw [List.getElem?_append_left (by omega), List.getElem?_drop] at found
          refine ⟨(offset, data), List.mem_cons_self, by show offset ≤ covered + index; omega, ?_⟩
          show data[covered + index - offset]? = some octet
          rw [← found]
          congr 1
          omega
        · rw [List.getElem?_append_right (by omega), added] at found
          obtain ⟨e, member, begins, has⟩ := octets _ octet found
          have place : offset + data.length + (index - (offset + data.length - covered)) = covered + index := by omega
          rw [place] at begins has
          exact ⟨e, List.mem_cons_of_mem _ member, begins, has⟩

end Partial

/-! ## Where segments come from -/

/-- Whether a segment came in one of some data units under a number, and ends inside the range of offsets. -/
def Came (pdus : List Bytes) (n : Nat) (g : Segment) : Prop :=
  (∃ pdu ∈ pdus, SegmentHeader.parse pdu = .ok (g.header, g.data)) ∧ g.header.sn.toNat = n ∧ g.stop ≤ lastWord

theorem Came.mono {pdus pdus' : List Bytes} {n : Nat} {g : Segment} (came : Came pdus n g) (more : pdus ⊆ pdus') :
    Came pdus' n g := by
  obtain ⟨⟨pdu, member, parsed⟩, rest⟩ := came
  exact ⟨⟨pdu, more member, parsed⟩, rest⟩

/-- Whether a unit is made of segments that came under a number: one of them is marked as the last and ends at a place
that the unit reaches, and each octet of the unit is one that a segment carried at this place. -/
structure MadeOf (pdus : List Bytes) (n total : Nat) (sdu : Bytes) : Prop where
  long : total ≤ sdu.length
  last : ∃ g, Came pdus n g ∧ g.header.flags.last = true ∧ g.stop = total
  octets : ∀ place octet, sdu[place]? = some octet →
    ∃ g, Came pdus n g ∧ g.start ≤ place ∧ g.data[place - g.start]? = some octet

namespace Partial
variable {pdus pdus' : List Bytes} {n : Nat} {p q : Partial}

/-- Whether a unit in parts has nothing but segments that came under a number, and the length that one of them claims. -/
structure DrawnFrom (pdus : List Bytes) (n : Nat) (p : Partial) : Prop where
  segments : ∀ offset data, p.segments.get? offset = some data → ∃ g, Came pdus n g ∧ g.start = offset ∧ g.data = data
  total : ∀ total, p.total = some total → ∃ g, Came pdus n g ∧ g.header.flags.last = true ∧ g.stop = total

theorem drawnFrom_empty (pdus : List Bytes) (n : Nat) : empty.DrawnFrom pdus n where
  segments := fun offset data found => by cases found
  total := fun total known => by cases known

theorem DrawnFrom.mono (drawn : p.DrawnFrom pdus n) (more : pdus ⊆ pdus') : p.DrawnFrom pdus' n where
  segments := fun offset data found => by
    obtain ⟨g, came, rest⟩ := drawn.segments offset data found
    exact ⟨g, came.mono more, rest⟩
  total := fun total known => by
    obtain ⟨g, came, rest⟩ := drawn.total total known
    exact ⟨g, came.mono more, rest⟩

theorem DrawnFrom.inRange (drawn : p.DrawnFrom pdus n) : p.InRange := fun e member => by
  obtain ⟨g, ⟨-, -, inside⟩, start, data⟩ := drawn.segments e.1 e.2 ((SortedMap.get?_eq_some_iff _ _ _).2 member)
  rw [← start, ← data]
  exact inside

theorem DrawnFrom.insert? (drawn : p.DrawnFrom pdus n) {g : Segment} (came : Came pdus n g)
    (grown : p.insert? g.start g.data g.header.flags.last = some q) : q.DrawnFrom pdus n where
  segments := fun offset data found => by
    rcases (segments_insert? grown offset data).1 found with old | ⟨rfl, rfl⟩
    · exact drawn.segments offset data old
    · exact ⟨g, came, rfl, rfl⟩
  total := fun total known => by
    rw [total_insert? grown] at known
    cases marked : g.header.flags.last with
    | true =>
      rw [marked, if_pos rfl] at known
      exact ⟨g, came, marked, Option.some.inj known⟩
    | false =>
      rw [marked, if_neg Bool.false_ne_true] at known
      exact drawn.total total known

theorem DrawnFrom.merge (drawn : p.DrawnFrom pdus n) (drawn' : q.DrawnFrom pdus n) : (p.merge q).DrawnFrom pdus n where
  segments := fun offset data found => by
    rw [get?_merge, Option.or_eq_some_iff] at found
    rcases found with own | ⟨-, other⟩
    · exact drawn.segments offset data own
    · exact drawn'.segments offset data other
  total := fun total known => by
    rcases Option.or_eq_some_iff.1 known with own | ⟨-, other⟩
    · exact drawn.total total own
    · exact drawn'.total total other

/-- What complete segments make up is made of the segments that came. -/
theorem DrawnFrom.madeOf (drawn : p.DrawnFrom pdus n) (whole : p.isComplete = true) :
    ∃ total, p.total = some total ∧ MadeOf pdus n total p.assemble := by
  obtain ⟨total, reached, known, covers, enough⟩ := exists_of_isComplete whole
  obtain ⟨-, size, octets⟩ := octet_of_join covers
  refine ⟨total, known, by rw [assemble, size]; omega, drawn.total total known, fun place octet found => ?_⟩
  obtain ⟨e, member, begins, has⟩ := octets place octet found
  obtain ⟨g, came, start, data⟩ := drawn.segments e.1 e.2 ((SortedMap.get?_eq_some_iff _ _ _).2 member)
  rw [Nat.zero_add] at begins has
  exact ⟨g, came, start ▸ begins, by rw [start, data]; exact has⟩

end Partial

namespace ReceiveState
variable {s t : ReceiveState} {pdus pdus' : List Bytes} {n window : Nat} {header : SegmentHeader} {data : Bytes}

/-- Whether nothing waits in a state but what segments tell that came under its number. -/
def DrawnFrom (pdus : List Bytes) (s : ReceiveState) : Prop :=
  ∀ n p, s.pending.get? n = some p → p.DrawnFrom pdus n

theorem DrawnFrom.mono (drawn : s.DrawnFrom pdus) (more : pdus ⊆ pdus') : s.DrawnFrom pdus' :=
  fun n p found => (drawn n p found).mono more

theorem DrawnFrom.getD (drawn : s.DrawnFrom pdus) (n : Nat) : ((s.pending.get? n).getD .empty).DrawnFrom pdus n := by
  cases found : s.pending.get? n with
  | none => exact Partial.drawnFrom_empty pdus n
  | some p => exact drawn n p found

theorem DrawnFrom.makeRoom (drawn : s.DrawnFrom pdus) (window sn : Nat) : (s.makeRoom window sn).DrawnFrom pdus :=
  fun n p found => drawn n p (pending_makeRoom found)

theorem DrawnFrom.grown (drawn : s.DrawnFrom pdus) (came : Came pdus header.sn.toNat ⟨header, data⟩) {p : Partial}
    (grown : s.grown? window header data = some p) : p.DrawnFrom pdus header.sn.toNat :=
  ((drawn.makeRoom window header.sn.toNat).getD header.sn.toNat).insert? (g := ⟨header, data⟩) came grown

theorem DrawnFrom.store (drawn : s.DrawnFrom pdus) {sn : Nat} {p : Partial} (part : p.DrawnFrom pdus sn) :
    (s.store window sn p).DrawnFrom pdus := by
  intro n q found
  rcases pending_of_store found with ⟨rfl, rfl⟩ | ⟨-, before⟩
  · exact part
  · exact drawn.makeRoom window sn n q before

theorem DrawnFrom.handedOut (drawn : s.DrawnFrom pdus) (sn : Nat) : (s.handedOut sn).DrawnFrom pdus := by
  intro n q found
  rw [pending_handedOut, Option.ite_none_left_eq_some] at found
  exact drawn n q found.2

/-- A segment that came leaves only such behind, and a unit that it makes a state hand out is made of such. -/
theorem DrawnFrom.accept (drawn : s.DrawnFrom pdus) (came : Came pdus header.sn.toNat ⟨header, data⟩) (window : Nat) :
    (s.accept window header data).2.DrawnFrom pdus ∧
      ∀ sdu, (s.accept window header data).1 = some sdu →
        ∃ total, (s.grown? window header data).bind (·.total) = some total ∧
          MadeOf pdus header.sn.toNat total sdu := by
  have taken := taken_accept s window header data
  generalize s.accept window header data = answer at taken ⊢
  cases taken with
  | late done => exact ⟨drawn, fun sdu h => by cases h⟩
  | again fresh known => exact ⟨drawn.makeRoom window _, fun sdu h => by cases h⟩
  | stored p fresh grown lacking => exact ⟨drawn.store (drawn.grown came grown), fun sdu h => by cases h⟩
  | completed p fresh grown whole =>
    have part := drawn.grown came grown
    refine ⟨(drawn.store part).handedOut _, fun sdu h => ?_⟩
    obtain ⟨total, known, made⟩ := part.madeOf whole
    rw [grown, ← Option.some.inj h]
    exact ⟨total, known, made⟩

theorem DrawnFrom.joined (drawn : s.DrawnFrom pdus) (drawn' : t.DrawnFrom pdus) : (s.joined t).DrawnFrom pdus := by
  intro n p found
  rw [pending_joined] at found
  cases waits : t.pending.get? n with
  | none =>
    rw [waits] at found
    exact drawn n p found
  | some q =>
    rw [waits] at found
    change (if s.Done n ∨ t.Done n then s.pending.get? n else _) = some p at found
    split at found
    · exact drawn n p found
    · rw [← Option.some.inj found]
      exact (drawn.getD n).merge (drawn' n q waits)

theorem DrawnFrom.reconcile (drawn : s.DrawnFrom pdus) (drawn' : t.DrawnFrom pdus) :
    (s.reconcile t).2.DrawnFrom pdus ∧
      ∀ sdu ∈ (s.reconcile t).1, ∃ n total, ((s.joined t).pending.get? n).bind (·.total) = some total ∧
        MadeOf pdus n total sdu := by
  have joined := drawn.joined drawn'
  constructor
  · intro n p found
    rw [pending_reconcile, Option.ite_none_left_eq_some] at found
    exact joined n p found.2
  · intro sdu member
    rw [reconcile_eq_handedOut] at member
    obtain ⟨n, ready, rfl⟩ := List.mem_map.1 member
    obtain ⟨p, found, whole⟩ := (mem_ready_iff _ n).1 ready
    obtain ⟨total, known, made⟩ := (joined n p found).madeOf whole
    rw [unitOf, found]
    exact ⟨n, total, by rw [found]; exact known, made⟩

/-! ## Computing in words -/

theorem completeInWords_eq {sn : Nat} {p : Partial} (found : s.pending.get? sn = some p) (inRange : p.InRange)
    (whole : p.isComplete = true) : s.completeInWords sn = some (s.complete sn) := by
  simp only [completeInWords, complete, found, Partial.assembleInWords_eq inRange whole]
  rfl

/-- A state takes in a segment without leaving the range of words. -/
theorem acceptInWords_eq (drawn : s.DrawnFrom pdus) (came : Came pdus header.sn.toNat ⟨header, data⟩) (window : Nat) :
    s.acceptInWords window header data = some (s.accept window header data) := by
  rw [acceptInWords]
  by_cases done : s.Done header.sn.toNat
  · rw [if_pos done, accept, if_pos (by simpa [Done] using done)]
    rfl
  · have inside : header.offset.toNat + data.length ≤ lastWord := came.2.2
    rw [if_neg done, accept_of_fresh done]
    simp only [Partial.insertInWords_eq _ inside, Option.bind_eq_bind, Option.bind_some]
    rw [← grown?]
    cases grown : s.grown? window header data with
    | none => rfl
    | some p =>
      have inRange := (drawn.grown came grown).inRange
      simp only [Partial.isCompleteInWords_eq inRange, Option.bind_some]
      cases whole : p.isComplete with
      | false => rfl
      | true =>
        have found : (s.store window header.sn.toNat p).pending.get? header.sn.toNat = some p :=
          SortedMap.get?_insert_self _ _ _
        rw [completeInWords_eq found inRange whole, complete, found]
        rfl

theorem readyInWords_eq {l : List (Nat × Partial)} (inRange : ∀ e ∈ l, e.2.InRange) :
    readyInWords l = some ((l.filter fun e => e.2.isComplete).map Prod.fst) := by
  induction l with
  | nil => rfl
  | cons x rest ih =>
    obtain ⟨sn, p⟩ := x
    have here := Partial.isCompleteInWords_eq (inRange _ List.mem_cons_self)
    have later := ih fun e member => inRange e (List.mem_cons_of_mem _ member)
    simp only at here
    rw [readyInWords, here, later]
    cases whole : p.isComplete <;> simp [whole]

theorem completeAllInWords_eq {l : List Nat}
    (whole : ∀ n ∈ l, ∀ p, s.pending.get? n = some p → p.InRange ∧ p.isComplete = true) :
    s.completeAllInWords l = some (s.completeAll l) := by
  induction l generalizing s with
  | nil => rfl
  | cons n rest ih =>
    rw [completeAllInWords, completeAll]
    cases found : s.pending.get? n with
    | none =>
      have later := ih fun k member => whole k (List.mem_cons_of_mem _ member)
      simp only [completeInWords, complete, found, Option.map_none]
      exact later
    | some p =>
      obtain ⟨inRange, complete_now⟩ := whole n List.mem_cons_self p found
      have later := ih (s := s.handedOut n) fun k member q waits => by
        rw [pending_handedOut, Option.ite_none_left_eq_some] at waits
        exact whole k (List.mem_cons_of_mem _ member) q waits.2
      have completed : s.complete n = some (p.assemble, s.handedOut n) := by rw [complete, found]; rfl
      rw [completeInWords_eq found inRange complete_now, completed]
      simp only [Option.bind_eq_bind, Option.bind_some, later]
      rfl

/-- A state takes over another one without leaving the range of words. -/
theorem reconcileInWords_eq (drawn : s.DrawnFrom pdus) (drawn' : t.DrawnFrom pdus) :
    s.reconcileInWords t = some (s.reconcile t) := by
  have joined := drawn.joined drawn'
  have inRange : ∀ e ∈ (s.joined t).pending.entries, e.2.InRange := fun e member =>
    (joined e.1 e.2 ((SortedMap.get?_eq_some_iff _ _ _).2 member)).inRange
  have numbers : readyInWords (s.joined t).pending.entries = some (s.joined t).ready := readyInWords_eq inRange
  rw [reconcileInWords, numbers]
  refine completeAllInWords_eq fun n member p found => ?_
  obtain ⟨q, found', whole⟩ := (mem_ready_iff _ n).1 member
  obtain rfl := Option.some.inj (found.symm.trans found')
  exact ⟨(joined n p found).inRange, whole⟩

end ReceiveState

/-! ## Receivers -/

namespace Receiver

/-- All data units that led to a receiver, those of the receivers whose states it took over included. -/
def Past.pdus : Past → List Bytes
  | .new _ _ _ => []
  | .data past pdu => past.pdus ++ [pdu]
  | .takeover past other _ => past.pdus ++ other.pdus

variable {r : Receiver} {pdus : List Bytes}

theorem drawn_next (drawn : r.state.DrawnFrom pdus) (pdu : Bytes) :
    (r.next pdu).state.DrawnFrom (pdus ++ [pdu]) := by
  have more := drawn.mono (List.subset_append_left pdus [pdu])
  rcases r.next_state pdu with ⟨same, -, -⟩ | ⟨header, data, parsed, inside, state, -⟩
  · rw [same]
    exact more
  · rw [state]
    exact (more.accept ⟨⟨pdu, List.mem_concat_self, parsed⟩, rfl, inside⟩ r.window).1

theorem drawn_handOver (drawn : r.state.DrawnFrom pdus) (clear : Bool) : (r.handOver clear).DrawnFrom pdus := by
  cases clear with
  | false => exact drawn
  | true => exact fun n p found => by cases found

theorem Past.drawn (past : Past) : past.receiver.state.DrawnFrom past.pdus := by
  induction past with
  | new key path window => exact fun n p found => by cases found
  | data past pdu ih => exact drawn_next ih pdu
  | takeover past other clear ih ih' =>
    exact ((ih.mono (List.subset_append_left _ _)).reconcile
      ((drawn_handOver ih' clear).mono (List.subset_append_right _ _))).1

theorem receiveInWords_eq (drawn : r.state.DrawnFrom pdus) (pdu : Bytes) :
    r.receiveInWords pdu = some (r.receive pdu) := by
  cases parsed : SegmentHeader.parse pdu with
  | error cause => simp [receiveInWords, receive, parsed, bind, Except.bind]
  | ok fields =>
    obtain ⟨header, data⟩ := fields
    simp only [receiveInWords, receive, parsed, bind, Except.bind]
    split
    · rfl
    · rename_i inside
      have came : Came (pdus ++ [pdu]) header.sn.toNat ⟨header, data⟩ :=
        ⟨⟨pdu, List.mem_concat_self, parsed⟩, rfl, Nat.not_lt.1 inside⟩
      rw [ReceiveState.acceptInWords_eq (drawn.mono (List.subset_append_left _ _)) came]
      rfl

/-- A receiver with any past is given any byte string. It computes its answer without leaving the range of words,
subtracting more than there is or slicing beyond the end of data. If the byte string is refused, nothing changes. If it
makes the receiver hand out a unit, the unit is as long at least as the place where a segment under its number ends that
came marked as the last, and all its octets came under this number at their places. The same is true when the receiver
takes over the state of another one with any past. -/
theorem receive_robust (past : Past) (pdu : Bytes) :
    let r := past.receiver
    r.receiveInWords pdu = some (r.receive pdu) ∧
      (∀ cause, r.receive pdu = .error cause → r.next pdu = r) ∧
      (∀ sdu after, r.receive pdu = .ok (some sdu, after) →
        ∃ header data total, SegmentHeader.parse pdu = .ok (header, data) ∧
          (r.state.grown? r.window header data).bind (·.total) = some total ∧
          MadeOf (past.pdus ++ [pdu]) header.sn.toNat total sdu) ∧
      ∀ (other : Past) (clear : Bool),
        let prior := other.receiver.handOver clear
        r.state.reconcileInWords prior = some (r.state.reconcile prior) ∧
          ∀ sdu ∈ (r.reconcile prior).1, ∃ n total,
            ((r.state.joined prior).pending.get? n).bind (·.total) = some total ∧
              MadeOf (past.pdus ++ other.pdus) n total sdu := by
  intro r
  have drawn : r.state.DrawnFrom past.pdus := past.drawn
  refine ⟨receiveInWords_eq drawn pdu, fun cause refused => by rw [next, refused], fun sdu after answered => ?_,
    fun other clear => ?_⟩
  · obtain ⟨header, data, parsed, inside, same⟩ := receive_eq_ok_iff.1 answered
    have came : Came (past.pdus ++ [pdu]) header.sn.toNat ⟨header, data⟩ :=
      ⟨⟨pdu, List.mem_concat_self, parsed⟩, rfl, inside⟩
    obtain ⟨total, known, made⟩ :=
      ((drawn.mono (List.subset_append_left _ _)).accept came r.window).2 sdu (Prod.mk.inj same).1.symm
    exact ⟨header, data, total, parsed, known, made⟩
  · have own := drawn.mono (List.subset_append_left past.pdus other.pdus)
    have others := (drawn_handOver other.drawn clear).mono (List.subset_append_right past.pdus other.pdus)
    exact ⟨ReceiveState.reconcileInWords_eq own others, (own.reconcile others).2⟩

end Receiver
end Sidelink
