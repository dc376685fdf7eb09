import Sidelink.Proofs.Pending

/-!
A calendar as its users see it. An agenda is nothing but the events that wait: a cancelled one leaves it at once, and
the next event is the one that is due first (`Agenda.first?`). Whatever is asked of a calendar, it answers as an agenda
does (`Calendar.answers_as_agenda`), although cancelled events stay in its heap until they come to the root. The two are
joined by `Calendar.Shows`: what waits in the calendar is what the agenda lists.
-/
namespace Sidelink

namespace Calendar
variable {ε : Type}

/-! ## Order in a heap -/

theorem Entry.due_iff (a b : Entry ε) : a.due b = true ↔ a.time < b.time ∨ a.time = b.time ∧ a.id ≤ b.id := by
  simp [due]

theorem Entry.due_of_not {a b : Entry ε} (later : ¬ a.due b = true) : b.due a = true := by
  rw [due_iff] at *
  grind

theorem Entry.due_trans {a b c : Entry ε} (first : a.due b = true) (second : b.due c = true) : a.due c = true := by
  rw [due_iff] at *
  grind

/-- Whether an entry is due before another, or at the same instant and was entered before it. -/
def Entry.Before (a b : Entry ε) : Prop := a.time < b.time ∨ a.time = b.time ∧ a.id < b.id

theorem Entry.before_of_due {a b : Entry ε} (due : a.due b = true) (other : a.id ≠ b.id) : a.Before b := by
  rw [due_iff] at due
  rcases due with earlier | ⟨same, first⟩
  · exact Or.inl earlier
  · exact Or.inr ⟨same, Nat.lt_of_le_of_ne first other⟩

namespace Heap

/-- Whether no entry is due before the entries above it. -/
def Ordered : Heap ε → Prop
  | leaf => True
  | node _ e l r => (∀ x ∈ l.toList ++ r.toList, e.due x = true) ∧ l.Ordered ∧ r.Ordered

theorem ordered_join {entry : Entry ε} {a b : Heap ε} (first : ∀ x ∈ a.toList ++ b.toList, entry.due x = true)
    (left : a.Ordered) (right : b.Ordered) : (join entry a b).Ordered := by
  unfold join
  split
  · exact ⟨first, left, right⟩
  · refine ⟨fun x member => first x ?_, right, left⟩
    exact List.perm_append_comm.mem_iff.1 member

theorem ordered_mergeInto {entry : Entry ε} {left whole : Heap ε} {mergeRight : Heap ε → Heap ε}
    {right : List (Entry ε)} (merges : ∀ h, (mergeRight h).toList.Perm (right ++ h.toList))
    (orders : ∀ h : Heap ε, h.Ordered → (mergeRight h).Ordered) (parts : whole.toList = entry :: (left.toList ++ right))
    (first : ∀ x ∈ left.toList ++ right, entry.due x = true) (leftOrdered : left.Ordered) (wholeOrdered : whole.Ordered)
    {h : Heap ε} (ordered : h.Ordered) : (mergeInto entry left mergeRight whole h).Ordered := by
  induction h with
  | leaf => exact wholeOrdered
  | node s e l r _ ih =>
    obtain ⟨top, lOrdered, rOrdered⟩ := ordered
    unfold mergeInto
    split
    · rename_i before
      refine ordered_join (fun x member => ?_) leftOrdered (orders _ ⟨top, lOrdered, rOrdered⟩)
      rcases List.mem_append.1 member with inLeft | merged
      · exact first x (List.mem_append_left _ inLeft)
      · rcases List.mem_append.1 ((merges _).mem_iff.1 merged) with inRight | below
        · exact first x (List.mem_append_right _ inRight)
        · rcases List.mem_cons.1 below with rfl | below
          · exact before
          · exact Entry.due_trans before (top x below)
    · rename_i after
      have before := Entry.due_of_not after
      refine ordered_join (fun x member => ?_) lOrdered (ih rOrdered)
      rcases List.mem_append.1 member with inLeft | merged
      · exact top x (List.mem_append_left _ inLeft)
      · rcases List.mem_append.1 ((toList_mergeInto merges parts r).mem_iff.1 merged) with inWhole | inRight
        · rw [parts] at inWhole
          rcases List.mem_cons.1 inWhole with rfl | below
          · exact before
          · exact Entry.due_trans before (first x below)
        · exact top x (List.mem_append_right _ inRight)

theorem ordered_merge {a b : Heap ε} (left : a.Ordered) (right : b.Ordered) : (merge a b).Ordered := by
  induction a generalizing b with
  | leaf => exact right
  | node s e l r _ ih =>
    have whole := left
    obtain ⟨top, lOrdered, rOrdered⟩ := left
    exact ordered_mergeInto (toList_merge r) (fun h ordered => ih rOrdered ordered) rfl top lOrdered whole right

theorem ordered_insert {h : Heap ε} (ordered : h.Ordered) (entry : Entry ε) : (h.insert entry).Ordered :=
  ordered_merge (a := node 1 entry leaf leaf) ⟨by simp [toList], trivial, trivial⟩ ordered

/-- The entry at the root of a heap is due first. -/
theorem ordered_pop? {h rest : Heap ε} {entry : Entry ε} (ordered : h.Ordered) (popped : h.pop? = some (entry, rest)) :
    rest.Ordered ∧ ∀ x ∈ rest.toList, entry.due x = true := by
  cases h with
  | leaf => cases popped
  | node s e l r =>
    obtain ⟨rfl, rfl⟩ := Prod.mk.inj (Option.some.inj popped)
    obtain ⟨top, lOrdered, rOrdered⟩ := ordered
    exact ⟨ordered_merge lOrdered rOrdered, fun x member => top x ((toList_merge l r).mem_iff.1 member)⟩

end Heap

theorem ordered_dropDead (live : Std.TreeSet EventId) (fuel : Nat) {h : Heap ε} (ordered : h.Ordered) :
    (dropDead live fuel h).Ordered := by
  induction fuel generalizing h with
  | zero => exact ordered
  | succ fuel ih =>
    unfold dropDead
    cases popped : h.pop? with
    | none => exact ordered
    | some answer =>
      simp only
      split
      · exact ordered
      · exact ih (Heap.ordered_pop? ordered popped).1

end Calendar

/-! ## Requests and answers -/

/-- A look at a calendar. -/
inductive Look where
  | peek
  | isPending (id : EventId)
  | size
  | now

/-- What can be asked of a calendar. -/
inductive Request (ε : Type) where
  | schedule (time : SimTime) (event : ε)
  | cancel (id : EventId)
  | next
  | look (what : Look)

inductive Answer (ε : Type) where
  | scheduled (result : Except PastEvent EventId)
  /-- Whether the event of a number still waited when it was cancelled. -/
  | cancelled (id : EventId) (waited : Bool)
  | next (entry : Option (Calendar.Entry ε))
  | peeked (time : Option SimTime)
  | pending (waits : Bool)
  | size (count : Nat)
  | now (time : SimTime)

namespace Answer
variable {ε : Type}

/-- The number that an event was given. -/
def given? : Answer ε → Option EventId
  | scheduled (.ok id) => some id
  | _ => none

/-- The event that was handed out. -/
def entry? : Answer ε → Option (Calendar.Entry ε)
  | next entry => entry
  | _ => none

/-- The number of the event that waits no longer: it was handed out, or cancelled while it waited. -/
def spent? : Answer ε → Option EventId
  | next (some entry) => some entry.id
  | cancelled id true => some id
  | _ => none

end Answer

namespace Calendar
variable {ε : Type}

/-- What a calendar answers to a request, and the calendar afterwards. -/
def answer (c : Calendar ε) : Request ε → Answer ε × Calendar ε
  | .schedule time event =>
    match c.schedule time event with
    | .ok (id, c) => (.scheduled (.ok id), c)
    | .error past => (.scheduled (.error past), c)
  | .cancel id => (.cancelled id (c.cancel id).1, (c.cancel id).2)
  | .next =>
    match c.pop with
    | some (entry, c) => (.next (some entry), c)
    | none => (.next none, c)
  | .look .peek => (.peeked c.peek.1, c.peek.2)
  | .look (.isPending id) => (.pending (c.isPending id), c)
  | .look .size => (.size c.size, c)
  | .look .now => (.now c.now, c)

def answers (c : Calendar ε) : List (Request ε) → List (Answer ε)
  | [] => []
  | r :: rest => (c.answer r).1 :: (c.answer r).2.answers rest

/-- The calendar after some requests. -/
def asked (c : Calendar ε) (rs : List (Request ε)) : Calendar ε := rs.foldl (fun c r => (c.answer r).2) c

end Calendar

/-- The events that wait, in no particular order, each with the instant it is due at and its number. -/
structure Agenda (ε : Type) where
  entries : List (Calendar.Entry ε)
  nextId : EventId
  now : SimTime

namespace Agenda
variable {ε : Type}

def empty : Agenda ε := ⟨[], 0, 0⟩

/-- The event that is due first. -/
def first? (a : Agenda ε) : Option (Calendar.Entry ε) := a.entries.find? fun e => a.entries.all fun x => e.due x

/-- Whether the event of a number waits. -/
def waits (a : Agenda ε) (id : EventId) : Bool := a.entries.any (·.id = id)

/-- The agenda without the event of a number. -/
def without (a : Agenda ε) (id : EventId) : Agenda ε := { a with entries := a.entries.filter (·.id ≠ id) }

/-- What an agenda answers to a request, and the agenda afterwards. -/
def answer (a : Agenda ε) : Request ε → Answer ε × Agenda ε
  | .schedule time event =>
    if time < a.now then (.scheduled (.error ⟨time, a.now⟩), a)
    else (.scheduled (.ok a.nextId), { a with entries := ⟨time, a.nextId, event⟩ :: a.entries, nextId := a.nextId + 1 })
  | .cancel id => (.cancelled id (a.waits id), a.without id)
  | .next =>
    match a.first? with
    | some e => (.next (some e), { a.without e.id with now := e.time })
    | none => (.next none, a)
  | .look .peek => (.peeked (a.first?.map (·.time)), a)
  | .look (.isPending id) => (.pending (a.waits id), a)
  | .look .size => (.size a.entries.length, a)
  | .look .now => (.now a.now, a)

def answers (a : Agenda ε) : List (Request ε) → List (Answer ε)
  | [] => []
  | r :: rest => (a.answer r).1 :: (a.answer r).2.answers rest

/-! ## What an agenda promises -/

variable {a b : Agenda ε}

theorem waits_eq_true_iff {id : EventId} : a.waits id = true ↔ ∃ e ∈ a.entries, e.id = id := by
  simp [waits]

theorem first?_eq_some {e : Calendar.Entry ε} (first : a.first? = some e) :
    e ∈ a.entries ∧ ∀ x ∈ a.entries, e.due x = true := by
  have due := List.find?_some first
  exact ⟨List.mem_of_find?_eq_some first, List.all_eq_true.1 due⟩

/-- An event that is due no later than all others is the one that is due first. -/
theorem first?_of_due (distinct : (a.entries.map Calendar.Entry.id).Nodup) {e : Calendar.Entry ε}
    (member : e ∈ a.entries) (due : ∀ x ∈ a.entries, e.due x = true) : a.first? = some e := by
  have found : a.first?.isSome = true := List.find?_isSome.2 ⟨e, member, List.all_eq_true.2 due⟩
  obtain ⟨f, first⟩ := Option.isSome_iff_exists.1 found
  obtain ⟨member', due'⟩ := first?_eq_some first
  have there := (Calendar.Entry.due_iff _ _).1 (due f member')
  have back := (Calendar.Entry.due_iff _ _).1 (due' e member)
  have same : f.id = e.id := by grind
  rw [first, List.inj_on_of_nodup_map distinct member' member same]

/-- Everything that a request can do to an agenda. -/
inductive Outcome (a : Agenda ε) : Answer ε → Agenda ε → Prop
  | entered (time : SimTime) (event : ε) (ahead : a.now ≤ time) :
      Outcome a (.scheduled (.ok a.nextId))
        { a with entries := ⟨time, a.nextId, event⟩ :: a.entries, nextId := a.nextId + 1 }
  | withdrawn (id : EventId) (waited : a.waits id = true) : Outcome a (.cancelled id true) (a.without id)
  | handedOut (e : Calendar.Entry ε) (first : a.first? = some e) :
      Outcome a (.next (some e)) { a.without e.id with now := e.time }
  | calm {answer : Answer ε} (nothing : answer.given? = none ∧ answer.entry? = none ∧ answer.spent? = none) :
      Outcome a answer a

theorem outcome_answer (a : Agenda ε) (r : Request ε) : Outcome a (a.answer r).1 (a.answer r).2 := by
  cases r with
  | schedule time event =>
    simp only [answer]
    split
    · exact .calm ⟨rfl, rfl, rfl⟩
    · rename_i ahead
      exact .entered time event (Nat.not_lt.1 ahead)
  | cancel id =>
    simp only [answer]
    by_cases waited : a.waits id = true
    · rw [waited]
      exact .withdrawn id waited
    · have same : a.without id = a := by
        have all : ∀ e ∈ a.entries, e.id ≠ id := fun e member h => waited (waits_eq_true_iff.2 ⟨e, member, h⟩)
        simp only [without, List.filter_eq_self.2 fun e member => decide_eq_true (all e member)]
      rw [same, eq_false_of_ne_true waited]
      exact .calm ⟨rfl, rfl, rfl⟩
  | next =>
    simp only [answer]
    cases first : a.first? with
    | some e => exact .handedOut e first
    | none => exact .calm ⟨rfl, rfl, rfl⟩
  | look what => cases what <;> exact .calm ⟨rfl, rfl, rfl⟩

/-- Whether every event that waits has a number of its own that was given out, and none is overdue. -/
structure Sound (a : Agenda ε) : Prop where
  distinct : (a.entries.map Calendar.Entry.id).Nodup
  numbered : ∀ e ∈ a.entries, e.id < a.nextId
  ahead : ∀ e ∈ a.entries, a.now ≤ e.time

theorem sound_empty : (empty : Agenda ε).Sound := ⟨List.nodup_nil, by simp [empty], by simp [empty]⟩

theorem sound_without (sound : a.Sound) (id : EventId) : (a.without id).Sound where
  distinct := sound.distinct.sublist (List.filter_sublist.map _)
  numbered := fun e member => sound.numbered e (List.mem_filter.1 member).1
  ahead := fun e member => sound.ahead e (List.mem_filter.1 member).1

theorem Outcome.sound {answer : Answer ε} (outcome : Outcome a answer b) (sound : a.Sound) : b.Sound := by
  cases outcome with
  | entered time event ahead =>
    refine ⟨List.nodup_cons.2 ⟨fun known => ?_, sound.distinct⟩, fun e member => ?_, fun e member => ?_⟩
    · obtain ⟨e, member, same⟩ := List.mem_map.1 known
      exact Nat.ne_of_lt (sound.numbered e member) same
    · rcases List.mem_cons.1 member with rfl | old
      · exact Nat.lt_succ_self _
      · exact Nat.lt_succ_of_lt (sound.numbered e old)
    · rcases List.mem_cons.1 member with rfl | old
      · exact ahead
      · exact sound.ahead e old
  | withdrawn id waited => exact sound_without sound id
  | handedOut e first =>
    have rest := sound_without sound e.id
    refine ⟨rest.distinct, rest.numbered, fun x member => ?_⟩
    have due := (first?_eq_some first).2 x (List.mem_filter.1 member).1
    rw [Calendar.Entry.due_iff] at due
    rcases due with earlier | ⟨same, -⟩
    · exact Nat.le_of_lt earlier
    · exact Nat.le_of_eq same
  | calm => exact sound

/-- An agenda goes on from what it was: events leave it, and those that are entered are not due before now. -/
theorem Outcome.onward {answer : Answer ε} (outcome : Outcome a answer b) (sound : a.Sound) :
    a.now ≤ b.now ∧ a.nextId ≤ b.nextId ∧ ∀ f ∈ b.entries, f ∈ a.entries ∨ a.now ≤ f.time ∧ a.nextId ≤ f.id := by
  cases outcome with
  | entered time event ahead =>
    refine ⟨Nat.le_refl _, Nat.le_succ _, fun f member => ?_⟩
    rcases List.mem_cons.1 member with rfl | old
    · exact Or.inr ⟨ahead, Nat.le_refl _⟩
    · exact Or.inl old
  | withdrawn id waited => exact ⟨Nat.le_refl _, Nat.le_refl _, fun f member => Or.inl (List.mem_filter.1 member).1⟩
  | handedOut e first =>
    exact ⟨sound.ahead e (first?_eq_some first).1, Nat.le_refl _, fun f member => Or.inl (List.mem_filter.1 member).1⟩
  | calm => exact ⟨Nat.le_refl _, Nat.le_refl _, fun f member => Or.inl member⟩

/-- What is handed out or cancelled later waits already or is yet to be entered, and numbers given out later are new. -/
theorem later_answers (sound : a.Sound) (rs : List (Request ε)) {answer : Answer ε} (told : answer ∈ a.answers rs) :
    (∀ f, answer.entry? = some f → f ∈ a.entries ∨ a.now ≤ f.time ∧ a.nextId ≤ f.id) ∧
      (∀ id, answer.spent? = some id → a.waits id = true ∨ a.nextId ≤ id) ∧
      ∀ id, answer.given? = some id → a.nextId ≤ id := by
  induction rs generalizing a with
  | nil => cases told
  | cons r rest ih =>
    have outcome := outcome_answer a r
    rw [answers] at told
    generalize a.answer r = y at outcome told
    obtain ⟨x, b⟩ := y
    rcases List.mem_cons.1 told with rfl | later
    · cases outcome with
      | entered time event ahead =>
        exact ⟨fun f h => (by cases h), fun id h => (by cases h), fun id h => Nat.le_of_eq (Option.some.inj h)⟩
      | withdrawn id waited =>
        exact ⟨fun f h => (by cases h), fun id h => Or.inl (Option.some.inj h ▸ waited), fun id h => by cases h⟩
      | handedOut e first =>
        have member := (first?_eq_some first).1
        exact ⟨fun f h => Or.inl (Option.some.inj h ▸ member),
          fun id h => Or.inl (waits_eq_true_iff.2 ⟨e, member, Option.some.inj h⟩), fun id h => by cases h⟩
      | calm nothing => simp [nothing]
    · obtain ⟨clock, numbers, known⟩ := outcome.onward sound
      obtain ⟨entry, spent, given⟩ := ih (outcome.sound sound) later
      have waited {f : Calendar.Entry ε} (member : f ∈ b.entries) := known f member
      refine ⟨fun f h => ?_, fun id h => ?_, fun id h => Nat.le_trans numbers (given id h)⟩
      · rcases entry f h with member | ⟨time, id⟩
        · exact waited member
        · exact Or.inr ⟨Nat.le_trans clock time, Nat.le_trans numbers id⟩
      · rcases spent id h with waits | new
        · obtain ⟨e, member, rfl⟩ := waits_eq_true_iff.1 waits
          exact (waited member).imp (fun old => waits_eq_true_iff.2 ⟨e, old, rfl⟩) And.right
        · exact Or.inr (Nat.le_trans numbers new)

/-- Events are handed out in the order in which they are due, those of one instant in the order in which they were
entered; numbers are given out in increasing order, and no number is spent twice. -/
theorem told_in_order (sound : a.Sound) (rs : List (Request ε)) :
    ((a.answers rs).filterMap Answer.entry?).Pairwise Calendar.Entry.Before ∧
      ((a.answers rs).filterMap Answer.given?).Pairwise (· < ·) ∧ ((a.answers rs).filterMap Answer.spent?).Nodup := by
  induction rs generalizing a with
  | nil => exact ⟨.nil, .nil, .nil⟩
  | cons r rest ih =>
    have outcome := outcome_answer a r
    rw [answers]
    generalize a.answer r = y at outcome ⊢
    obtain ⟨x, b⟩ := y
    have sound' := outcome.sound sound
    obtain ⟨entries, given, spent⟩ := ih sound'
    have gone {id : EventId} (away : ∀ e ∈ b.entries, e.id ≠ id) (old : id < b.nextId) :
        id ∉ (b.answers rest).filterMap Answer.spent? := by
      intro again
      obtain ⟨answer, told, same⟩ := List.mem_filterMap.1 again
      rcases (later_answers sound' rest told).2.1 id same with waits | new
      · obtain ⟨e, member, is⟩ := waits_eq_true_iff.1 waits
        exact away e member is
      · exact absurd old (Nat.not_lt.2 new)
    cases outcome with
    | entered time event ahead =>
      refine ⟨entries, List.pairwise_cons.2 ⟨fun id later => ?_, given⟩, spent⟩
      obtain ⟨answer, told, same⟩ := List.mem_filterMap.1 later
      exact (later_answers sound' rest told).2.2 id same
    | withdrawn id waited =>
      refine ⟨entries, given, List.nodup_cons.2 ⟨gone (fun e member => ?_) ?_, spent⟩⟩
      · simpa using (List.mem_filter.1 member).2
      · obtain ⟨e, member, rfl⟩ := waits_eq_true_iff.1 waited
        exact sound.numbered e member
    | handedOut e first =>
      obtain ⟨member, due⟩ := first?_eq_some first
      have old := sound.numbered e member
      have others : ∀ f ∈ (a.without e.id).entries, f.id ≠ e.id := fun f there => by
        simpa using (List.mem_filter.1 there).2
      refine ⟨List.pairwise_cons.2 ⟨fun f later => ?_, entries⟩, given, List.nodup_cons.2 ⟨gone others old, spent⟩⟩
      obtain ⟨answer, told, same⟩ := List.mem_filterMap.1 later
      rcases (later_answers sound' rest told).1 f same with there | ⟨time, new⟩
      · exact Calendar.Entry.before_of_due (due f (List.mem_filter.1 there).1) (others f there).symm
      · refine Calendar.Entry.before_of_due ((Calendar.Entry.due_iff _ _).2 ?_)
          (Nat.ne_of_lt (Nat.lt_of_lt_of_le old new))
        exact (Nat.lt_or_eq_of_le time).imp_right fun is => ⟨is, Nat.le_of_lt (Nat.lt_of_lt_of_le old new)⟩
    | calm nothing =>
      simp only [List.filterMap_cons, nothing]
      exact ⟨entries, given, spent⟩

end Agenda

/-! ## A calendar and its agenda -/

namespace Calendar
variable {ε : Type} {c : Calendar ε} {a : Agenda ε}

/-- Whether what waits in a calendar is what an agenda lists. -/
structure Shows (c : Calendar ε) (a : Agenda ε) : Prop where
  valid : c.Valid
  ordered : c.heap.Ordered
  live : ∀ id, c.live.contains id = true → ∃ e ∈ c.heap.toList, e.id = id
  entries : c.pending.Perm a.entries
  nextId : a.nextId = c.nextId
  now : a.now = c.now

theorem shows_empty : (empty : Calendar ε).Shows Agenda.empty where
  valid := valid_empty
  ordered := trivial
  live := fun id live => by simp [empty] at live
  entries := .refl _
  nextId := rfl
  now := rfl

theorem Shows.mem_iff (shows : c.Shows a) (e : Entry ε) :
    e ∈ a.entries ↔ e ∈ c.heap.toList ∧ c.live.contains e.id = true :=
  shows.entries.mem_iff.symm.trans List.mem_filter

theorem Shows.waits (shows : c.Shows a) (id : EventId) : c.live.contains id = a.waits id := by
  rw [Bool.eq_iff_iff, Agenda.waits_eq_true_iff]
  constructor
  · intro live
    obtain ⟨e, member, rfl⟩ := shows.live id live
    exact ⟨e, (shows.mem_iff e).2 ⟨member, live⟩, rfl⟩
  · rintro ⟨e, member, rfl⟩
    exact ((shows.mem_iff e).1 member).2

theorem Shows.distinct (shows : c.Shows a) : (a.entries.map Entry.id).Nodup :=
  (shows.entries.map Entry.id).nodup_iff.1 (shows.valid.distinct.sublist (List.filter_sublist.map _))

theorem Shows.size (shows : c.Shows a) : c.size = a.entries.length := by
  have once : c.live.toList.Nodup := Std.TreeSet.distinct_toList.imp fun other same => other (by simp [same])
  have same : c.live.toList.Perm (a.entries.map Entry.id) := by
    rw [List.perm_ext_iff_of_nodup once shows.distinct]
    intro id
    rw [Std.TreeSet.mem_toList, ← Std.TreeSet.contains_iff_mem, shows.waits id, Agenda.waits_eq_true_iff, List.mem_map]
  have length := same.length_eq
  rwa [Std.TreeSet.length_toList, List.length_map] at length

theorem shows_enter (shows : c.Shows a) (time : SimTime) (event : ε) :
    (c.enter time event).2.Shows
      { a with entries := ⟨time, c.nextId, event⟩ :: a.entries, nextId := c.nextId + 1 } where
  valid := valid_enter shows.valid time event
  ordered := Heap.ordered_insert shows.ordered _
  live := fun id live => by
    have parts : (c.enter time event).2.heap.toList.Perm _ := Heap.toList_insert c.heap ⟨time, c.nextId, event⟩
    simp only [enter, Std.TreeSet.contains_insert, Bool.or_eq_true] at live
    rcases live with new | old
    · exact ⟨⟨time, c.nextId, event⟩, parts.mem_iff.2 List.mem_cons_self, by simpa using new⟩
    · obtain ⟨e, member, same⟩ := shows.live id old
      exact ⟨e, parts.mem_iff.2 (List.mem_cons_of_mem _ member), same⟩
  entries := (pending_enter shows.valid time event).trans (shows.entries.cons _)
  nextId := rfl
  now := shows.now

theorem shows_cancel (shows : c.Shows a) (id : EventId) : (c.cancel id).2.Shows (a.without id) where
  valid := valid_cancel shows.valid id
  ordered := by
    unfold cancel
    split <;> exact shows.ordered
  live := fun other live => by
    refine (shows.live other ?_).imp fun e there => ?_
    · unfold cancel at live
      split at live
      · simp only [Std.TreeSet.contains_erase, Bool.and_eq_true] at live
        exact live.2
      · exact live
    · unfold cancel
      split <;> exact there
  entries := by
    rw [pending_cancel]
    exact shows.entries.filter _
  nextId := by
    unfold cancel
    split <;> exact shows.nextId
  now := by
    unfold cancel
    split <;> exact shows.now

/-- Dropping cancelled events from the root changes nothing that waits. -/
theorem shows_settled (shows : c.Shows a) : c.settled.Shows a := by
  obtain ⟨⟨dead, shed, cancelled⟩, -⟩ := dropDead_spec c.live c.nextId c.heap
  have waits : ∀ e, c.live.contains e.id = true → e ∈ c.heap.toList → e ∈ c.settled.heap.toList := by
    intro e live member
    rcases List.mem_append.1 (shed.mem_iff.1 member) with gone | stays
    · rw [cancelled e gone] at live
      cases live
    · exact stays
  refine ⟨⟨?_, ?_, ?_⟩, ordered_dropDead _ _ shows.ordered, ?_, ?_, shows.nextId, shows.now⟩
  · have distinct := (shed.map Entry.id).nodup_iff.1 shows.valid.distinct
    rw [List.map_append, List.nodup_append] at distinct
    exact distinct.2.1
  · exact fun e member => shows.valid.numbered e (shed.mem_iff.2 (List.mem_append_right _ member))
  · have length := shed.length_eq
    rw [List.length_append] at length
    exact Nat.le_trans (Nat.le.intro ((Nat.add_comm _ _).trans length.symm)) shows.valid.short
  · intro id live
    obtain ⟨e, member, rfl⟩ := shows.live id live
    exact ⟨e, waits e live member, rfl⟩
  · have dropped : dead.filter (fun e => c.live.contains e.id) = [] :=
      List.filter_eq_nil_iff.2 fun e member => by simp [cancelled e member]
    have same := shed.filter fun e => c.live.contains e.id
    rw [List.filter_append, dropped, List.nil_append] at same
    exact same.symm.trans shows.entries

/-- Nothing waits where no event is left at the root. -/
theorem Shows.entries_eq_nil (shows : c.Shows a) (root : c.settled.heap.pop? = none) : a.entries = [] := by
  have empty : c.settled.heap = .leaf := by
    cases heap : c.settled.heap with
    | leaf => rfl
    | node s e l r =>
      rw [heap] at root
      cases root
  rw [List.eq_nil_iff_forall_not_mem]
  intro e member
  have there := (((shows_settled shows).mem_iff e).1 member).1
  rw [empty] at there
  cases there

/-- The root of a heap without cancelled events at its root is the event that is due first. -/
theorem first?_of_shows (shows : c.Shows a) :
    c.settled.heap.pop?.map (·.1) = a.first? := by
  have settled := shows_settled shows
  cases root : c.settled.heap.pop? with
  | none => simp [Agenda.first?, shows.entries_eq_nil root]
  | some answer =>
    obtain ⟨e, rest⟩ := answer
    have parts := Heap.toList_pop? root
    have live := (dropDead_spec c.live c.nextId c.heap).2 shows.valid.short e rest root
    have member := (settled.mem_iff e).2 ⟨parts.mem_iff.2 List.mem_cons_self, live⟩
    refine (Agenda.first?_of_due shows.distinct member fun x waits => ?_).symm
    rcases List.mem_cons.1 (parts.mem_iff.1 ((settled.mem_iff x).1 waits).1) with rfl | below
    · exact (Entry.due_iff _ _).2 (Or.inr ⟨rfl, Nat.le_refl _⟩)
    · exact (Heap.ordered_pop? settled.ordered root).2 x below

/-- The next event is the one that is due first, and the calendar goes on as the agenda without it. -/
theorem shows_pop (shows : c.Shows a) {e : Entry ε} {d : Calendar ε} (popped : c.pop = some (e, d)) :
    d.Shows { a.without e.id with now := e.time } := by
  have settled := shows_settled shows
  obtain ⟨parts, valid, nextId⟩ := pop_spec shows.valid popped
  unfold pop at popped
  obtain ⟨⟨first, rest⟩, root, same⟩ := Option.map_eq_some_iff.1 popped
  obtain ⟨rfl, rfl⟩ := Prod.mk.inj same
  refine ⟨valid, (Heap.ordered_pop? settled.ordered root).1, fun id live => ?_, ?_, shows.nextId.trans nextId.symm, rfl⟩
  · simp only [Std.TreeSet.contains_erase, Bool.and_eq_true] at live
    obtain ⟨x, member, rfl⟩ := settled.live id live.2
    rcases List.mem_cons.1 ((Heap.toList_pop? root).mem_iff.1 member) with rfl | below
    · simp at live
    · exact ⟨x, below, rfl⟩
  · -- Of the events that waited, the filter takes away the one that is handed out, and no other has its number.
    have waits := parts.symm.trans shows.entries
    have only := (List.nodup_cons.1 ((waits.map Entry.id).nodup_iff.2 shows.distinct)).1
    have others := waits.filter (·.id ≠ first.id)
    rw [List.filter_cons_of_neg (by simp), List.filter_eq_self.2] at others
    · exact others
    · exact fun x member => decide_eq_true fun same => only (List.mem_map.2 ⟨x, member, same⟩)

/-- A calendar answers every request as its agenda does, and goes on showing it. -/
theorem shows_answer (shows : c.Shows a) (r : Request ε) :
    (c.answer r).1 = (a.answer r).1 ∧ (c.answer r).2.Shows (a.answer r).2 := by
  cases r with
  | schedule time event =>
    simp only [answer, schedule, Agenda.answer, shows.now]
    by_cases past : time < c.now
    · simp only [if_pos past]
      exact ⟨trivial, shows⟩
    · simp only [if_neg past, shows.nextId]
      refine ⟨rfl, ?_⟩
      rw [← shows.now]
      exact shows_enter shows time event
  | cancel id =>
    refine ⟨?_, shows_cancel shows id⟩
    simp only [answer, Agenda.answer, ← shows.waits id, cancel]
    cases c.live.contains id <;> rfl
  | next =>
    have first := first?_of_shows shows
    simp only [answer, Agenda.answer, ← first]
    cases popped : c.pop with
    | none =>
      rw [pop, Option.map_eq_none_iff] at popped
      simp only [popped, Option.map_none]
      exact ⟨trivial, shows⟩
    | some answer =>
      obtain ⟨e, d⟩ := answer
      have onward := shows_pop shows popped
      unfold pop at popped
      obtain ⟨⟨e', rest⟩, root, same⟩ := Option.map_eq_some_iff.1 popped
      obtain ⟨rfl, -⟩ := Prod.mk.inj same
      simp only [root, Option.map_some]
      exact ⟨trivial, onward⟩
  | look what =>
    cases what with
    | peek =>
      refine ⟨?_, shows_settled shows⟩
      simp only [answer, Agenda.answer, ← first?_of_shows shows, peek, Option.map_map]
      rfl
    | isPending id => exact ⟨congrArg Answer.pending (shows.waits id), shows⟩
    | size => exact ⟨congrArg Answer.size shows.size, shows⟩
    | now => exact ⟨congrArg Answer.now shows.now.symm, shows⟩

theorem answers_of_shows (shows : c.Shows a) (rs : List (Request ε)) : c.answers rs = a.answers rs := by
  induction rs generalizing c a with
  | nil => rfl
  | cons r rest ih =>
    obtain ⟨same, onward⟩ := shows_answer shows r
    rw [answers, Agenda.answers, same, ih onward]

theorem shows_asked (shows : c.Shows a) (rs : List (Request ε)) : ∃ b, (c.asked rs).Shows b := by
  induction rs generalizing c a with
  | nil => exact ⟨a, shows⟩
  | cons r rest ih => exact ih (shows_answer shows r).2

/-- Looking at a calendar changes nothing that waits. -/
theorem shows_looks (shows : c.Shows a) (looks : List Look) : (c.asked (looks.map .look)).Shows a := by
  induction looks generalizing c with
  | nil => exact shows
  | cons look rest ih =>
    have same : (a.answer (.look look)).2 = a := by cases look <;> rfl
    exact ih (same ▸ (shows_answer shows (.look look)).2)

/-- Whatever is asked of a new calendar, in any order, it answers as an agenda does, which holds nothing but what waits.
So events come out in the order in which they are due, those of one instant in the order in which they were entered;
numbers are given out in increasing order, and none is spent twice: an event comes out once at most, and never once it
was cancelled. A peek tells the instant of the event that comes out next. -/
theorem answers_as_agenda (rs : List (Request ε)) :
    let told := (empty : Calendar ε).answers rs
    told = (Agenda.empty : Agenda ε).answers rs ∧
      (told.filterMap Answer.entry?).Pairwise Entry.Before ∧
      (told.filterMap Answer.given?).Pairwise (· < ·) ∧
      (told.filterMap Answer.spent?).Nodup ∧
      ∀ looks : List Look,
        ((empty : Calendar ε).asked rs).peek.1 =
          (((empty : Calendar ε).asked (rs ++ .look .peek :: looks.map .look)).pop).map (·.1.time) := by
  intro told
  have same : told = (Agenda.empty : Agenda ε).answers rs := answers_of_shows shows_empty rs
  obtain ⟨entries, given, spent⟩ := Agenda.told_in_order (ε := ε) Agenda.sound_empty rs
  rw [← same] at entries given spent
  refine ⟨same, entries, given, spent, fun looks => ?_⟩
  obtain ⟨a, shows⟩ := shows_asked (ε := ε) shows_empty rs
  have later := shows_looks shows (.peek :: looks)
  have joined : (empty : Calendar ε).asked (rs ++ .look .peek :: looks.map .look) =
      ((empty : Calendar ε).asked rs).asked ((Look.peek :: looks).map .look) := by
    rw [asked, List.foldl_append]
    rfl
  have peeked (c : Calendar ε) (shows : c.Shows a) : (c.settled.heap.pop?).map (·.1.time) = a.first?.map (·.time) := by
    rw [← first?_of_shows shows, Option.map_map]
    rfl
  rw [joined, pop, Option.map_map]
  exact (peeked _ shows).trans (peeked _ later).symm

end Calendar
end Sidelink
