import Mathlib.Data.Multiset.Bind
import Sidelink.Proofs.Agenda
import Sidelink.Proofs.Checks

/-!
What is due in a calendar, as a collection of events and their instants (`Calendar.dues`). In a calendar that is in
order, the next event is due no later than all others, and not before now (`Calendar.Timely`). What a node asks of the
calendar adds drain checks of the node or takes some away (`Calendar.Rechecked.dues`).
-/
namespace Sidelink
open Simulation (Event)

/-! ## Time goes on -/

theorem SimTime.le_plusMicros {t : SimTime} (within : t ≤ last) (us : Nat) : t ≤ t.plusMicros us :=
  Nat.le_min.2 ⟨Nat.le_add_right t us, within⟩

theorem SimTime.lt_plusMicros {t : SimTime} {us : Nat} (positive : us ≠ 0) (within : t.plusMicros us < last) :
    t < t.plusMicros us := by
  have sum : t.plusMicros us = t + us :=
    Nat.min_eq_left (Nat.le_of_lt ((min_lt_iff.1 within).resolve_right (lt_irrefl _)))
  rw [sum]
  exact Nat.lt_add_of_pos_right (Nat.pos_of_ne_zero positive)

/-- The last instant is no whole millisecond. -/
theorem SimTime.ofMillis_ne_last (ms : Nat) : ofMillis ms ≠ last := by
  intro (same : ms * 1000 = 18446744073709551615)
  omega

theorem SimTime.lt_plusMillis {t : SimTime} {ms : Nat} (positive : ms ≠ 0) (within : t.plusMillis ms < last) :
    t < t.plusMillis ms :=
  lt_plusMicros (Nat.ne_of_gt (Nat.lt_min.2 ⟨Nat.mul_pos (Nat.pos_of_ne_zero positive) (by decide), by decide⟩)) within

/-! ## What is due in a calendar -/

namespace Calendar
variable {ε : Type} {c d : Calendar ε} {a : Agenda ε}

/-- The events that wait, each with the instant it is due at. -/
def dues (c : Calendar ε) : Multiset (SimTime × ε) := ↑(c.pending.map fun e => (e.time, e.event))

/-- Whether a calendar is in order, and no event in it is overdue. -/
def Timely (c : Calendar ε) : Prop := ∃ a : Agenda ε, c.Shows a ∧ a.Sound

theorem timely_empty : (empty : Calendar ε).Timely := ⟨_, shows_empty, Agenda.sound_empty⟩

theorem timely_answer (timely : c.Timely) (r : Request ε) : (c.answer r).2.Timely := by
  obtain ⟨a, shows, sound⟩ := timely
  exact ⟨_, (shows_answer shows r).2, (Agenda.outcome_answer a r).sound sound⟩

theorem timely_enterSoon (timely : c.Timely) (time : SimTime) (event : ε) : (c.enterSoon time event).Timely := by
  have after := timely_answer timely (.schedule (max time c.now) event)
  simp only [answer, schedule, if_neg (Nat.not_lt.2 (Nat.le_max_right time c.now))] at after
  exact after

theorem timely_cancel (timely : c.Timely) (id : EventId) : (c.cancel id).2.Timely := timely_answer timely (.cancel id)

theorem timely_pop (timely : c.Timely) {e : Entry ε} (popped : c.pop = some (e, d)) : d.Timely := by
  have after := timely_answer timely .next
  simpa only [answer, popped] using after

theorem Timely.valid (timely : c.Timely) : c.Valid := by
  obtain ⟨a, shows, -⟩ := timely
  exact shows.valid

theorem now_pop {e : Entry ε} (popped : c.pop = some (e, d)) : d.now = e.time := by
  unfold pop at popped
  obtain ⟨_, -, same⟩ := Option.map_eq_some_iff.1 popped
  obtain ⟨rfl, rfl⟩ := Prod.mk.inj same
  rfl

theorem Shows.first (shows : c.Shows a) : c.pop.map (·.1) = a.first? := by
  rw [← first?_of_shows shows, pop, Option.map_map]
  rfl

theorem dues_empty : (empty : Calendar ε).dues = 0 := rfl

theorem dues_enterSoon (valid : c.Valid) (time : SimTime) (event : ε) :
    (c.enterSoon time event).dues = (max time c.now, event) ::ₘ c.dues := by
  have waits := (pending_enter valid (max time c.now) event).map fun e => (e.time, e.event)
  exact Multiset.coe_eq_coe.2 waits

theorem dues_pop (valid : c.Valid) {e : Entry ε} (popped : c.pop = some (e, d)) :
    c.dues = (e.time, e.event) ::ₘ d.dues := by
  have waits := (pop_spec valid popped).1.map fun e => (e.time, e.event)
  exact Multiset.coe_eq_coe.2 waits

/-- The clock never goes back. -/
theorem now_le_of_pop (timely : c.Timely) {e : Entry ε} (popped : c.pop = some (e, d)) : c.now ≤ e.time := by
  obtain ⟨a, shows, sound⟩ := timely
  have first := shows.first
  rw [popped] at first
  rw [← shows.now]
  exact sound.ahead e (Agenda.first?_eq_some first.symm).1

/-- The next event is due no later than all others. -/
theorem time_le_of_pop (timely : c.Timely) {e : Entry ε} (popped : c.pop = some (e, d)) {x : SimTime × ε}
    (waits : x ∈ c.dues) : e.time ≤ x.1 := by
  obtain ⟨a, shows, -⟩ := timely
  have first := shows.first
  rw [popped] at first
  obtain ⟨entry, member, rfl⟩ := List.mem_map.1 (Multiset.mem_coe.1 waits)
  rcases (Entry.due_iff _ _).1 ((Agenda.first?_eq_some first.symm).2 entry (shows.entries.mem_iff.1 member)) with
    earlier | ⟨same, -⟩
  · exact Nat.le_of_lt earlier
  · exact Nat.le_of_eq same

theorem dues_of_pop_none (timely : c.Timely) (nothing : c.pop = none) : c.dues = 0 := by
  obtain ⟨a, shows, -⟩ := timely
  rw [pop, Option.map_eq_none_iff] at nothing
  have pending := shows.entries_eq_nil nothing ▸ shows.entries
  rw [dues, pending.eq_nil]
  rfl

/-! ## Drain checks -/

variable {c d : Calendar Event} {node other : NodeId} {due : SimTime}

theorem timely_carried (timely : c.Timely) (node : NodeId) (t : Timers) : (t.carried node c).Timely := by
  unfold Timers.carried
  induction t.requests generalizing c with
  | nil => exact timely
  | cons request rest ih =>
    cases request with
    | start id time peer => exact ih (timely_enterSoon timely time (.drainCheck node peer))
    | cancel id => exact ih (timely_cancel timely id)

/-- The checks of one node are no checks of another. -/
theorem Rechecked.checks_eq (rechecked : c.Rechecked node due d) (different : other ≠ node) (peer : NodeId) :
    (d.checks other peer).Perm (c.checks other peer) := by
  obtain ⟨-, asked, withdrawn, entries, asks, withdraws⟩ := rechecked
  have nobody {l : List (Entry Event)} (own : ∀ e ∈ l, ∃ peer, e.event = .drainCheck node peer) :
      l.filter (fun e => e.event.asks other peer) = [] := by
    refine List.filter_eq_nil_iff.2 fun e member asks => ?_
    obtain ⟨peer', event⟩ := own e member
    rw [Simulation.Event.asks_eq_true_iff, event] at asks
    exact different (Simulation.Event.drainCheck.inj asks).1.symm
  have same := entries.filter fun e => e.event.asks other peer
  rw [List.filter_append, List.filter_append, nobody fun e member => (asks e member).2, nobody withdraws] at same
  exact (same.map Entry.id).symm

end Calendar

/-- Whether an event is a drain check. -/
def Simulation.Event.IsCheck (event : Event) : Prop := ∃ node peer, event = .drainCheck node peer

theorem Calendar.Rechecked.dues {c d : Calendar Event} {node : NodeId} {due : SimTime}
    (rechecked : c.Rechecked node due d) :
    ∃ asked withdrawn : Multiset (SimTime × Event), asked + c.dues = withdrawn + d.dues ∧
      (∀ x ∈ asked, x.1 = max due c.now ∧ x.2.IsCheck) ∧ ∀ x ∈ withdrawn, x.2.IsCheck := by
  obtain ⟨-, asked, withdrawn, entries, asks, withdraws⟩ := rechecked
  refine ⟨↑(asked.map fun e => (e.time, e.event)), ↑(withdrawn.map fun e => (e.time, e.event)), ?_, ?_, ?_⟩
  · simp only [Calendar.dues, Multiset.coe_add, ← List.map_append]
    exact Multiset.coe_eq_coe.2 (entries.map _)
  · intro x member
    obtain ⟨e, here, rfl⟩ := List.mem_map.1 (Multiset.mem_coe.1 member)
    obtain ⟨time, peer, event⟩ := asks e here
    exact ⟨time, node, peer, event⟩
  · intro x member
    obtain ⟨e, here, rfl⟩ := List.mem_map.1 (Multiset.mem_coe.1 member)
    obtain ⟨peer, event⟩ := withdraws e here
    exact ⟨node, peer, event⟩

end Sidelink
