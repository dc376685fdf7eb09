import Mathlib.Tactic.Abel
import Sidelink.Proofs.Addressing
import Sidelink.Proofs.Dues

/-!
Simulations in order. At every stage the calendar hands out events in order of time, the drain checks of every station
are those that its switches need, and all frames on the air are for stations (`Simulation.Sound`). At one instant, a
simulation goes on in small steps: an event is entered, a station takes over what it made of a moment, and counts
change. Each of them keeps the simulation in order, and for each of them it is told what was entered besides drain
checks (`Simulation.Onward`).
-/
namespace Sidelink
open Simulation (Event)

/-! ## A simulation in order -/

namespace Simulation

def plane? (s : Simulation) (node : NodeId) : Option DataPlane := (s.stations.get? node).map Station.plane

/-- Whether the calendar of a simulation is in order, its stations are the nodes of its directory, and all frames are
for stations. -/
structure Framed (s : Simulation) : Prop where
  timely : s.calendar.Timely
  closed : s.directory.Closed
  stationed : ∀ node, (s.plane? node).isSome = true ↔ s.directory.Knows node
  pace : ∀ {node p}, s.plane? node = some p → p.switches.interval = s.scenario.plane.drainInterval
  ahead : ∀ {node}, s.directory.Knows node → s.scenario.plane.drainInterval ≠ 0
  addressed : ∀ {node p}, s.plane? node = some p → Addressed s.directory ⟨p, []⟩
  arrivals : ∀ {time node frame}, (time, .arrival node frame) ∈ s.calendar.dues →
    ∀ recipient ∈ frame.envelope.recipients, s.directory.Knows recipient

/-- Whether the calendar calls a node back as its switches need. -/
def Watches (s : Simulation) (node : NodeId) : Prop :=
  ∀ p, s.plane? node = some p → (⟨p, s.calendar⟩ : Attended).Vigilant node

structure Sound (s : Simulation) : Prop extends Framed s where
  watches : ∀ node, s.Watches node

/-- Whether an event is a drain check that stations ask for now. It is due some time ahead. -/
structure AsksFor (s : Simulation) (x : SimTime × Event) : Prop where
  time : x.1 = max (s.calendar.now.plusMicros s.scenario.plane.drainInterval) s.calendar.now
  ahead : s.scenario.plane.drainInterval ≠ 0
  check : x.2.IsCheck

/-- Whether a simulation comes from another at the same instant, with some events entered. Besides these, drain checks
were asked for or withdrawn. -/
structure Onward (s : Simulation) (entered : Multiset (SimTime × Event)) (t : Simulation) : Prop where
  sound : t.Sound
  scenario : t.scenario = s.scenario
  directory : t.directory = s.directory
  now : t.calendar.now = s.calendar.now
  dues : ∃ asked withdrawn : Multiset (SimTime × Event),
    entered + asked + s.calendar.dues = withdrawn + t.calendar.dues ∧
      (∀ x ∈ asked, s.AsksFor x) ∧ ∀ x ∈ withdrawn, x.2.IsCheck

variable {s t u : Simulation} {entered more : Multiset (SimTime × Event)}

theorem Onward.refl (sound : s.Sound) : s.Onward 0 s :=
  ⟨sound, rfl, rfl, rfl, 0, 0, by simp, by simp, by simp⟩

theorem Onward.trans (first : s.Onward entered t) (second : t.Onward more u) : s.Onward (entered + more) u := by
  obtain ⟨asked, withdrawn, dues, asks, withdraws⟩ := first.dues
  obtain ⟨asked', withdrawn', dues', asks', withdraws'⟩ := second.dues
  have same {x : SimTime × Event} (asksFor : t.AsksFor x) : s.AsksFor x := by
    obtain ⟨time, ahead, check⟩ := asksFor
    rw [first.now, first.scenario] at time
    exact ⟨time, first.scenario ▸ ahead, check⟩
  refine ⟨second.sound, second.scenario.trans first.scenario, second.directory.trans first.directory,
    second.now.trans first.now, asked + asked', withdrawn + withdrawn', ?_, ?_, ?_⟩
  · calc entered + more + (asked + asked') + s.calendar.dues
        = more + asked' + (entered + asked + s.calendar.dues) := by abel
      _ = withdrawn + (more + asked' + t.calendar.dues) := by rw [dues]; abel
      _ = withdrawn + withdrawn' + u.calendar.dues := by rw [dues', add_assoc]
  · exact fun x member => (Multiset.mem_add.1 member).elim (asks x) fun new => same (asks' x new)
  · exact fun x member => (Multiset.mem_add.1 member).elim (withdraws x) (withdraws' x)

/-- What is due are the events that were due before or were entered, drain checks apart. -/
theorem Onward.mem_dues_iff (onward : s.Onward entered t) {x : SimTime × Event} (ordinary : ¬ x.2.IsCheck) :
    x ∈ t.calendar.dues ↔ x ∈ entered ∨ x ∈ s.calendar.dues := by
  obtain ⟨asked, withdrawn, dues, asks, withdraws⟩ := onward.dues
  have unasked : x ∉ asked := fun member => ordinary (asks x member).check
  have stays : x ∉ withdrawn := fun member => ordinary (withdraws x member)
  have same : x ∈ entered + asked + s.calendar.dues ↔ x ∈ withdrawn + t.calendar.dues := by rw [dues]
  simpa only [Multiset.mem_add, unasked, stays, or_false, false_or] using same.symm

/-- Counts may change. -/
theorem onward_of_same (sound : s.Sound) (scenario : t.scenario = s.scenario) (directory : t.directory = s.directory)
    (calendar : t.calendar = s.calendar) (planes : ∀ node, t.plane? node = s.plane? node) : s.Onward 0 t := by
  refine ⟨⟨⟨?_, ?_, ?_, ?_, ?_, ?_, ?_⟩, ?_⟩, scenario, directory, by rw [calendar], 0, 0, by simp [calendar], by simp,
    by simp⟩
  · exact calendar ▸ sound.timely
  · exact directory ▸ sound.closed
  · intro node
    rw [planes, directory]
    exact sound.stationed node
  · intro node p found
    rw [planes] at found
    exact scenario ▸ sound.pace found
  · intro node known
    rw [directory] at known
    exact scenario ▸ sound.ahead known
  · intro node p found
    rw [planes] at found
    exact directory ▸ sound.addressed found
  · intro time node frame due
    rw [calendar] at due
    exact directory ▸ sound.arrivals due
  · intro node p found
    rw [planes] at found
    exact calendar ▸ sound.watches node p found

/-! ## Events that are entered -/

/-- Whether all recipients of the frame that arrives with an event, if one does, are in a directory. -/
def Event.IsFor (directory : Directory) : Event → Prop
  | .arrival _ frame => ∀ recipient ∈ frame.envelope.recipients, directory.Knows recipient
  | .packet _ | .opportunity | .drainCheck _ _ | .pathSwitch _ _ _ _ => True

theorem onward_enterSoon (sound : s.Sound) (time : SimTime) (event : Event) (ordinary : ¬ event.IsCheck)
    (isFor : event.IsFor s.directory) :
    s.Onward {(max time s.calendar.now, event)} { s with calendar := s.calendar.enterSoon time event } := by
  have valid := sound.timely.valid
  have dues := Calendar.dues_enterSoon valid time event
  refine ⟨⟨⟨?_, sound.closed, sound.stationed, sound.pace, sound.ahead, sound.addressed, ?_⟩, ?_⟩, rfl, rfl, rfl, 0, 0,
    ?_, by simp, by simp⟩
  · exact Calendar.timely_enterSoon sound.timely time event
  · intro at_time node frame due
    rcases Multiset.mem_cons.1 (dues ▸ due) with new | old
    · obtain ⟨-, rfl⟩ := Prod.mk.inj new
      exact isFor
    · exact sound.arrivals old
  · intro node p found
    have vigilant := sound.watches node p found
    have entered : (Attended.step ⟨p, s.calendar⟩ (.entered time event)).Vigilant node :=
      vigilant.step fun peer is => ordinary ⟨node, peer, is⟩
    exact entered
  · rw [dues, add_zero, Multiset.singleton_add, zero_add]

theorem onward_schedule (sound : s.Sound) {time : SimTime} {event : Event} (ordinary : ¬ event.IsCheck)
    (isFor : event.IsFor s.directory) (scheduled : s.schedule time event = .ok t) : s.Onward {(time, event)} t := by
  unfold schedule Calendar.schedule at scheduled
  split at scheduled
  · rename_i answer calendar entered
    split at entered
    · cases entered
    · rename_i ahead
      have due : max time s.calendar.now = time := Nat.max_eq_left (Nat.not_lt.1 ahead)
      have enters : s.calendar.enterSoon time event = calendar := by
        rw [Calendar.enterSoon, due, Except.ok.inj entered]
      obtain rfl := Except.ok.inj scheduled
      have onward := onward_enterSoon sound time event ordinary isFor
      rw [due, enters] at onward
      exact onward
  · cases scheduled

/-! ## A node that deals with a moment -/

theorem plane?_keep (s : Simulation) (node : NodeId) (q : DataPlane) (timers : Timers) (other : NodeId) :
    (s.keep node q timers).plane? other = if other = node then (s.plane? node).map fun _ => q else s.plane? other := by
  simp only [plane?, keep, SortedMap.get?_modify]
  by_cases same : other = node
  · rw [if_pos (congrArg rank same), if_pos same, same, Option.map_map, Option.map_map]
    rfl
  · rw [if_neg fun ranks => same (Ranked.rank_inj ranks), if_neg same]

/-- A node takes over what it made of a moment. -/
theorem onward_keep {node : NodeId} (framed : s.Framed) (others : ∀ other, other ≠ node → s.Watches other)
    {p q : DataPlane} {timers : Timers} (found : s.plane? node = some p) (own : q.node = node)
    (kept : Kept node s.calendar.now s.scenario.plane.drainInterval s.calendar q.switches timers)
    (addressed : Addressed s.directory ⟨q, []⟩) : s.Onward 0 (s.keep node q timers) := by
  have plane (other : NodeId) :
      (s.keep node q timers).plane? other = if other = node then some q else s.plane? other := by
    rw [plane?_keep, found]
    rfl
  have rechecked := kept.tended.rechecked
  obtain ⟨asked, withdrawn, dues, asks, withdraws⟩ := rechecked.dues
  have ahead := framed.ahead ((framed.stationed node).1 (by rw [found]; rfl))
  refine ⟨⟨⟨?_, framed.closed, ?_, ?_, framed.ahead, ?_, ?_⟩, ?_⟩, rfl, rfl, rechecked.now, asked, withdrawn, ?_,
    fun x member => ⟨(asks x member).1, ahead, (asks x member).2⟩, withdraws⟩
  · exact Calendar.timely_carried framed.timely node timers
  · intro other
    rw [plane]
    split
    · rename_i same
      exact iff_of_true rfl (same ▸ (framed.stationed node).1 (by rw [found]; rfl))
    · exact framed.stationed other
  · intro other r known
    rw [plane] at known
    split at known
    · rw [← Option.some.inj known]
      exact kept.tended.pace
    · exact framed.pace known
  · intro other r known
    rw [plane] at known
    split at known
    · rw [← Option.some.inj known]
      exact addressed
    · exact framed.addressed known
  · intro time other frame due
    -- what is due after it was due before, or is a check that was asked for, which is no arrival
    have member : _ ∈ withdrawn + (timers.carried node s.calendar).dues := Multiset.mem_add.2 (Or.inr due)
    rw [← dues] at member
    rcases Multiset.mem_add.1 member with check | old
    · obtain ⟨-, _, _, is⟩ := asks _ check
      cases is
    · exact framed.arrivals old
  · intro other r known
    rw [plane] at known
    split at known
    · rename_i same
      rw [← Option.some.inj known, same]
      exact ⟨own, kept.tended.watched, kept.armed⟩
    · -- the checks of the other nodes are where they were
      rename_i different
      obtain ⟨own, watched, armed⟩ := others other different r known
      refine ⟨own, ⟨kept.tended.watched.valid, fun peer => perm_toList ?_⟩, armed⟩
      exact (rechecked.checks_eq different peer).trans (.of_eq (watched.checks peer))
  · rw [zero_add]
    exact dues

/-- A node deals with a moment that is no drain check. -/
theorem onward_react (sound : s.Sound) {node : NodeId} {p : DataPlane} (found : s.plane? node = some p)
    (stimulus : Stimulus) (stays : stimulus ≠ .departed) (unchecked : ∀ peer, stimulus ≠ .drainCheck peer) :
    let m : Moment := ⟨s.directory, s.timers, stimulus⟩
    s.Onward 0 (s.keep node (p.react m).plane (p.asked m)) := by
  intro m
  have vigilant := sound.watches node p found
  have kept := vigilant.kept s.calendar.now
  rw [sound.pace found] at kept
  exact onward_keep sound.toFramed (fun other _ => sound.watches other) found
    ((DataPlane.fixed_react p m).1.trans vigilant.own) (DataPlane.kept_react (m := m) kept stays unchecked)
    (DataPlane.addressed_react (m := m) sound.closed (sound.addressed found)).1

end Simulation
end Sidelink
