import Mathlib.Data.Multiset.DershowitzManna
import Sidelink.Proofs.Preparation

/-!
Runs end. Events bring about others, some of them for the same instant, so no count of events goes down. But every
event has a rank: the time that it leaves until the horizon, and among events of one instant, what may still follow from
it (`Simulation.rank`). What follows an event has a lower rank than the event itself (`Simulation.Follows.lower`), and
the ranks of all that is due go down in the multiset order (`Simulation.Happens.lower`), in which nothing goes down for
ever. The clock of a run never passes the horizon, so nothing is entered for an instant that has passed.
-/
namespace Sidelink
open Simulation (Event)

namespace Simulation
variable {s t u : Simulation} {event : Event}

/-! ## Ranks -/

/-- What may follow from an event at the instant that it happens: from an opportunity arrivals, and from the arrival of
a frame that is passed on the arrivals at its recipients. -/
def Event.order : Event → Nat
  | .arrival node frame => if node ∈ frame.envelope.recipients then 0 else 1
  | .packet _ | .opportunity | .drainCheck _ _ | .pathSwitch _ _ _ _ => 2

/-- What is left of a run when an event is due, which is not after the horizon. -/
def rank (horizon : SimTime) (x : SimTime × Event) : Nat := 3 * (horizon - x.1) + x.2.order

/-- The ranks of all events that will happen. -/
def ranks (s : Simulation) : Multiset Nat := (s.calendar.dues.filter (·.1 ≤ s.horizon)).map (rank s.horizon)

theorem Event.order_le (event : Event) : event.order ≤ 2 := by
  cases event with
  | arrival node frame =>
    rw [order]
    split <;> decide
  | packet | opportunity | drainCheck | pathSwitch => exact Nat.le_refl 2

theorem rank_of_later {horizon now : SimTime} {x : SimTime × Event} (later : now < x.1) (within : x.1 ≤ horizon) :
    rank horizon x < rank horizon (now, event) := by
  have order := x.2.order_le
  have left := Nat.sub_lt_sub_left (Nat.lt_of_lt_of_le later within) later
  simp only [rank]
  omega

theorem rank_of_order {horizon now : SimTime} {x : SimTime × Event} (ahead : now ≤ x.1)
    (order : x.2.order < event.order) : rank horizon x < rank horizon (now, event) := by
  have left := Nat.sub_le_sub_left ahead horizon
  simp only [rank]
  omega

/-- What follows an event is not entered for the past. -/
theorem Follows.ahead {x : SimTime × Event} (follows : s.Follows event x) (reached : s.calendar.now ≤ SimTime.last) :
    s.calendar.now ≤ x.1 := by
  cases follows with
  | packet member => exact SimTime.le_plusMicros reached _
  | headed node frame => exact Nat.le_max_right _ _
  | opportunity => exact SimTime.le_plusMicros reached _
  | passedOn elsewhere member => exact SimTime.le_plusMicros reached _

/-- What follows an event has a lower rank. -/
theorem Follows.lower {x : SimTime × Event} (follows : s.Follows event x) (coherent : s.scenario.Coherent)
    (fits : s.horizon < SimTime.last) (reached : s.calendar.now ≤ s.horizon) (within : x.1 ≤ s.horizon) :
    rank s.horizon x < rank s.horizon (s.calendar.now, event) := by
  have ahead := follows.ahead (Nat.le_of_lt (Nat.lt_of_le_of_lt reached fits))
  have short := Nat.lt_of_le_of_lt within fits
  cases follows with
  | packet member => exact rank_of_later (SimTime.lt_plusMillis (coherent.periods _ member) short) within
  | headed node frame =>
    refine rank_of_order ahead ?_
    simp only [Event.order]
    split <;> decide
  | opportunity => exact rank_of_later (SimTime.lt_plusMillis coherent.interval short) within
  | @passedOn node recipient frame elsewhere member =>
    refine rank_of_order ahead ?_
    have here : recipient ∈ (frame.via recipient).envelope.recipients := member
    simp only [Event.order, if_pos here, if_neg elsewhere]
    decide

/-- A drain check that is asked for now is due later. -/
theorem AsksFor.lower {x : SimTime × Event} (asksFor : s.AsksFor x) (fits : s.horizon < SimTime.last)
    (reached : s.calendar.now ≤ s.horizon) (within : x.1 ≤ s.horizon) :
    rank s.horizon x < rank s.horizon (s.calendar.now, event) := by
  have time : x.1 = s.calendar.now.plusMicros s.scenario.plane.drainInterval :=
    asksFor.time.trans (Nat.max_eq_left (SimTime.le_plusMicros (Nat.le_of_lt (Nat.lt_of_le_of_lt reached fits)) _))
  have short := Nat.lt_of_le_of_lt within fits
  rw [time] at short
  exact rank_of_later (time ▸ SimTime.lt_plusMicros asksFor.ahead short) within

/-! ## The multiset order -/

/-- Replacing an element by smaller ones, and leaving others out, goes down. -/
theorem isDershowitzMannaLT_of_le {M N rest : Multiset Nat} {e : Nat} (le : M ≤ N + rest) (below : ∀ y ∈ N, y < e) :
    M.IsDershowitzMannaLT (e ::ₘ rest) := by
  -- what stays is what both have in common
  refine ⟨M ∩ rest, M - rest, e ::ₘ (rest - M), Multiset.cons_ne_zero, ?_, ?_, fun y member => ?_⟩
  · rw [add_comm, Multiset.sub_add_inter]
  · rw [Multiset.add_cons, Multiset.inter_comm, add_comm, Multiset.sub_add_inter]
  · exact ⟨e, Multiset.mem_cons_self _ _, below y (Multiset.mem_of_le (tsub_le_iff_right.2 le) member)⟩

/-- With each event, the ranks of those that are due go down. -/
theorem Happens.lower (happens : s.Happens event u) (sound : s.Sound) (coherent : s.scenario.Coherent)
    (fits : s.horizon < SimTime.last) : u.ranks.IsDershowitzMannaLT s.ranks := by
  obtain ⟨t, next, done⟩ := happens
  have taken := taken_of_next? sound next
  have onward := onward_handle sound next done
  rw [← taken.horizon] at fits
  obtain ⟨asked, withdrawn, dues, asks, -⟩ := onward.dues
  let due (x : SimTime × Event) : Prop := x.1 ≤ t.horizon
  have spent : s.ranks = rank t.horizon (t.calendar.now, event) ::ₘ t.ranks := by
    simp only [ranks, ← taken.horizon, taken.dues]
    rw [Multiset.filter_cons_of_pos (p := due) _ taken.reached, Multiset.map_cons]
  have left : u.ranks ≤ ((↑(t.sequel event) + asked).filter due).map (rank t.horizon) + t.ranks := by
    have le : u.calendar.dues ≤ ↑(t.sequel event) + asked + t.calendar.dues := dues ▸ Multiset.le_add_left _ _
    simp only [ranks, horizon_congr onward.scenario]
    rw [← Multiset.map_add, ← Multiset.filter_add]
    exact Multiset.map_le_map (Multiset.filter_le_filter _ le)
  rw [spent]
  refine isDershowitzMannaLT_of_le left fun y member => ?_
  obtain ⟨x, follows, rfl⟩ := Multiset.mem_map.1 member
  obtain ⟨here, within⟩ := Multiset.mem_filter.1 follows
  rcases Multiset.mem_add.1 here with sequel | check
  · exact (follows_of_sequel (Multiset.mem_coe.1 sequel)).lower (taken.scenario ▸ coherent) fits taken.reached within
  · exact (asks x check).lower fits taken.reached within

/-! ## Nothing is entered for the past -/

/-- Events that are not for the past can be entered. -/
theorem scheduleAll_eq_ok {events : List (SimTime × Event)} (ahead : ∀ e ∈ events, s.calendar.now ≤ e.1) :
    ∃ t, s.scheduleAll events = .ok t := by
  induction events generalizing s with
  | nil => exact ⟨s, rfl⟩
  | cons e rest ih =>
    have now := ahead e List.mem_cons_self
    have entered : s.schedule e.1 e.2 = .ok { s with calendar := (s.calendar.enter e.1 e.2).2 } := by
      rw [schedule, Calendar.schedule, if_neg (Nat.not_lt.2 now)]
    rw [scheduleAll, List.foldlM_cons, entered]
    exact ih fun f member => ahead f (List.mem_cons_of_mem _ member)

/-- Whether a step fails because an event was to be entered for the past. -/
def Belated {α : Type} (result : Except SimulationError α) : Prop := ∃ past, result = .error (.past past)

theorem not_belated_schedule {time : SimTime} (ahead : s.calendar.now ≤ time) : ¬ Belated (s.schedule time event) := by
  rintro ⟨past, failed⟩
  rw [schedule, Calendar.schedule, if_neg (Nat.not_lt.2 ahead)] at failed
  cases failed

theorem not_belated_scheduleAll {events : List (SimTime × Event)} (ahead : ∀ e ∈ events, s.calendar.now ≤ e.1) :
    ¬ Belated (s.scheduleAll events) := by
  rintro ⟨past, failed⟩
  obtain ⟨t, entered⟩ := scheduleAll_eq_ok ahead
  cases entered.symm.trans failed

theorem not_belated_deliver (s : Simulation) (node : NodeId) (frame : Frame) : ¬ Belated (s.deliver node frame) := by
  rintro ⟨past, failed⟩
  unfold deliver at failed
  split at failed
  · cases failed
  · split at failed
    · cases failed
    · split at failed <;> cases failed

theorem not_belated_relay {node : NodeId} {frame : Frame} (ahead : ∀ e ∈ s.passedOn frame, s.calendar.now ≤ e.1) :
    ¬ Belated (s.relay node frame) := by
  cases path : frame.envelope.path with
  | infrastructure =>
    rw [relay_of_infrastructure s node path]
    obtain ⟨t, entered⟩ := scheduleAll_eq_ok ahead
    rw [entered]
    rintro ⟨_, ⟨⟩⟩
  | direct | multicast =>
    simp only [relay, path]
    rintro ⟨_, ⟨⟩⟩

theorem not_belated_perform (sound : s.Sound) (fits : s.horizon < SimTime.last) (next : s.next? = some (event, t)) :
    ¬ Belated (t.perform event) := by
  have taken := taken_of_next? sound next
  have reached : t.calendar.now ≤ SimTime.last := Nat.le_of_lt (Nat.lt_of_le_of_lt taken.within fits)
  have ahead : ∀ x ∈ t.sequel event, t.calendar.now ≤ x.1 := fun x member => (follows_of_sequel member).ahead reached
  have calm := sound_of_next? sound next
  cases event with
  | packet index =>
    have sound := calm (by rintro ⟨_, _, ⟨⟩⟩)
    simp only [sequel] at ahead
    simp only [perform]
    cases found : t.scenario.flows[index]? with
    | none => rintro ⟨_, ⟨⟩⟩
    | some flow =>
      rw [found] at ahead
      rcases sendPacket_spec sound index flow with ⟨error, refused, other⟩ | ⟨kept, onward, sent⟩
      · rintro ⟨past, failed⟩
        exact other past (Except.error.inj (refused.symm.trans failed))
      · simp only [sent]
        exact not_belated_scheduleAll (onward.now ▸ ahead)
  | opportunity =>
    have sound := calm (by rintro ⟨_, _, ⟨⟩⟩)
    have transmitted := (onward_transmitFrom sound t.stations.keys).1
    exact not_belated_schedule (SimTime.le_plusMicros (transmitted.now ▸ reached) _)
  | arrival node frame =>
    simp only [sequel] at ahead
    simp only [perform]
    split
    · exact not_belated_deliver t node frame
    · rename_i elsewhere
      rw [if_neg elsewhere] at ahead
      exact not_belated_relay ahead
  | drainCheck node peer | pathSwitch node peer path clear =>
    simp only [perform]
    split <;> rintro ⟨_, ⟨⟩⟩

theorem not_belated_handle (sound : s.Sound) (fits : s.horizon < SimTime.last) (next : s.next? = some (event, t)) :
    ¬ Belated (t.handle event) := by
  rintro ⟨past, failed⟩
  rcases handle_eq_error_iff.1 failed with failed | ⟨_, _, -, -, is⟩
  · exact not_belated_perform sound fits next ⟨past, failed⟩
  · cases is

theorem not_belated_runFor (sound : s.Sound) (fits : s.horizon < SimTime.last) (count : Nat) :
    ¬ Belated (s.runFor count) := by
  induction count generalizing s with
  | zero => rintro ⟨_, ⟨⟩⟩
  | succ count ih =>
    rcases s.run_cases with ended | ⟨event, u, happens⟩ | ⟨event, t, error, next, failed⟩
    · rw [runFor_of_none ended]
      rintro ⟨_, ⟨⟩⟩
    · rw [runFor_of_happens happens]
      obtain ⟨sound, scenario, -⟩ := happens.keeps sound
      exact ih sound ((horizon_congr scenario).trans_lt fits)
    · rw [runFor_of_error next failed]
      rintro ⟨past, is⟩
      exact not_belated_handle sound fits next ⟨past, failed.trans (congrArg _ (Except.error.inj is))⟩

theorem not_belated_ofScenario (scenario : Scenario) : ¬ Belated (ofScenario scenario) := by
  rw [ofScenario_eq]
  rcases bare_cases scenario with ⟨error, failed, other⟩ | ⟨directory, stations, -, -, -, done⟩
  · rw [failed]
    rintro ⟨past, is⟩
    exact other past (Except.error.inj is)
  · rw [done]
    exact not_belated_scheduleAll fun e member => Nat.zero_le _

/-! ## Runs -/

theorem runFor_ends (sound : s.Sound) (coherent : s.scenario.Coherent) (fits : s.horizon < SimTime.last) :
    ∃ count, s.runFor count ≠ .ok none := by
  have wellFounded := Multiset.wellFounded_isDershowitzMannaLT (α := Nat)
  induction left : s.ranks using wellFounded.induction generalizing s with
  | _ N ih =>
    -- a failure is an end, too
    rcases s.run_cases with ended | ⟨event, u, happens⟩ | ⟨event, t, error, next, failed⟩
    · exact ⟨0, by simp [runFor_of_none ended]⟩
    · obtain ⟨sound', scenario, -⟩ := happens.keeps sound
      have lower := happens.lower sound coherent fits
      obtain ⟨count, ended⟩ := ih u.ranks (left ▸ lower) sound' (scenario ▸ coherent)
        ((horizon_congr scenario).trans_lt fits) rfl
      exact ⟨count + 1, runFor_of_happens happens count ▸ ended⟩
    · exact ⟨1, by simp [runFor_of_error next failed]⟩

theorem runFor_succ {count : Nat} (ended : s.runFor count ≠ .ok none) : s.runFor (count + 1) = s.runFor count := by
  induction count generalizing s with
  | zero =>
    cases next : s.next? with
    | none => rw [runFor_of_none next, runFor_of_none next]
    | some answer => exact absurd (by simp [runFor, next]) ended
  | succ count ih =>
    rcases s.run_cases with last | ⟨event, u, happens⟩ | ⟨event, t, error, next, failed⟩
    · rw [runFor_of_none last, runFor_of_none last]
    · rw [runFor_of_happens happens] at ended ⊢
      rw [runFor_of_happens happens, ih ended]
    · rw [runFor_of_error next failed, runFor_of_error next failed]

/-- A run that has ended stays as it is. -/
theorem runFor_stays {count more : Nat} (ended : s.runFor count ≠ .ok none) (le : count ≤ more) :
    s.runFor more = s.runFor count := by
  induction le with
  | refl => rfl
  | step _ ih => exact (runFor_succ (ih.symm ▸ ended)).trans ih

/-- If the clock can tell the instants up to the end of a scenario's run, then the run ends after finitely many events,
and nothing is ever entered for the past: neither what the scenario begins with, nor what events enter in the run, nor
what stations enter in it, which is never refused. -/
theorem runs_end (scenario : Scenario) (fits : SimTime.ofMillis scenario.run.durationMs ≤ SimTime.last) :
    ¬ Belated (ofScenario scenario) ∧
      (∀ s, ofScenario scenario = .ok s →
        (∃ count, s.runFor count ≠ .ok none ∧ ∀ more, count ≤ more → s.runFor more = s.runFor count) ∧
          ∀ count, ¬ Belated (s.runFor count)) ∧
      ∀ (calendar : Calendar Event) (time : SimTime) (event : Event),
        calendar.schedule (max time calendar.now) event = .ok (calendar.nextId, calendar.enterSoon time event) := by
  refine ⟨not_belated_ofScenario scenario, fun s made => ?_, fun calendar time event => ?_⟩
  · have ready := ready_ofScenario made
    have within : s.horizon < SimTime.last := by
      rw [horizon, ready.scenario]
      exact Nat.lt_of_le_of_ne fits (SimTime.ofMillis_ne_last _)
    obtain ⟨count, ended⟩ := runFor_ends ready.sound (ready.scenario ▸ ready.coherent) within
    exact ⟨⟨count, ended, fun more le => runFor_stays ended le⟩, not_belated_runFor ready.sound within⟩
  · rw [Calendar.schedule, if_neg (Nat.not_lt.2 (Nat.le_max_right _ _))]
    rfl

theorem runs_end_for_trio : SimTime.ofMillis Scenario.trio.run.durationMs ≤ SimTime.last ∧
    ∃ s, ofScenario .trio = .ok s ∧
      ∃ count, s.runFor count ≠ .ok none ∧ ∀ more, count ≤ more → s.runFor more = s.runFor count := by
  have fits : SimTime.ofMillis Scenario.trio.run.durationMs ≤ SimTime.last := by decide
  have ran : Scenario.inTrio 16 (fun s => s.horizon) = some 4000 := by decide +kernel
  obtain ⟨s, -, made, -⟩ := Scenario.inTrio_eq_some ran
  exact ⟨fits, s, made, ((runs_end .trio fits).2.1 s made).1⟩

end Simulation
end Sidelink
