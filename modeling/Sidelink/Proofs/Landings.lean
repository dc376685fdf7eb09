import Sidelink.Proofs.Preparation

/-!
What becomes of frames. A frame that a station sends is handed to each of its recipients once, after one latency or,
where another node passes it on, after two (`Launch.landings`). What is still to come of a frame on the air is told by
the event that it waits for (`Simulation.expected`), and with each event, what is handed over and what is outstanding
then make up what is sent and what was outstanding before (`Simulation.balance_of_step`). Hence a run that comes to its
end handed over just what was sent, as far as the horizon (`Simulation.landings_exact`).
-/
namespace Sidelink
open Simulation (Event)

/-! ## Launches and landings -/

/-- A frame that a station sends at an instant. -/
structure Launch where
  time : SimTime
  frame : Frame

/-- A frame that is handed to a node at an instant. -/
structure Landing where
  time : SimTime
  node : NodeId
  frame : Frame

/-- Whether a frame reaches a node on its first hop. -/
def Frame.Reaches (f : Frame) (node : NodeId) : Prop := f.envelope.path = .multicast ∨ f.envelope.nextHop = node

instance (f : Frame) (node : NodeId) : Decidable (f.Reaches node) := inferInstanceAs (Decidable (_ ∨ _))

/-- How one of the recipients gets a frame: after one latency, or, passed on to it, after two. -/
def Launch.landing (latency : Nat) (l : Launch) (recipient : NodeId) : Landing :=
  if l.frame.Reaches recipient then ⟨l.time + latency, recipient, l.frame⟩
  else ⟨l.time + 2 * latency, recipient, l.frame.via recipient⟩

def Launch.landings (latency : Nat) (l : Launch) : List Landing := l.frame.envelope.recipients.map (l.landing latency)

namespace Simulation
variable {s t u : Simulation} {event : Event}

/-- The frames that stations send at an event. -/
def launched (s : Simulation) : Event → List Launch
  | .opportunity => (s.transmittedAll s.stations.keys).map fun frame => ⟨s.calendar.now, frame⟩
  | .packet _ | .arrival _ _ | .drainCheck _ _ | .pathSwitch _ _ _ _ => []

/-- The frame that a station is handed at an event. -/
def landed (s : Simulation) : Event → List Landing
  | .arrival node frame =>
    if node ∈ frame.envelope.recipients && s.stations.contains node then [⟨s.calendar.now, node, frame⟩] else []
  | .packet _ | .opportunity | .drainCheck _ _ | .pathSwitch _ _ _ _ => []

theorem plane?_of_scheduleAll {events : List (SimTime × Event)} (scheduled : s.scheduleAll events = .ok t) :
    t.plane? = s.plane? := by
  obtain ⟨calendar, rfl⟩ := calendar_of_scheduleAll scheduled
  rfl

theorem plane?_of_relay {node : NodeId} {frame : Frame} (done : s.relay node frame = .ok t) : t.plane? = s.plane? := by
  cases path : frame.envelope.path with
  | infrastructure =>
    rw [relay_of_infrastructure s node path] at done
    obtain ⟨u, passed, rfl⟩ := ok_of_map done
    rw [← plane?_of_scheduleAll passed]
    exact funext (plane?_modify u node fun _ => rfl)
  | direct | multicast =>
    simp only [relay, path] at done
    rw [Except.ok.inj done]

theorem plane?_of_deliver {node : NodeId} {frame : Frame} {station : Station}
    (found : s.stations.get? node = some station) (done : s.deliver node frame = .ok t) (other : NodeId) :
    t.plane? other =
      if other = node then some ((station.plane.advance s.calendar.now).deliver frame).2 else s.plane? other := by
  have kept (q : DataPlane) :
      (s.keep node q s.timers).plane? other = if other = node then some q else s.plane? other := by
    rw [plane?_keep, plane?_of_station found]
    rfl
  simp only [deliver, found] at done
  generalize (station.plane.advance s.calendar.now).deliver frame = answer at done ⊢
  obtain ⟨result, q⟩ := answer
  cases result with
  | ok sdu =>
    obtain rfl := Except.ok.inj done
    exact (plane?_record _ node _ other).trans (kept q)
  | error fault =>
    simp only at done
    split at done
    · cases done
    · obtain rfl := Except.ok.inj done
      exact kept q

/-- When a frame arrives, the station that is handed it delivers it, and no other station does anything. -/
theorem plane?_of_arrival {node : NodeId} {frame : Frame} (done : s.perform (.arrival node frame) = .ok t)
    (other : NodeId) :
    t.plane? other =
      if (s.landed (.arrival node frame)).any (·.node = other) then
        (s.plane? other).map fun p => ((p.advance s.calendar.now).deliver frame).2
      else s.plane? other := by
  simp only [perform] at done
  split at done
  · rename_i here
    cases found : s.stations.get? node with
    | none =>
      have nothing : s.landed (.arrival node frame) = [] := by simp [landed, SortedMap.contains, found]
      simp only [deliver, found] at done
      obtain rfl := Except.ok.inj done
      simp only [nothing, List.any_nil, Bool.false_eq_true, if_false]
    | some station =>
      have one : s.landed (.arrival node frame) = [⟨s.calendar.now, node, frame⟩] := by
        simp [landed, SortedMap.contains, found, here]
      rw [plane?_of_deliver found done, one]
      by_cases same : other = node
      · simp [same, plane?_of_station found]
      · simp [same, Ne.symm same]
  · rename_i elsewhere
    have nothing : s.landed (.arrival node frame) = [] := by simp [landed, elsewhere]
    simp only [nothing, List.any_nil, Bool.false_eq_true, if_false, plane?_of_relay done]

/-- What the events of a run leave behind, one after the other. -/
def collect {α : Type} (part : Simulation → Event → List α) : Nat → Simulation → List α
  | 0, _ => []
  | count + 1, s =>
    match s.next? with
    | none => []
    | some (event, t) =>
      part t event ++
        match t.handle event with
        | .ok u => collect part count u
        | .error _ => []

/-- The frames that stations send in a run. -/
def launches (s : Simulation) (count : Nat) : List Launch := s.collect launched count

/-- The frames that stations are handed in a run. -/
def landings (s : Simulation) (count : Nat) : List Landing := s.collect landed count

theorem collect_of_none {α : Type} (part : Simulation → Event → List α) (next : s.next? = none) (count : Nat) :
    s.collect part count = [] := by
  cases count with
  | zero => rfl
  | succ count => simp only [collect, next]

theorem collect_of_ok {α : Type} (part : Simulation → Event → List α) (next : s.next? = some (event, t))
    (done : t.handle event = .ok u) (count : Nat) :
    s.collect part (count + 1) = part t event ++ u.collect part count := by
  simp only [collect, next, done]

/-! ## Frames on the air -/

/-- How a frame will be handed over that is to arrive somewhere. -/
def aloft (latency : Nat) : SimTime × Event → List Landing
  | (time, .arrival node frame) =>
    if node ∈ frame.envelope.recipients then [⟨time, node, frame⟩]
    else
      match frame.envelope.path with
      | .infrastructure =>
        frame.envelope.recipients.map fun recipient => ⟨time + latency, recipient, frame.via recipient⟩
      | .direct | .multicast => []
  | (_, .packet _) | (_, .opportunity) | (_, .drainCheck _ _) | (_, .pathSwitch _ _ _ _) => []

/-- What a run will hand over of a frame that is to arrive somewhere. -/
def expected (s : Simulation) (x : SimTime × Event) : List Landing :=
  (aloft s.latency x).filter (·.time ≤ s.horizon)

/-- What a run will hand over of all frames on the air. -/
def outstanding (s : Simulation) : Multiset Landing := s.calendar.dues.bind fun x => ↑(s.expected x)

theorem time_le_of_aloft {latency : Nat} {x : SimTime × Event} {l : Landing} (member : l ∈ aloft latency x) :
    x.1 ≤ l.time := by
  obtain ⟨time, event⟩ := x
  cases event with
  | arrival node frame =>
    simp only [aloft] at member
    split at member
    · rw [List.mem_singleton.1 member]
    · split at member
      · obtain ⟨recipient, -, rfl⟩ := List.mem_map.1 member
        exact Nat.le_add_right time latency
      all_goals cases member
  | packet | opportunity | drainCheck | pathSwitch => cases member

theorem expected_of_late {x : SimTime × Event} (late : s.horizon < x.1) : s.expected x = [] := by
  refine List.filter_eq_nil_iff.2 fun l member => ?_
  have after := Nat.lt_of_lt_of_le late (time_le_of_aloft member)
  simpa using after

/-- The clock stops only after the horizon, so of what comes one latency later, as much comes before the horizon. -/
theorem filter_plusMicros {horizon : SimTime} (fits : horizon < SimTime.last) {g : SimTime → List Landing}
    (ahead : ∀ time, ∀ l ∈ g time, time ≤ l.time) (now : SimTime) (latency : Nat) :
    (g (now.plusMicros latency)).filter (·.time ≤ horizon) = (g (now + latency)).filter (·.time ≤ horizon) := by
  have none_before {time : SimTime} (late : horizon < time) : (g time).filter (·.time ≤ horizon) = [] := by
    refine List.filter_eq_nil_iff.2 fun l member => ?_
    have after := Nat.lt_of_lt_of_le late (ahead time l member)
    simpa using after
  by_cases short : now + latency ≤ SimTime.last
  · rw [SimTime.plusMicros, Nat.min_eq_left short]
  · have beyond : SimTime.last < now + latency := Nat.lt_of_not_le short
    rw [SimTime.plusMicros, Nat.min_eq_right (Nat.le_of_lt beyond), none_before fits,
      none_before (Nat.lt_trans fits beyond)]

theorem aloft_here {node : NodeId} {frame : Frame} (here : node ∈ frame.envelope.recipients) (latency : Nat)
    (time : SimTime) : aloft latency (time, .arrival node frame) = [⟨time, node, frame⟩] :=
  if_pos here

theorem aloft_elsewhere {node : NodeId} {frame : Frame} (elsewhere : node ∉ frame.envelope.recipients)
    (path : frame.envelope.path = .infrastructure) (latency : Nat) (time : SimTime) :
    aloft latency (time, .arrival node frame) =
      frame.envelope.recipients.map fun recipient => ⟨time + latency, recipient, frame.via recipient⟩ := by
  simp only [aloft, if_neg elsewhere, path]

/-- From its first stops, a frame is handed to each of its recipients once. -/
theorem aloft_firstStops {frame : Frame}
    (serves : frame.envelope.path.Serves frame.envelope.nextHop frame.envelope.recipients) (latency : Nat)
    (now : SimTime) :
    (firstStops frame).flatMap (fun node => aloft latency (now + latency, .arrival node frame)) =
      (⟨now, frame⟩ : Launch).landings latency := by
  have first {node : NodeId} (here : node ∈ frame.envelope.recipients) (reaches : frame.Reaches node) :
      aloft latency (now + latency, .arrival node frame) = [(⟨now, frame⟩ : Launch).landing latency node] := by
    rw [aloft_here here, Launch.landing, if_pos reaches]
  cases path : frame.envelope.path with
  | multicast =>
    have stops : firstStops frame = frame.envelope.recipients := by rw [firstStops, path]
    rw [stops, Launch.landings, List.map_eq_flatMap]
    exact List.flatMap_congr fun node here => first here (Or.inl path)
  | direct =>
    have stops : firstStops frame = [frame.envelope.nextHop] := by rw [firstStops, path]
    have one : frame.envelope.recipients = [frame.envelope.nextHop] := by rwa [path] at serves
    rw [stops, List.flatMap_singleton, first (one ▸ List.mem_singleton_self _) (Or.inr rfl), Launch.landings]
    rw [one, List.map_singleton]
  | infrastructure =>
    have stops : firstStops frame = [frame.envelope.nextHop] := by rw [firstStops, path]
    obtain ⟨recipient, one⟩ : ∃ recipient, frame.envelope.recipients = [recipient] := by rwa [path] at serves
    rw [stops, List.flatMap_singleton, Launch.landings, one, List.map_singleton]
    -- the next hop is the recipient, or passes the frame on to it
    by_cases same : frame.envelope.nextHop = recipient
    · rw [same]
      exact first (one ▸ List.mem_singleton_self _) (Or.inr same)
    · have elsewhere : frame.envelope.nextHop ∉ frame.envelope.recipients := by
        rw [one]
        exact fun member => same (List.mem_singleton.1 member)
      have passed : ¬ frame.Reaches recipient := by
        rintro (group | hop)
        · rw [path] at group
          cases group
        · exact same hop
      rw [aloft_elsewhere elsewhere path, one, List.map_singleton, Launch.landing, if_neg passed, Nat.two_mul,
        Nat.add_assoc]

/-- What will be handed over of a frame that is put on its way. -/
theorem expected_headed (fits : s.horizon < SimTime.last) (reached : s.calendar.now ≤ s.horizon) {frame : Frame}
    (serves : frame.envelope.path.Serves frame.envelope.nextHop frame.envelope.recipients) :
    (s.headed frame).flatMap s.expected =
      ((⟨s.calendar.now, frame⟩ : Launch).landings s.latency).filter (·.time ≤ s.horizon) := by
  have ahead := SimTime.le_plusMicros (Nat.le_of_lt (Nat.lt_of_le_of_lt reached fits)) s.latency
  have time : s.arrivalTime = s.calendar.now.plusMicros s.latency := Nat.max_eq_left ahead
  have saturated := filter_plusMicros fits
    (g := fun time => (firstStops frame).flatMap fun node => aloft s.latency (time, .arrival node frame))
    (fun time l member => by
      obtain ⟨node, -, here⟩ := List.mem_flatMap.1 member
      exact time_le_of_aloft here) s.calendar.now s.latency
  rw [aloft_firstStops serves, List.filter_flatMap] at saturated
  rw [headed, List.flatMap_map, time]
  exact saturated

/-- What will be handed over of a frame that a node passes on. -/
theorem expected_passedOn (fits : s.horizon < SimTime.last) {node : NodeId} {frame : Frame}
    (elsewhere : node ∉ frame.envelope.recipients) :
    (s.passedOn frame).flatMap s.expected = s.expected (s.calendar.now, .arrival node frame) := by
  cases path : frame.envelope.path with
  | infrastructure =>
    have saturated := filter_plusMicros fits
      (g := fun time => frame.envelope.recipients.map fun recipient => ⟨time, recipient, frame.via recipient⟩)
      (fun time l member => by
        obtain ⟨recipient, -, rfl⟩ := List.mem_map.1 member
        exact Nat.le_refl time) s.calendar.now s.latency
    rw [expected, aloft_elsewhere elsewhere path, ← saturated, passedOn, path, List.flatMap_map, List.map_eq_flatMap,
      List.filter_flatMap]
    refine List.flatMap_congr fun recipient here => ?_
    have passed : recipient ∈ (frame.via recipient).envelope.recipients := here
    rw [expected, aloft_here passed]
  | direct | multicast =>
    simp only [passedOn, path, expected, aloft, if_neg elsewhere, List.flatMap_nil, List.filter_nil]

/-! ## The balance of a run -/

/-- An event hands over, or makes to be expected, what it sends and what was expected of it. -/
theorem balance_of_event (sound : s.Sound) (fits : s.horizon < SimTime.last) (next : s.next? = some (event, t)) :
    t.landed event ++ (t.sequel event).flatMap t.expected =
      ((t.launched event).flatMap (Launch.landings t.latency)).filter (·.time ≤ t.horizon) ++
        t.expected (t.calendar.now, event) := by
  have taken := taken_of_next? sound next
  have calm := sound_of_next? sound next
  rw [← taken.horizon] at fits
  cases event with
  | packet index =>
    refine List.flatMap_eq_nil_iff.2 fun x member => ?_
    cases follows_of_sequel member
    rfl
  | opportunity =>
    have addressed := (onward_transmitFrom (calm (by rintro ⟨_, _, ⟨⟩⟩)) t.stations.keys).2
    simp only [landed, sequel, launched, List.nil_append, List.flatMap_append, List.flatMap_assoc, List.flatMap_map,
      List.filter_flatMap]
    refine congrArg₂ _ (List.flatMap_congr fun frame member => ?_) rfl
    exact expected_headed fits taken.reached (addressed frame member).serves
  | arrival node frame =>
    by_cases here : node ∈ frame.envelope.recipients
    · -- the recipients are nodes of the directory, and these have stations
      have station : t.stations.contains node = true := by
        have known := (taken.framed.stationed node).2 (taken.isFor node here)
        rwa [plane?, Option.isSome_map] at known
      rw [landed, if_pos (by simp [here, station]), sequel, if_pos here, expected, aloft_here here,
        List.filter_singleton, decide_eq_true taken.reached]
      rfl
    · have elsewhere : node ∉ frame.envelope.recipients := here
      rw [landed, if_neg (by simp [elsewhere]), sequel, if_neg elsewhere, expected_passedOn fits elsewhere]
      rfl
  | drainCheck node peer | pathSwitch node peer path clear => rfl

theorem expected_of_check {x : SimTime × Event} (check : x.2.IsCheck) : s.expected x = [] := by
  obtain ⟨time, event⟩ := x
  obtain ⟨node, peer, rfl⟩ := check
  rfl

theorem expected_congr (scenario : t.scenario = s.scenario) : t.expected = s.expected := by
  funext x
  rw [expected, expected, latency_congr scenario, horizon_congr scenario]

theorem outstanding_of_taken (taken : s.Taken event t) :
    s.outstanding = ↑(t.expected (t.calendar.now, event)) + t.outstanding := by
  rw [outstanding, outstanding, taken.dues, expected_congr taken.scenario, Multiset.cons_bind]

theorem outstanding_of_onward {events : List (SimTime × Event)} (onward : s.Onward ↑events t) :
    t.outstanding = ↑(events.flatMap s.expected) + s.outstanding := by
  obtain ⟨asked, withdrawn, dues, asks, withdraws⟩ := onward.dues
  have nothing {checks : Multiset (SimTime × Event)} (check : ∀ x ∈ checks, x.2.IsCheck) :
      (checks.bind fun x => (↑(s.expected x) : Multiset Landing)) = 0 := by
    rw [Multiset.bind_congr fun x member => congrArg _ (expected_of_check (check x member))]
    exact Multiset.bind_zero checks
  have both := congrArg (fun m => Multiset.bind m fun x => (↑(s.expected x) : Multiset Landing)) dues
  simp only [Multiset.add_bind, nothing fun x member => (asks x member).check, nothing withdraws, add_zero, zero_add,
    Multiset.coe_bind] at both
  rw [outstanding, expected_congr onward.scenario, ← both, outstanding]

/-- What is outstanding after an event is what was outstanding before and what was sent, less what was handed over. -/
theorem balance_of_step (sound : s.Sound) (fits : s.horizon < SimTime.last) (next : s.next? = some (event, t))
    (done : t.handle event = .ok u) :
    ↑(t.landed event) + u.outstanding =
      ↑(((t.launched event).flatMap (Launch.landings s.latency)).filter (·.time ≤ s.horizon)) + s.outstanding := by
  have taken := taken_of_next? sound next
  have balance := balance_of_event sound fits next
  rw [latency_congr taken.scenario, taken.horizon] at balance
  rw [outstanding_of_onward (onward_handle sound next done), outstanding_of_taken taken, ← add_assoc, ← add_assoc,
    Multiset.coe_add, Multiset.coe_add, balance]

/-- In the end nothing is outstanding. -/
theorem outstanding_of_ended (sound : s.Sound) (ended : s.next? = none) : s.outstanding = 0 := by
  rw [outstanding, Multiset.bind_congr fun x due => congrArg _ (expected_of_late (late_of_ended sound ended due))]
  exact Multiset.bind_zero _

/-- What a run hands over is what it sends and what was outstanding at its beginning. -/
theorem balance_of_run {count : Nat} (sound : s.Sound) (fits : s.horizon < SimTime.last)
    (finished : s.runFor count = .ok (some t)) :
    (↑(s.landings count) : Multiset Landing) =
      ↑(((s.launches count).flatMap (Launch.landings s.latency)).filter (·.time ≤ s.horizon)) + s.outstanding := by
  revert sound fits
  refine finished_induction (motive := fun count s => s.Sound → s.horizon < SimTime.last →
    (↑(s.landings count) : Multiset Landing) =
      ↑(((s.launches count).flatMap (Launch.landings s.latency)).filter (·.time ≤ s.horizon)) + s.outstanding)
    (fun ended sound fits => ?_) (fun {count s event next' u} next done ih sound fits => ?_) finished
  · rw [landings, launches, collect_of_none _ ended, collect_of_none _ ended, outstanding_of_ended sound ended]
    rfl
  · obtain ⟨sound', scenario, -⟩ := Happens.keeps ⟨next', next, done⟩ sound
    have balance := balance_of_step sound fits next done
    have later := ih sound' ((horizon_congr scenario).trans_lt fits)
    rw [horizon_congr scenario, latency_congr scenario, landings, launches] at later
    rw [landings, launches, collect_of_ok _ next done, collect_of_ok _ next done, List.flatMap_append,
      List.filter_append, ← Multiset.coe_add, ← Multiset.coe_add, later, add_left_comm, balance]
    abel

/-! ## Runs that come to their end -/

/-- There is always another opportunity, and the clock can tell when. -/
theorem opportunity_of_happens (sound : s.Sound) (happens : s.Happens event u) {time : SimTime}
    (due : (time, .opportunity) ∈ s.calendar.dues) (reachable : time ≤ SimTime.last) :
    ∃ time ≤ SimTime.last, (time, .opportunity) ∈ u.calendar.dues := by
  obtain ⟨t, next, done⟩ := happens
  have taken := taken_of_next? sound next
  have left {time : SimTime} := (onward_handle sound next done).mem_dues_iff (x := (time, .opportunity))
    (by rintro ⟨_, _, ⟨⟩⟩)
  rw [taken.dues] at due
  rcases Multiset.mem_cons.1 due with now | later
  · obtain ⟨-, rfl⟩ := Prod.mk.inj now
    exact ⟨_, Nat.min_le_right _ _, left.2 (Or.inl (Multiset.mem_coe.2 (List.mem_append_right _ List.mem_cons_self)))⟩
  · exact ⟨time, reachable, left.2 (Or.inr later)⟩

/-- A run that comes to its end does so before the last instant of the clock. -/
theorem short_of_finished {count : Nat} (sound : s.Sound) {time : SimTime}
    (due : (time, .opportunity) ∈ s.calendar.dues) (reachable : time ≤ SimTime.last)
    (finished : s.runFor count = .ok (some t)) : s.horizon < SimTime.last := by
  revert sound time
  refine finished_induction (motive := fun _ s => s.Sound → ∀ {time : SimTime},
    (time, .opportunity) ∈ s.calendar.dues → time ≤ SimTime.last → s.horizon < SimTime.last)
    (fun ended sound _ due reachable => ?_)
    (fun {count s event next' u} next done ih sound _ due reachable => ?_) finished
  · exact Nat.lt_of_lt_of_le (late_of_ended sound ended due) reachable
  · have happens : s.Happens event u := ⟨next', next, done⟩
    obtain ⟨sound', scenario, -⟩ := happens.keeps sound
    obtain ⟨time, reachable', due'⟩ := opportunity_of_happens sound happens due reachable
    exact (horizon_congr scenario).symm.trans_lt (ih sound' due' reachable')

theorem addressed_of_launched (sound : s.Sound) (next : s.next? = some (event, t)) {l : Launch}
    (sent : l ∈ t.launched event) : l.frame.Addressed s.directory := by
  cases event with
  | opportunity =>
    have sound' := sound_of_next? sound next (by rintro ⟨_, _, ⟨⟩⟩)
    obtain ⟨frame, transmitted, rfl⟩ := List.mem_map.1 sent
    rw [← (taken_of_next? sound next).directory]
    exact (onward_transmitFrom sound' t.stations.keys).2 frame transmitted
  | packet | arrival | drainCheck | pathSwitch => cases sent

/-- All frames of a run are for stations that they can reach. -/
theorem addressed_of_launches {count : Nat} (sound : s.Sound) {l : Launch} (sent : l ∈ s.launches count) :
    l.frame.Addressed s.directory := by
  induction count generalizing s with
  | zero => cases sent
  | succ count ih =>
    cases next : s.next? with
    | none => simp only [launches, collect, next, List.not_mem_nil] at sent
    | some answer =>
      obtain ⟨event, t⟩ := answer
      simp only [launches, collect, next] at sent
      rcases List.mem_append.1 sent with now | later
      · exact addressed_of_launched sound next now
      · cases done : t.handle event with
        | error error =>
          rw [done] at later
          cases later
        | ok u =>
          rw [done] at later
          obtain ⟨sound', -, directory⟩ := Happens.keeps ⟨t, next, done⟩ sound
          exact directory ▸ ih sound' later

/-- In every run that comes to its end, each frame that a station sends is handed to each of its recipients exactly
once, one or two latencies after it was sent, if that is not after the horizon; and nothing else is handed to any
station. A station that is handed a frame delivers it, and no other does. -/
theorem landings_exact {scenario : Scenario} {count : Nat} (made : ofScenario scenario = .ok s)
    (finished : s.runFor count = .ok (some t)) :
    (∀ l ∈ s.launches count, l.frame.envelope.recipients.Nodup) ∧
      (s.landings count).Perm
        (((s.launches count).flatMap (Launch.landings s.latency)).filter (·.time ≤ s.horizon)) ∧
      ∀ {s t : Simulation} {node : NodeId} {frame : Frame}, s.handle (.arrival node frame) = .ok t → ∀ other,
        t.plane? other =
          if (s.landed (.arrival node frame)).any (·.node = other) then
            (s.plane? other).map fun p => ((p.advance s.calendar.now).deliver frame).2
          else s.plane? other := by
  have ready := ready_ofScenario made
  have opportunity : (0, .opportunity) ∈ s.calendar.dues :=
    (ready.dues _ (by rintro ⟨_, _, ⟨⟩⟩)).2 scenario.opportunity_mem_firstEvents
  have fits := short_of_finished ready.sound opportunity (Nat.zero_le _) finished
  refine ⟨fun l member => (addressed_of_launches ready.sound member).serves.nodup, Multiset.coe_eq_coe.1 ?_,
    fun done => plane?_of_arrival (handle_eq_ok_iff.1 done).1⟩
  have nothing : s.outstanding = 0 := by
    rw [outstanding, Multiset.bind_congr (g := fun _ => 0) fun x due => ?_]
    · exact Multiset.bind_zero _
    · by_cases check : x.2.IsCheck
      · exact congrArg _ (expected_of_check check)
      · obtain ⟨time, event⟩ := x
        rcases Scenario.mem_firstEvents ((ready.dues _ check).1 due) with ⟨_, rfl⟩ | rfl | ⟨_, _, _, _, rfl⟩ <;> rfl
  rw [balance_of_run ready.sound fits finished, nothing, add_zero]

theorem landings_exact_in_trio : ∃ s t, ofScenario .trio = .ok s ∧ s.runFor 16 = .ok (some t) ∧
    (s.launches 16).length = 5 ∧
      (s.landings 16).map (fun l => (l.time, l.node)) = [(1000, ⟨3⟩), (1000, ⟨2⟩), (4000, ⟨3⟩)] ∧
      (s.landings 16).Perm
        (((s.launches 16).flatMap (Launch.landings s.latency)).filter (·.time ≤ s.horizon)) := by
  have ran : Scenario.inTrio 16 (fun s => ((s.launches 16).length, (s.landings 16).map fun l => (l.time, l.node))) =
      some (5, [(1000, ⟨3⟩), (1000, ⟨2⟩), (4000, ⟨3⟩)]) := by decide +kernel
  obtain ⟨s, t, made, finished, told⟩ := Scenario.inTrio_eq_some ran
  obtain ⟨sent, handed⟩ := Prod.mk.inj told
  exact ⟨s, t, made, finished, sent, handed, (landings_exact made finished).2.1⟩

end Simulation
end Sidelink
