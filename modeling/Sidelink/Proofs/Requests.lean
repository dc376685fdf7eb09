import Sidelink.Proofs.Checks

/-!
The last request wins. Whoever holds the switches of a node may ask for a switch, look at a peer, let a drain check
fire, let a unit wait and forget all peers, in any order, and the links, buffers and clock are whatever they are at the
time (`SwitchCall`). A peer that switches is on its way to the path that was asked for last; once it does not switch any
more, it is on that path (`PathSwitches.last_request_wins`).
-/
namespace Sidelink

/-- What a step of a switch finds around it. -/
structure Surroundings where
  links : PeerLinks
  buffers : TransmitBuffers
  timers : Timers

/-- What can be done to the switches of a node. -/
inductive SwitchCall where
  | start (around : Surroundings) (peer : NodeId) (path : Path) (clear : Bool)
  | reevaluate (around : Surroundings) (peer : NodeId)
  /-- A drain check fires, whether or not one was asked for. -/
  | checkFired (around : Surroundings) (peer : NodeId)
  | defer (peer : NodeId) (unit : DeferredSdu)
  | clear

/-- A call, and the switch that it ended, if it ended one. -/
structure SwitchRecord where
  call : SwitchCall
  done : Option SwitchCompletion

namespace PathSwitches

/-- What a call makes of the switches, and the switch that it ends. -/
def take (s : PathSwitches) : SwitchCall → PathSwitches × Option SwitchCompletion
  | .start around peer path clear =>
    let step := s.start around.links around.buffers around.timers peer path clear
    (step.switches, step.completion)
  | .reevaluate around peer =>
    let step := s.reevaluate around.links around.buffers around.timers peer
    (step.switches, step.completion)
  | .checkFired around peer =>
    let step := s.checkFired around.links around.buffers around.timers peer
    (step.switches, step.completion)
  | .defer peer unit => ((s.defer peer unit).2, none)
  | .clear => (s.clear, none)

/-- The switches after some calls. -/
def takeAll (s : PathSwitches) (calls : List SwitchCall) : PathSwitches := calls.foldl (fun s call => (s.take call).1) s

/-- What some calls did, one after the other. -/
def records (s : PathSwitches) : List SwitchCall → List SwitchRecord
  | [] => []
  | call :: rest => ⟨call, (s.take call).2⟩ :: (s.take call).1.records rest

end PathSwitches

namespace SwitchRecord

/-- The path of the switch of a peer that a call ends, or else the one that ended before. -/
def endedBy (peer : NodeId) (before : Option Path) : Option SwitchCompletion → Option Path
  | some done => if peer = done.peer then some done.path else before
  | none => before

/-- The path asked for last, given the one asked for before a call. -/
def requested (peer : NodeId) (before : Option Path) (r : SwitchRecord) : Option Path :=
  match r.call with
  | .start _ other path _ => if peer = other then some path else before
  | .clear => none
  | .reevaluate _ _ | .checkFired _ _ | .defer _ _ => before

/-- The path of the switch that ended last, given the one that ended before a call. -/
def ended (peer : NodeId) (before : Option Path) (r : SwitchRecord) : Option Path :=
  match r.call with
  | .clear => none
  | .start .. | .reevaluate .. | .checkFired .. | .defer .. => endedBy peer before r.done

/-- The path that was asked for last for a peer, since all peers were forgotten. -/
def lastRequested (peer : NodeId) (rs : List SwitchRecord) : Option Path := rs.foldl (requested peer) none

/-- The path of the switch of a peer that ended last, since all peers were forgotten. -/
def lastEnded (peer : NodeId) (rs : List SwitchRecord) : Option Path := rs.foldl (ended peer) none

end SwitchRecord

namespace PathSwitches
variable {s : PathSwitches} {peer : NodeId} {requested ended : Option Path}

/-- Whether a peer is where its requests lead: on the path of the last switch that ended, and on the way to the path
that was asked for last, unless it has arrived there. -/
structure Heeds (s : PathSwitches) (peer : NodeId) (requested ended : Option Path) : Prop where
  arrived : s.paths.get? peer = ended
  target : match s.phase peer with
    | .switching target _ => requested = some target
    | .active | .switched => requested = ended

theorem heeds_new (capacity interval : Nat) (peer : NodeId) : (new capacity interval).Heeds peer none none := ⟨rfl, rfl⟩

theorem Heeds.congr {t : PathSwitches} (heeds : s.Heeds peer requested ended) (paths : t.paths = s.paths)
    (phase : t.phase peer = s.phase peer) : t.Heeds peer requested ended := by
  refine ⟨?_, ?_⟩
  · rw [paths]
    exact heeds.arrived
  · rw [phase]
    exact heeds.target

theorem heeds_setPhase_of_ne (heeds : s.Heeds peer requested ended) {other : NodeId} (different : peer ≠ other)
    (phase : SwitchPhase) : (s.setPhase other phase).Heeds peer requested ended := by
  refine heeds.congr rfl ?_
  rw [phase_insert (s := s) (t := s.setPhase other phase) rfl, if_neg different]

/-- A switch under way may be given a drain check, or lose it. -/
theorem heeds_recheck (heeds : s.Heeds peer requested ended) {other : NodeId} {target : Path}
    {check : Option EventId} (switching : s.phase other = .switching target check) (check' : Option EventId) :
    (s.setPhase other (.switching target check')).Heeds peer requested ended := by
  by_cases same : peer = other
  · subst same
    have goal := heeds.target
    rw [switching] at goal
    refine ⟨heeds.arrived, ?_⟩
    rw [phase_setPhase]
    exact goal
  · exact heeds_setPhase_of_ne heeds same _

/-- A peer whose switch ends has arrived where it was asked to go. -/
theorem heeds_complete (heeds : s.Heeds peer requested ended) {other : NodeId} {target : Path}
    {check : Option EventId} (switching : s.phase other = .switching target check) (links : PeerLinks)
    (buffers : TransmitBuffers) (timers : Timers) :
    (s.complete links buffers timers other target).switches.Heeds peer requested
      (if peer = other then some target else ended) := by
  have phase := phase_insert (s := s) (t := (s.complete links buffers timers other target).switches) rfl peer
  by_cases same : peer = other
  · subst same
    have goal := heeds.target
    rw [switching] at goal
    rw [if_pos rfl] at phase ⊢
    refine ⟨SortedMap.get?_insert_self _ _ _, ?_⟩
    rw [phase]
    exact goal
  · rw [if_neg same] at phase ⊢
    refine ⟨(SortedMap.get?_insert_of_ne _ same _).trans heeds.arrived, ?_⟩
    rw [phase]
    exact heeds.target

theorem heeds_looked (heeds : s.Heeds peer requested ended) {links : PeerLinks} {buffers : TransmitBuffers}
    {timers : Timers} {other : NodeId} {step : SwitchStep} (looked : s.Looked links buffers timers other step) :
    step.switches.Heeds peer requested (SwitchRecord.endedBy peer ended step.completion) := by
  cases looked with
  | calm still => exact heeds
  | waits switching draining => exact heeds
  | asks switching draining => exact heeds_recheck heeds switching _
  | ends switching drained => exact heeds_complete heeds switching links buffers _

theorem heeds_begun (heeds : s.Heeds peer requested ended) (other : NodeId) (path : Path) :
    (s.begun other path).Heeds peer (if peer = other then some path else requested) ended := by
  have phase := phase_insert (s := s) (t := s.begun other path) rfl peer
  by_cases same : peer = other
  · rw [if_pos same] at phase ⊢
    exact ⟨heeds.arrived, by rw [phase]⟩
  · rw [if_neg same] at phase ⊢
    exact heeds.congr rfl phase

theorem heeds_start (heeds : s.Heeds peer requested ended) (links : PeerLinks) (buffers : TransmitBuffers)
    (timers : Timers) (other : NodeId) (path : Path) (clear : Bool) :
    (s.start links buffers timers other path clear).switches.Heeds peer
      (if peer = other then some path else requested)
      (SwitchRecord.endedBy peer ended (s.start links buffers timers other path clear).completion) := by
  have begun := heeds_begun heeds other path
  rw [start_eq]
  cases clear with
  | false => exact heeds_looked begun (looked_reevaluate _ _ _ _ _)
  | true =>
    simp only [if_true]
    generalize (s.begun other path).counters.discarded + _ = n
    have counted := begun.congr (t := { s.begun other path with
      counters := { (s.begun other path).counters with discarded := n } }) rfl rfl
    exact heeds_complete counted (phase_setPhase s other _) links _ _

theorem heeds_checkFired (heeds : s.Heeds peer requested ended) (links : PeerLinks) (buffers : TransmitBuffers)
    (timers : Timers) (other : NodeId) :
    (s.checkFired links buffers timers other).switches.Heeds peer requested
      (SwitchRecord.endedBy peer ended (s.checkFired links buffers timers other).completion) := by
  rcases s.checkFired_eq links buffers timers other with ⟨-, same⟩ | ⟨target, check, switching, looks⟩
  · rw [same]
    exact heeds
  · rw [looks]
    exact heeds_looked (heeds_recheck heeds switching none) (looked_reevaluate _ _ _ _ _)

theorem paths_defer (s : PathSwitches) (peer : NodeId) (unit : DeferredSdu) :
    (s.defer peer unit).2.paths = s.paths := by
  unfold defer
  split
  · rfl
  · split <;> rfl

/-- Every call leaves a peer where its requests lead. -/
theorem heeds_take (heeds : s.Heeds peer requested ended) (call : SwitchCall) :
    (s.take call).1.Heeds peer (SwitchRecord.requested peer requested ⟨call, (s.take call).2⟩)
      (SwitchRecord.ended peer ended ⟨call, (s.take call).2⟩) := by
  cases call with
  | start around other path clear =>
    exact heeds_start heeds around.links around.buffers around.timers other path clear
  | reevaluate around other =>
    exact heeds_looked heeds (looked_reevaluate s around.links around.buffers around.timers other)
  | checkFired around other => exact heeds_checkFired heeds around.links around.buffers around.timers other
  | defer other unit => exact heeds.congr (paths_defer s other unit) (phase_defer s other unit peer)
  | clear => exact ⟨rfl, rfl⟩

theorem heeds_takeAll (heeds : s.Heeds peer requested ended) (calls : List SwitchCall) :
    (s.takeAll calls).Heeds peer ((s.records calls).foldl (SwitchRecord.requested peer) requested)
      ((s.records calls).foldl (SwitchRecord.ended peer) ended) := by
  induction calls generalizing s requested ended with
  | nil => exact heeds
  | cons call rest ih => exact ih (heeds_take heeds call)

/-- After any calls, a peer is on the path of its last switch that ended, or can still be reached directly if there was
none. While it switches, it does so to the path that was asked for last; when it does not, it is on that path. -/
theorem last_request_wins (capacity interval : Nat) (calls : List SwitchCall) (peer : NodeId) :
    let s := (new capacity interval).takeAll calls
    let rs := (new capacity interval).records calls
    s.currentPath peer = (SwitchRecord.lastEnded peer rs).getD .direct ∧
      match s.phase peer with
      | .switching target _ => SwitchRecord.lastRequested peer rs = some target
      | .active | .switched => s.currentPath peer = (SwitchRecord.lastRequested peer rs).getD .direct := by
  intro s rs
  have heeds : s.Heeds peer (SwitchRecord.lastRequested peer rs) (SwitchRecord.lastEnded peer rs) :=
    heeds_takeAll (heeds_new capacity interval peer) calls
  have current : s.currentPath peer = (SwitchRecord.lastEnded peer rs).getD .direct :=
    congrArg (·.getD Path.direct) heeds.arrived
  refine ⟨current, ?_⟩
  have arrival := heeds.target
  cases phase : s.phase peer with
  | switching target check =>
    rw [phase] at arrival
    exact arrival
  | active | switched =>
    rw [phase] at arrival
    exact current.trans (congrArg (·.getD Path.direct) arrival.symm)

end PathSwitches
end Sidelink
