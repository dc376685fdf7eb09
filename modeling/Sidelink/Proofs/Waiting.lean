import Sidelink.Proofs.Requests

/-!
Units that wait for a peer are neither lost nor mixed up. Whoever holds the switches of a node may call them in any
order (`SwitchCall`), for any peers, as long as it does not make them forget all peers. The units that were let wait for
a peer are then those that the completions of its switches handed out, one after the other, and behind them those that
still wait (`PathSwitches.waiting_lossless`). What one peer's units are makes no difference to the completions of the
others: if each unit for the peer had been another one, just those in the peer's own completions would be others, too.
-/
namespace Sidelink

/-! ## Units of one peer in the place of others -/

/-- The call with the units for a peer changed. -/
def SwitchCall.onUnits (peer : NodeId) (f : DeferredSdu → DeferredSdu) : SwitchCall → SwitchCall
  | .defer other unit => .defer other (if other = peer then f unit else unit)
  | call => call

def SwitchCompletion.onUnits (peer : NodeId) (f : DeferredSdu → DeferredSdu) (done : SwitchCompletion) :
    SwitchCompletion :=
  if done.peer = peer then { done with deferred := done.deferred.map f } else done

/-- The units for a peer that some completions hand out, in order. -/
def SwitchCompletion.handedTo (peer : NodeId) (done : List SwitchCompletion) : List DeferredSdu :=
  (done.filter (·.peer = peer)).flatMap (·.deferred)

/-- The switches that ended with some calls, one after the other. -/
def SwitchRecord.completions (rs : List SwitchRecord) : List SwitchCompletion := rs.filterMap (·.done)

namespace PathSwitches

/-- The switches with the units that wait for a peer changed. -/
def onUnits (peer : NodeId) (f : DeferredSdu → DeferredSdu) (s : PathSwitches) : PathSwitches :=
  { s with
    peers := s.peers.mapEntries fun other state =>
      if other = peer then { state with deferred := state.deferred.map f } else state }

end PathSwitches

def SwitchStep.onUnits (peer : NodeId) (f : DeferredSdu → DeferredSdu) (step : SwitchStep) : SwitchStep :=
  { step with switches := step.switches.onUnits peer f, completion := step.completion.map (·.onUnits peer f) }

namespace PathSwitches

/-- The unit that a call lets wait for a peer, if it does. -/
def accepts (s : PathSwitches) (peer : NodeId) : SwitchCall → List DeferredSdu
  | .defer other unit => if other = peer ∧ (s.defer other unit).1 = true then [unit] else []
  | .start .. | .reevaluate .. | .checkFired .. | .clear => []

/-- The units that some calls let wait for a peer, in order. -/
def accepted (s : PathSwitches) (peer : NodeId) : List SwitchCall → List DeferredSdu
  | [] => []
  | call :: rest => s.accepts peer call ++ (s.take call).1.accepted peer rest

/-! ## What a call does to the units that wait -/

variable {s t : PathSwitches} {peer : NodeId}

/-- Whether the units that waited for a peer before are those that a completion hands out, with those that wait
afterwards behind them. -/
structure Passes (s : PathSwitches) (done : Option SwitchCompletion) (t : PathSwitches) : Prop where
  waiting : ∀ peer, s.deferred peer = SwitchCompletion.handedTo peer done.toList ++ t.deferred peer
  capacity : t.capacity = s.capacity

namespace Passes

theorem of_same (waiting : ∀ peer, t.deferred peer = s.deferred peer) (capacity : t.capacity = s.capacity) :
    Passes s none t :=
  ⟨fun peer => (waiting peer).symm, capacity⟩

theorem after {r : PathSwitches} {done : Option SwitchCompletion} (first : Passes s none t) (second : Passes t done r) :
    Passes s done r :=
  ⟨fun peer => (first.waiting peer).trans (second.waiting peer), second.capacity.trans first.capacity⟩

theorem of_setPhase (s : PathSwitches) (other : NodeId) (phase : SwitchPhase) :
    Passes s none (s.setPhase other phase) :=
  of_same (deferred_setPhase s other phase) rfl

/-- A switch that ends hands out all that waited for its peer. -/
theorem of_complete (s : PathSwitches) (links : PeerLinks) (buffers : TransmitBuffers) (timers : Timers)
    (other : NodeId) (path : Path) :
    Passes s (s.complete links buffers timers other path).completion
      (s.complete links buffers timers other path).switches where
  waiting := fun peer => by
    have left := deferred_insert (s := s) (t := (s.complete links buffers timers other path).switches) rfl peer
    by_cases same : peer = other
    · rw [left, if_pos same, same]
      simp [complete, SwitchCompletion.handedTo]
    · rw [left, if_neg same]
      simp [complete, SwitchCompletion.handedTo, Ne.symm same]
  capacity := rfl

theorem of_looked {links : PeerLinks} {buffers : TransmitBuffers} {timers : Timers} {other : NodeId}
    {step : SwitchStep} (looked : s.Looked links buffers timers other step) :
    Passes s step.completion step.switches := by
  cases looked with
  | calm still => exact of_same (fun peer => rfl) rfl
  | waits switching draining => exact of_same (fun peer => rfl) rfl
  | asks switching draining => exact of_setPhase s _ _
  | ends switching drained => exact of_complete s links buffers _ _ _

theorem of_start (s : PathSwitches) (links : PeerLinks) (buffers : TransmitBuffers) (timers : Timers) (other : NodeId)
    (path : Path) (clear : Bool) :
    Passes s (s.start links buffers timers other path clear).completion
      (s.start links buffers timers other path clear).switches := by
  have begun : Passes s none (s.begun other path) := of_same (deferred_setPhase s other (.switching path none)) rfl
  rw [start_eq]
  cases clear with
  | false => exact begun.after (of_looked (looked_reevaluate _ _ _ _ _))
  | true =>
    simp only [if_true]
    generalize (s.begun other path).counters.discarded + _ = n
    have counted : Passes s none { s.begun other path with
        counters := { (s.begun other path).counters with discarded := n } } :=
      begun.after (of_same (fun peer => rfl) rfl)
    exact counted.after (of_complete _ links _ _ other path)

theorem of_checkFired (s : PathSwitches) (links : PeerLinks) (buffers : TransmitBuffers) (timers : Timers)
    (other : NodeId) :
    Passes s (s.checkFired links buffers timers other).completion
      (s.checkFired links buffers timers other).switches := by
  rcases s.checkFired_eq links buffers timers other with ⟨-, same⟩ | ⟨target, check, switching, looks⟩
  · rw [same]
    exact of_same (fun peer => rfl) rfl
  · rw [looks]
    exact (of_setPhase s other (.switching target none)).after (of_looked (looked_reevaluate _ _ _ _ _))

end Passes

/-- A unit is let wait behind all others, if there is room. -/
theorem deferred_defer (s : PathSwitches) (peer other : NodeId) (unit : DeferredSdu) :
    (s.defer other unit).2.deferred peer = s.deferred peer ++ s.accepts peer (.defer other unit) ∧
      ((s.defer other unit).1 = true → (s.deferred other).length < s.capacity) := by
  simp only [accepts, defer]
  cases found : s.peers.get? other with
  | none => simp
  | some state =>
    have waited : s.deferred other = state.deferred := by simp only [deferred, found]
    by_cases full : s.capacity ≤ state.deferred.length
    · simp only [if_pos full]
      exact ⟨by simp [deferred], fun taken => by cases taken⟩
    · simp only [if_neg full, and_true]
      refine ⟨?_, fun _ => by rw [waited]; omega⟩
      refine (deferred_waited found unit peer).trans ?_
      by_cases same : other = peer
      · rw [if_pos same.symm, if_pos same, same]
      · rw [if_neg (Ne.symm same), if_neg same, List.append_nil]

/-- Every call but the one that forgets all peers hands out, of the units that waited for a peer and the one that it
lets wait behind them, the first ones, and leaves the others. -/
theorem deferred_take {call : SwitchCall} (kept : call ≠ .clear) (s : PathSwitches) (peer : NodeId) :
    s.deferred peer ++ s.accepts peer call =
      SwitchCompletion.handedTo peer (s.take call).2.toList ++ (s.take call).1.deferred peer := by
  cases call with
  | start around other path clear =>
    rw [accepts, List.append_nil]
    exact (Passes.of_start s around.links around.buffers around.timers other path clear).waiting peer
  | reevaluate around other =>
    rw [accepts, List.append_nil]
    exact (Passes.of_looked (looked_reevaluate s around.links around.buffers around.timers other)).waiting peer
  | checkFired around other =>
    rw [accepts, List.append_nil]
    exact (Passes.of_checkFired s around.links around.buffers around.timers other).waiting peer
  | defer other unit => exact (deferred_defer s peer other unit).1.symm
  | clear => exact absurd rfl kept

theorem length_deferred_take {call : SwitchCall} (kept : call ≠ .clear)
    (within : ∀ peer, (s.deferred peer).length ≤ s.capacity) (peer : NodeId) :
    ((s.take call).1.deferred peer).length ≤ s.capacity := by
  have waits := congrArg List.length (deferred_take kept s peer)
  simp only [List.length_append] at waits
  have before := within peer
  cases call with
  | start | reevaluate | checkFired =>
    simp only [accepts, List.length_nil] at waits
    omega
  | clear => exact absurd rfl kept
  | defer other unit =>
    have room := (deferred_defer s peer other unit).2
    simp only [accepts] at waits
    split at waits
    · rename_i taken
      have := room taken.2
      rw [taken.1] at this
      simp only [List.length_singleton] at waits
      omega
    · simp only [List.length_nil] at waits
      omega

theorem capacity_take (s : PathSwitches) (call : SwitchCall) : (s.take call).1.capacity = s.capacity := by
  cases call with
  | start around other path clear =>
    exact (Passes.of_start s around.links around.buffers around.timers other path clear).capacity
  | reevaluate around other =>
    exact (Passes.of_looked (looked_reevaluate s around.links around.buffers around.timers other)).capacity
  | checkFired around other =>
    exact (Passes.of_checkFired s around.links around.buffers around.timers other).capacity
  | defer other unit =>
    simp only [take, defer]
    split
    · rfl
    · split <;> rfl
  | clear => rfl

/-! ## What a call does with other units -/

section
variable (s : PathSwitches) (peer : NodeId) (f : DeferredSdu → DeferredSdu) (links : PeerLinks)
  (buffers : TransmitBuffers) (timers : Timers) (other : NodeId)

theorem get?_onUnits : (s.onUnits peer f).peers.get? other = (s.peers.get? other).map fun state =>
    if other = peer then { state with deferred := state.deferred.map f } else state :=
  SortedMap.get?_mapEntries _ _ _

theorem phase_onUnits : (s.onUnits peer f).phase other = s.phase other := by
  simp only [phase, get?_onUnits]
  cases s.peers.get? other with
  | none => rfl
  | some state =>
    simp only [Option.map_some]
    split <;> rfl

theorem deferred_onUnits :
    (s.onUnits peer f).deferred other = if other = peer then (s.deferred other).map f else s.deferred other := by
  simp only [deferred, get?_onUnits]
  cases s.peers.get? other with
  | none => simp
  | some state =>
    simp only [Option.map_some]
    split <;> rfl

/-- An entry that is put in among other units is put in with other units. -/
theorem insert_onUnits (entry : PeerSwitch) :
    ({ s with peers := s.peers.insert other entry }.onUnits peer f).peers = (s.onUnits peer f).peers.insert other
      ⟨entry.phase, if other = peer then entry.deferred.map f else entry.deferred⟩ := by
  simp only [onUnits, SortedMap.mapEntries_insert]
  split <;> rfl

theorem setPhase_onUnits (phase : SwitchPhase) :
    (s.onUnits peer f).setPhase other phase = (s.setPhase other phase).onUnits peer f := by
  have peers := s.insert_onUnits peer f other ⟨phase, s.deferred other⟩
  rw [← deferred_onUnits] at peers
  exact congrArg (fun peers => { s with peers }) peers.symm

theorem complete_onUnits (path : Path) :
    (s.onUnits peer f).complete links buffers timers other path =
      (s.complete links buffers timers other path).onUnits peer f := by
  have peers := s.insert_onUnits peer f other ⟨.switched, []⟩
  rw [List.map_nil, ite_self] at peers
  simp only [complete, SwitchStep.onUnits, deferred_onUnits, Option.map_some, SwitchCompletion.onUnits]
  refine (congrArg (fun peers => SwitchStep.mk { s with
      peers
      paths := s.paths.insert other path
      counters := { s.counters with completed := s.counters.completed + 1 } } _ _ _) peers.symm).trans ?_
  split <;> rfl

theorem reevaluate_onUnits :
    (s.onUnits peer f).reevaluate links buffers timers other =
      (s.reevaluate links buffers timers other).onUnits peer f := by
  simp only [reevaluate, phase_onUnits]
  cases s.phase other with
  | active | switched => rfl
  | switching target check =>
    simp only
    split
    · cases check with
      | some id => rfl
      | none =>
        simp only [setPhase_onUnits]
        rfl
    · exact s.complete_onUnits peer f links buffers _ other target

theorem start_onUnits (path : Path) (clear : Bool) :
    (s.onUnits peer f).start links buffers timers other path clear =
      (s.start links buffers timers other path clear).onUnits peer f := by
  have begun : (s.onUnits peer f).begun other path = (s.begun other path).onUnits peer f := by
    simp only [PathSwitches.begun, setPhase_onUnits]
    rfl
  simp only [start_eq, begun, phase_onUnits]
  cases clear with
  | false => exact reevaluate_onUnits _ peer f links _ _ other
  | true =>
    simp only [if_true]
    exact complete_onUnits { s.begun other path with
      counters := { (s.begun other path).counters with discarded := (s.begun other path).counters.discarded + _ } }
      peer f links _ _ other path

theorem checkFired_onUnits :
    (s.onUnits peer f).checkFired links buffers timers other =
      (s.checkFired links buffers timers other).onUnits peer f := by
  simp only [checkFired, phase_onUnits]
  cases s.phase other with
  | active | switched => rfl
  | switching target check =>
    simp only [setPhase_onUnits]
    exact reevaluate_onUnits _ peer f links buffers timers other

/-- Whether there is room for a unit does not depend on the units. -/
theorem defer_onUnits (unit : DeferredSdu) :
    (s.onUnits peer f).defer other (if other = peer then f unit else unit) =
      ((s.defer other unit).1, (s.defer other unit).2.onUnits peer f) := by
  simp only [defer, get?_onUnits]
  cases s.peers.get? other with
  | none => rfl
  | some state =>
    have length : (if other = peer then { state with deferred := state.deferred.map f } else state).deferred.length =
        state.deferred.length := by
      split
      · exact List.length_map f
      · rfl
    have entry : ({ (if other = peer then { state with deferred := state.deferred.map f } else state) with
          deferred := (if other = peer then { state with deferred := state.deferred.map f } else state).deferred ++
            [if other = peer then f unit else unit] } : PeerSwitch) =
        ⟨state.phase, if other = peer then (state.deferred ++ [unit]).map f else state.deferred ++ [unit]⟩ := by
      split <;> simp
    have peers := s.insert_onUnits peer f other { state with deferred := state.deferred ++ [unit] }
    simp only [Option.map_some, length, entry, ← peers]
    by_cases full : s.capacity ≤ state.deferred.length
    · rw [if_pos full, if_pos (show (s.onUnits peer f).capacity ≤ _ from full)]
      rfl
    · rw [if_neg full, if_neg (show ¬ (s.onUnits peer f).capacity ≤ _ from full)]
      rfl

end

/-- A call with other units for a peer does the same as the call, with the other units. -/
theorem take_onUnits (s : PathSwitches) (peer : NodeId) (f : DeferredSdu → DeferredSdu) (call : SwitchCall) :
    (s.onUnits peer f).take (call.onUnits peer f) =
      ((s.take call).1.onUnits peer f, (s.take call).2.map (·.onUnits peer f)) := by
  cases call with
  | start around other path clear =>
    simp only [take, SwitchCall.onUnits, start_onUnits]
    rfl
  | reevaluate around other =>
    simp only [take, SwitchCall.onUnits, reevaluate_onUnits]
    rfl
  | checkFired around other =>
    simp only [take, SwitchCall.onUnits, checkFired_onUnits]
    rfl
  | defer other unit =>
    simp only [take, SwitchCall.onUnits, defer_onUnits]
    rfl
  | clear => rfl

/-! ## What some calls do -/

theorem completions_cons (call : SwitchCall) (rest : List SwitchCall) :
    SwitchRecord.completions (s.records (call :: rest)) =
      (s.take call).2.toList ++ SwitchRecord.completions ((s.take call).1.records rest) := by
  simp only [SwitchRecord.completions, records, List.filterMap_cons]
  cases (s.take call).2 <;> rfl

theorem handedTo_append (peer : NodeId) (done more : List SwitchCompletion) :
    SwitchCompletion.handedTo peer (done ++ more) =
      SwitchCompletion.handedTo peer done ++ SwitchCompletion.handedTo peer more := by
  simp only [SwitchCompletion.handedTo, List.filter_append, List.flatMap_append]

/-- The units that waited before some calls and those that the calls let wait come out of the switches that the calls
end, in this order, up to those that still wait. -/
theorem deferred_takeAll {calls : List SwitchCall} (kept : .clear ∉ calls) (s : PathSwitches) (peer : NodeId) :
    s.deferred peer ++ s.accepted peer calls =
      SwitchCompletion.handedTo peer (SwitchRecord.completions (s.records calls)) ++
        (s.takeAll calls).deferred peer := by
  induction calls generalizing s with
  | nil => exact List.append_nil _
  | cons call rest ih =>
    obtain ⟨first, others⟩ := not_or.mp (mt List.mem_cons.mpr kept)
    calc s.deferred peer ++ (s.accepts peer call ++ (s.take call).1.accepted peer rest)
      _ = SwitchCompletion.handedTo peer (s.take call).2.toList ++
            ((s.take call).1.deferred peer ++ (s.take call).1.accepted peer rest) := by
        rw [← List.append_assoc, deferred_take (Ne.symm first) s peer, List.append_assoc]
      _ = SwitchCompletion.handedTo peer (SwitchRecord.completions (s.records (call :: rest))) ++
            ((s.take call).1.takeAll rest).deferred peer := by
        rw [ih others, completions_cons, handedTo_append, List.append_assoc]

theorem length_deferred_takeAll {calls : List SwitchCall} (kept : .clear ∉ calls)
    (within : ∀ peer, (s.deferred peer).length ≤ s.capacity) (peer : NodeId) :
    ((s.takeAll calls).deferred peer).length ≤ s.capacity := by
  induction calls generalizing s with
  | nil => exact within peer
  | cons call rest ih =>
    obtain ⟨first, others⟩ := not_or.mp (mt List.mem_cons.mpr kept)
    rw [← capacity_take s call] at within ⊢
    refine ih others fun peer => ?_
    rw [capacity_take] at within ⊢
    exact length_deferred_take (Ne.symm first) within peer

/-- Calls with other units for a peer end the same switches, and hand out the other units for this peer only. -/
theorem completions_onUnits (s : PathSwitches) (peer : NodeId) (f : DeferredSdu → DeferredSdu)
    (calls : List SwitchCall) :
    SwitchRecord.completions ((s.onUnits peer f).records (calls.map (·.onUnits peer f))) =
      (SwitchRecord.completions (s.records calls)).map (·.onUnits peer f) := by
  induction calls generalizing s with
  | nil => rfl
  | cons call rest ih =>
    rw [List.map_cons, completions_cons, completions_cons, take_onUnits, ih, List.map_append]
    cases (s.take call).2 <;> rfl

/-- For each peer, the units that some calls let wait, in order, are those that the completions of its switches hand
out, followed by those that still wait, of which there are never more than may be; a unit in a completion was let wait
for its peer, and the completions of other peers are the same whatever units wait for this one. -/
theorem waiting_lossless (capacity interval : Nat) {calls : List SwitchCall} (kept : .clear ∉ calls) (peer : NodeId) :
    let s := (new capacity interval).takeAll calls
    let done := SwitchRecord.completions ((new capacity interval).records calls)
    (new capacity interval).accepted peer calls =
        (done.filter (·.peer = peer)).flatMap (·.deferred) ++ s.deferred peer ∧
      (s.deferred peer).length ≤ capacity ∧
      (∀ d ∈ done, ∀ unit ∈ d.deferred, unit ∈ (new capacity interval).accepted d.peer calls) ∧
      ∀ f, SwitchRecord.completions ((new capacity interval).records (calls.map (·.onUnits peer f))) =
        done.map (·.onUnits peer f) := by
  intro s done
  have passed (peer : NodeId) : (new capacity interval).accepted peer calls =
      (done.filter (·.peer = peer)).flatMap (·.deferred) ++ s.deferred peer :=
    deferred_takeAll kept (new capacity interval) peer
  refine ⟨passed peer, ?_, fun d ended unit handed => ?_,
    fun f => completions_onUnits (new capacity interval) peer f calls⟩
  · exact length_deferred_takeAll (s := new capacity interval) kept (fun peer => Nat.zero_le _) peer
  · have own : d ∈ done.filter (·.peer = d.peer) := List.mem_filter.mpr ⟨ended, decide_eq_true rfl⟩
    rw [passed]
    exact List.mem_append_left _ (List.mem_flatMap.mpr ⟨d, own, handed⟩)

/-- Surroundings in which the traffic of some peers still has to leave. -/
def backlog (peers : List NodeId) : Surroundings where
  links := peers.foldl (fun links peer => links.add peer ⟨peer, .first⟩) .empty
  buffers := peers.foldl (fun buffers peer => buffers.insert ⟨peer, .first⟩
    { TransmitBuffer.new ⟨peer, .first⟩ .transparent .direct 4 100 with queue := [⟨[1], []⟩], holding := true }) .empty
  timers := ⟨0, 0, []⟩

def numberedUnit (sn : UInt32) : DeferredSdu := ⟨.first, sn, .transparent, [], []⟩

/-- Two peers switch while units wait for both, one of them to another path in the end; the first has no room for a
third unit before its switch is done, but has afterwards. -/
def alternating : List SwitchCall :=
  [.start (backlog [⟨1⟩, ⟨2⟩]) ⟨1⟩ .infrastructure false, .defer ⟨1⟩ (numberedUnit 0),
    .start (backlog [⟨1⟩, ⟨2⟩]) ⟨2⟩ .infrastructure false, .defer ⟨2⟩ (numberedUnit 1), .defer ⟨1⟩ (numberedUnit 2),
    .start (backlog [⟨1⟩, ⟨2⟩]) ⟨1⟩ .direct false, .defer ⟨1⟩ (numberedUnit 3), .checkFired (backlog [⟨2⟩]) ⟨1⟩,
    .defer ⟨1⟩ (numberedUnit 4), .reevaluate (backlog []) ⟨2⟩]

theorem waiting_lossless_at_alternating :
    let s := (new 2 500).takeAll alternating
    let done := SwitchRecord.completions ((new 2 500).records alternating)
    .clear ∉ alternating ∧
      done = [⟨⟨1⟩, .direct, [numberedUnit 0, numberedUnit 2]⟩, ⟨⟨2⟩, .infrastructure, [numberedUnit 1]⟩] ∧
      s.deferred ⟨1⟩ = [numberedUnit 4] ∧
      (new 2 500).accepted ⟨1⟩ alternating =
        (done.filter (·.peer = ⟨1⟩)).flatMap (·.deferred) ++ s.deferred ⟨1⟩ := by
  intro s done
  have kept : .clear ∉ alternating := by simp [alternating]
  exact ⟨kept, by decide +kernel, by decide +kernel, (waiting_lossless 2 500 kept ⟨1⟩).1⟩

end PathSwitches
end Sidelink
