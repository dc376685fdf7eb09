import Mathlib.Algebra.BigOperators.Group.List.Basic
import Mathlib.Algebra.GroupWithZero.Nat
import Sidelink.Proofs.Steps
import Sidelink.Proofs.Transmission

/-!
How much a node holds: the data units in its transmit buffers (`TransmitBuffers.queuedTotal`) and the units that wait
for switches (`PathSwitches.deferredTotal`), as sums over maps. A step of a switch hands out the units that no longer
wait, and counts the data units that it discards (`SwitchStep.Balanced`).
-/
namespace Sidelink

namespace SortedMap
variable {κ ν μ : Type} [Ranked κ]

/-! ## Sums over values -/

/-- The sum of a measure over the values of a map. -/
def total (m : SortedMap κ ν) (f : ν → Nat) : Nat := (m.values.map f).sum

theorem total_eq_sum (m : SortedMap κ ν) (f : ν → Nat) : m.total f = (m.entries.map fun e => f e.2).sum := by
  rw [total, values, List.map_map]
  rfl

theorem sum_place {l : List (κ × ν)} (sorted : l.Pairwise (fun a b => rank a.1 < rank b.1)) (k : κ) (v : ν)
    (f : ν → Nat) :
    ((place k v l).map fun e => f e.2).sum + ((lookup k l).map f).getD 0 = (l.map fun e => f e.2).sum + f v := by
  induction l with
  | nil => simp [place, lookup]
  | cons x rest ih =>
    obtain ⟨below, rest_sorted⟩ := List.pairwise_cons.1 sorted
    simp only [place]
    split
    · rename_i before
      have missing : lookup k (x :: rest) = none := lookup_eq_none fun e member => by
        rcases List.mem_cons.1 member with rfl | later
        · exact before
        · exact Nat.lt_trans before (below e later)
      rw [missing]
      simp [Nat.add_comm]
    · split
      · rename_i same
        simp only [lookup, if_pos same.symm, Option.map_some, Option.getD_some, List.map_cons, List.sum_cons]
        omega
      · rename_i other
        have later := ih rest_sorted
        simp only [lookup, if_neg (Ne.symm other), List.map_cons, List.sum_cons]
        omega

/-- An entry adds its measure, and the one that it replaces takes its own away. -/
theorem total_insert (m : SortedMap κ ν) (k : κ) (v : ν) (f : ν → Nat) :
    (m.insert k v).total f + ((m.get? k).map f).getD 0 = m.total f + f v := by
  rw [total_eq_sum, total_eq_sum]
  exact sum_place m.sorted k v f

theorem total_mapEntries (m : SortedMap κ ν) (g : κ → ν → μ) (f : μ → Nat) :
    (m.mapEntries g).total f = (m.entries.map fun e => f (g e.1 e.2)).sum := by
  rw [total_eq_sum, mapEntries, List.map_map]
  rfl

theorem sum_at_key [DecidableEq κ] {l : List (κ × ν)} (sorted : l.Pairwise (fun a b => rank a.1 < rank b.1)) (k : κ)
    (f : ν → Nat) : (l.map fun e => if e.1 = k then f e.2 else 0).sum = ((lookup k l).map f).getD 0 := by
  induction l with
  | nil => rfl
  | cons x rest ih =>
    obtain ⟨below, rest_sorted⟩ := List.pairwise_cons.1 sorted
    have later := ih rest_sorted
    rw [List.map_cons, List.sum_cons, later, lookup]
    by_cases same : x.1 = k
    · have missing : lookup k rest = none := lookup_eq_none (same ▸ below)
      rw [if_pos same, if_pos (congrArg rank same), missing]
      rfl
    · have apart : rank x.1 ≠ rank k := fun h => same (Ranked.rank_inj h)
      rw [if_neg same, if_neg apart, Nat.zero_add]

/-- The measures of the entries of some keys add up to the measures that look-up finds. -/
theorem sum_at_keys [DecidableEq κ] (m : SortedMap κ ν) {keys : List κ} (distinct : keys.Nodup) (f : ν → Nat) :
    (m.entries.map fun e => if e.1 ∈ keys then f e.2 else 0).sum = ((keys.filterMap m.get?).map f).sum := by
  induction keys with
  | nil => exact List.sum_map_zero
  | cons k rest ih =>
    obtain ⟨once, rest_distinct⟩ := List.nodup_cons.1 distinct
    have parts : (fun e : κ × ν => if e.1 ∈ k :: rest then f e.2 else 0) =
        fun e => (if e.1 = k then f e.2 else 0) + if e.1 ∈ rest then f e.2 else 0 := by
      funext e
      by_cases same : e.1 = k
      · simp [same, once]
      · simp [same]
    rw [parts, List.sum_map_add, sum_at_key m.sorted, ih rest_distinct, List.filterMap_cons]
    show ((m.get? k).map f).getD 0 + _ = _
    cases m.get? k with
    | none => exact Nat.zero_add _
    | some v => rfl

end SortedMap

/-! ## Data units in buffers -/

namespace TransmitBuffers

/-- Whether all buffers of some cut units like buffers of others. -/
def CutAlike (buffers buffers' : TransmitBuffers) : Prop :=
  ∀ key b', buffers'.get? key = some b' → ∃ b, buffers.get? key = some b ∧ b.CutsLike b'

theorem CutAlike.refl (buffers : TransmitBuffers) : CutAlike buffers buffers :=
  fun _ b found => ⟨b, found, rfl, rfl⟩

theorem CutAlike.trans {a b c : TransmitBuffers} (first : CutAlike a b) (second : CutAlike b c) : CutAlike a c :=
  fun key z found => by
    obtain ⟨y, found', mode, size⟩ := second key z found
    obtain ⟨x, found'', mode', size'⟩ := first key y found'
    exact ⟨x, found'', mode.trans mode', size.trans size'⟩

theorem CutAlike.onKeys (buffers : TransmitBuffers) (keys : List EntityKey) {f : TransmitBuffer → TransmitBuffer}
    (keeps : ∀ b : TransmitBuffer, b.CutsLike (f b)) : CutAlike buffers (onKeys buffers keys f) := by
  intro key b' found
  rw [get?_onKeys] at found
  obtain ⟨b, before, rfl⟩ := Option.map_eq_some_iff.1 found
  refine ⟨b, before, ?_⟩
  split
  · exact keeps b
  · exact ⟨rfl, rfl⟩

theorem CutAlike.insert {buffers : TransmitBuffers} {key : EntityKey} {b b' : TransmitBuffer}
    (found : buffers.get? key = some b) (alike : b.CutsLike b') : CutAlike buffers (buffers.insert key b') :=
  fun k c found' => by
    by_cases same : k = key
    · rw [same, SortedMap.get?_insert_self] at found'
      exact ⟨b, same ▸ found, Option.some.inj found' ▸ alike⟩
    · rw [SortedMap.get?_insert_of_ne _ same] at found'
      exact ⟨c, found', rfl, rfl⟩

/-- How many data units buffers hold. -/
def queuedTotal (buffers : TransmitBuffers) : Nat := SortedMap.total buffers fun b => b.queue.length

theorem queuedTotal_insert (buffers : TransmitBuffers) (key : EntityKey) (b : TransmitBuffer) :
    queuedTotal (buffers.insert key b) + ((buffers.get? key).map (·.queue.length)).getD 0 =
      queuedTotal buffers + b.queue.length :=
  SortedMap.total_insert buffers key b _

/-- What keeps every queue keeps their sum. -/
theorem queuedTotal_onKeys (buffers : TransmitBuffers) (keys : List EntityKey) {f : TransmitBuffer → TransmitBuffer}
    (keeps : ∀ b, (f b).queue = b.queue) : queuedTotal (onKeys buffers keys f) = queuedTotal buffers := by
  rw [queuedTotal, onKeys, SortedMap.total_mapEntries, queuedTotal, SortedMap.total_eq_sum]
  refine congrArg List.sum (List.map_congr_left fun e _ => ?_)
  split
  · rw [keeps]
  · rfl

theorem queuedAt_eq_sum (buffers : TransmitBuffers) (keys : List EntityKey) :
    queuedAt buffers keys = ((keys.filterMap buffers.get?).map (·.queue.length)).sum := by
  rw [queuedAt, List.sum, List.foldr_map]

/-- Buffers that are discarded lose what was queued at their keys. -/
theorem queuedTotal_discard (buffers : TransmitBuffers) {keys : List EntityKey} (distinct : keys.Nodup) :
    queuedTotal (onKeys buffers keys TransmitBuffer.discard) + queuedAt buffers keys = queuedTotal buffers := by
  rw [queuedAt_eq_sum, ← SortedMap.sum_at_keys buffers distinct, queuedTotal, onKeys, SortedMap.total_mapEntries,
    ← List.sum_map_add, queuedTotal, SortedMap.total_eq_sum]
  refine congrArg List.sum (List.map_congr_left fun e _ => ?_)
  split
  · exact Nat.zero_add _
  · rfl

end TransmitBuffers

/-! ## Units that wait for switches -/

namespace PathSwitches

/-- How many units wait for switches. -/
def deferredTotal (s : PathSwitches) : Nat := s.peers.total fun e => e.deferred.length

theorem deferredTotal_insert (s : PathSwitches) (peer : NodeId) (e : PeerSwitch) :
    (s.peers.insert peer e).total (fun e => e.deferred.length) + (s.deferred peer).length =
      s.deferredTotal + e.deferred.length := by
  have waiting : ((s.peers.get? peer).map (·.deferred.length)).getD 0 = (s.deferred peer).length := by
    rw [deferred]
    cases s.peers.get? peer <;> rfl
  rw [← waiting]
  exact SortedMap.total_insert s.peers peer e _

theorem deferredTotal_setPhase (s : PathSwitches) (peer : NodeId) (phase : SwitchPhase) :
    (s.setPhase peer phase).deferredTotal = s.deferredTotal :=
  Nat.add_right_cancel (s.deferredTotal_insert peer ⟨phase, s.deferred peer⟩)

/-- A unit that is let wait is counted. -/
theorem deferredTotal_defer (s : PathSwitches) (peer : NodeId) (unit : DeferredSdu) :
    (s.defer peer unit).2.deferredTotal = s.deferredTotal + if (s.defer peer unit).1 then 1 else 0 := by
  rw [defer]
  cases found : s.peers.get? peer with
  | none => rfl
  | some e =>
    have waiting : s.deferred peer = e.deferred := by rw [deferred, found]
    have grown := s.deferredTotal_insert peer { e with deferred := e.deferred ++ [unit] }
    rw [waiting, List.length_append, List.length_singleton] at grown
    simp only
    split
    · rfl
    · show (s.peers.insert peer _).total _ = s.deferredTotal + 1
      omega

end PathSwitches

/-! ## Steps of a switch -/

namespace SwitchStep

/-- The units that waited for a switch that a step ends. -/
def released (step : SwitchStep) : List DeferredSdu := (step.completion.map (·.deferred)).getD []

/-- Whether a step of a switch loses nothing: units either wait or are handed out, data units are queued or counted as
discarded, and buffers cut units as before. -/
structure Balanced (s : PathSwitches) (buffers : TransmitBuffers) (step : SwitchStep) : Prop where
  units : step.switches.deferredTotal + step.released.length = s.deferredTotal
  pdus : step.switches.counters.discarded + TransmitBuffers.queuedTotal step.buffers =
    s.counters.discarded + TransmitBuffers.queuedTotal buffers
  cuts : TransmitBuffers.CutAlike buffers step.buffers

variable {s t : PathSwitches} {buffers buffers' : TransmitBuffers} {step : SwitchStep}

/-- What goes before a step may be put into the balance of the step. -/
theorem Balanced.after (balanced : Balanced t buffers' step) (units : t.deferredTotal = s.deferredTotal)
    (pdus : t.counters.discarded + TransmitBuffers.queuedTotal buffers' =
      s.counters.discarded + TransmitBuffers.queuedTotal buffers)
    (cuts : TransmitBuffers.CutAlike buffers buffers') : Balanced s buffers step where
  units := balanced.units.trans units
  pdus := balanced.pdus.trans pdus
  cuts := cuts.trans balanced.cuts

theorem balanced_still (s : PathSwitches) (buffers : TransmitBuffers) (timers : Timers) :
    Balanced s buffers ⟨s, buffers, timers, none⟩ :=
  ⟨rfl, rfl, .refl _⟩

theorem balanced_complete (s : PathSwitches) (links : PeerLinks) (buffers : TransmitBuffers) (timers : Timers)
    (peer : NodeId) (path : Path) : Balanced s buffers (s.complete links buffers timers peer path) where
  units := s.deferredTotal_insert peer ⟨.switched, []⟩
  pdus := congrArg (s.counters.discarded + ·) (TransmitBuffers.queuedTotal_onKeys _ _ fun _ => rfl)
  cuts := .onKeys _ _ fun _ => ⟨rfl, rfl⟩

/-- A look at the switch of a peer is balanced. -/
theorem balanced_looked {links : PeerLinks} {timers : Timers} {peer : NodeId}
    (looked : s.Looked links buffers timers peer step) : Balanced s buffers step := by
  cases looked with
  | calm still => exact balanced_still s buffers timers
  | waits switching draining => exact balanced_still s buffers timers
  | asks switching draining => exact (balanced_still _ _ _).after (s.deferredTotal_setPhase peer _) rfl (.refl _)
  | ends switching drained => exact balanced_complete s links buffers _ peer _

theorem balanced_start (s : PathSwitches) (links : PeerLinks) (buffers : TransmitBuffers) (timers : Timers)
    (peer : NodeId) (path : Path) (clear : Bool) :
    Balanced s buffers (s.start links buffers timers peer path clear) := by
  have begun : (s.begun peer path).deferredTotal = s.deferredTotal := s.deferredTotal_setPhase peer _
  have held := TransmitBuffers.queuedTotal_onKeys buffers (links.keys peer) (f := TransmitBuffer.hold) fun _ => rfl
  have cut : TransmitBuffers.CutAlike buffers (TransmitBuffers.onKeys buffers (links.keys peer) TransmitBuffer.hold) :=
    .onKeys _ _ fun _ => ⟨rfl, rfl⟩
  rw [PathSwitches.start_eq]
  cases clear with
  | false =>
    exact (balanced_looked (PathSwitches.looked_reevaluate _ _ _ _ _)).after begun (congrArg _ held) cut
  | true =>
    have discarded := TransmitBuffers.queuedTotal_discard
      (TransmitBuffers.onKeys buffers (links.keys peer) TransmitBuffer.hold) (links.nodup_keys peer)
    simp only [if_true]
    refine (balanced_complete _ _ _ _ _ _).after begun ?_ (cut.trans (.onKeys _ _ fun _ => ⟨rfl, rfl⟩))
    show s.counters.discarded + _ + _ = _
    omega

theorem balanced_checkFired (s : PathSwitches) (links : PeerLinks) (buffers : TransmitBuffers) (timers : Timers)
    (peer : NodeId) : Balanced s buffers (s.checkFired links buffers timers peer) := by
  rcases s.checkFired_eq links buffers timers peer with ⟨-, same⟩ | ⟨target, check, -, looks⟩
  · rw [same]
    exact balanced_still s buffers timers
  · rw [looks]
    exact (balanced_looked (PathSwitches.looked_reevaluate _ _ _ _ _)).after (s.deferredTotal_setPhase peer _) rfl
      (.refl _)

end SwitchStep
end Sidelink
