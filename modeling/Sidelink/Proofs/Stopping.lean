import Sidelink.Proofs.Boarding

/-!
Where a node stops. A buffer counts the units that it gives no answer to, and only units that leave for it change this
count. So a node stops in a run exactly if a unit leaves for a buffer that does not hold and cuts units, and the sum of
the length of the unit and the size of the data in a segment is no word (`DataPlane.stops_in_run_iff`).
-/
namespace Sidelink

/-- Whether the buffer that a unit leaves for needs no sum, or one that is a word of 64 bits: it needs none while it
holds, in transparent mode, where segments have no room, and for an empty unit. -/
def Boarding.SumsLast (x : Boarding) : Prop :=
  x.buffer.holding = true ∨ x.buffer.mode = .transparent ∨ x.buffer.dataSize = 0 ∨ x.unit.sdu = [] ∨
    x.unit.sdu.length + x.buffer.dataSize ≤ LongWord.last

instance : DecidablePred Boarding.SumsLast := fun _ => inferInstanceAs (Decidable (_ ∨ _ ∨ _ ∨ _ ∨ _))

namespace TransmitBuffer

/-- How many units a buffer gave no answer to. -/
abbrev uncounted (b : TransmitBuffer) : Nat := b.counters.uncounted

theorem steady_uncounted : Steady uncounted := ⟨fun _ => rfl, fun _ => rfl, fun _ => rfl, fun _ _ => rfl⟩

end TransmitBuffer

open TransmitBuffer (uncounted)

/-- The buffer counts a unit that leaves for it exactly if it needs a sum that is no word. -/
theorem Boarding.uncounted_answered (x : Boarding) :
    x.answered.uncounted = x.buffer.uncounted + if x.SumsLast then 0 else 1 := by
  have offering := x.buffer.offering x.unit.sn x.unit.sdu x.unit.recipients
  have counts : x.SumsLast ↔ x.buffer.holding = true ∨ x.buffer.Counts x.unit.sdu.length := by
    rw [SumsLast, TransmitBuffer.counts_iff, List.length_eq_zero_iff]
  simp only [counts, answered]
  generalize x.buffer.offer x.unit.sn x.unit.sdu x.unit.recipients = answer at offering ⊢
  cases offering with
  | refused holds => simp [holds]
  | unanswered free uncounted => simp [free, TransmitBuffer.Counts, uncounted]
  | overflowed free counts | taken free counts => simp [counts]

namespace DataPlane
variable {p q : DataPlane}

/-- How many units the buffer for a key gave no answer to. -/
def uncountedAt (p : DataPlane) (key : EntityKey) : Nat := ((p.buffers.get? key).map uncounted).getD 0

theorem stopped_iff (p : DataPlane) : p.stopped = true ↔ ∃ key, p.uncountedAt key ≠ 0 := by
  simp only [stopped, List.any_eq_true, decide_eq_true_eq, uncountedAt]
  constructor
  · rintro ⟨⟨key, b⟩, member, some_unit⟩
    have found : p.buffers.get? key = some b := (SortedMap.get?_eq_some_iff _ _ _).2 member
    exact ⟨key, by rw [found]; exact some_unit⟩
  · rintro ⟨key, some_unit⟩
    cases found : p.buffers.get? key with
    | none => exact absurd (by rw [found]; rfl) some_unit
    | some b =>
      rw [found] at some_unit
      exact ⟨(key, b), (SortedMap.get?_eq_some_iff _ _ _).1 found, some_unit⟩

theorem stopped_congr (same : p.SameIn uncounted q) : q.stopped = p.stopped := by
  rw [Bool.eq_iff_iff, stopped_iff, stopped_iff]
  simp only [uncountedAt, same _]

/-- Once a unit was offered to its buffer, the node has stopped if it had before, or if the buffer could not answer. -/
theorem stopped_of_answered {x : Boarding} (before : p.SameIn uncounted x.plane)
    (answered : ∀ key, (q.buffers.get? key).map uncounted =
      if key = x.key then some x.answered.uncounted else (p.buffers.get? key).map uncounted) :
    q.stopped = true ↔ p.stopped = true ∨ ¬ x.SumsLast := by
  have own : x.buffer.uncounted = p.uncountedAt x.key := by
    rw [uncountedAt, ← before x.key, Boarding.buffer, bufferFor, Boarding.key]
    cases x.plane.buffers.get? ⟨x.hop, x.unit.lcid⟩ <;> rfl
  have counted (key : EntityKey) :
      q.uncountedAt key = p.uncountedAt key + if key = x.key ∧ ¬ x.SumsLast then 1 else 0 := by
    rw [uncountedAt, answered]
    by_cases same : key = x.key
    · rw [if_pos same, same, Option.getD_some, x.uncounted_answered, own]
      by_cases last : x.SumsLast <;> simp [last]
    · rw [if_neg same, if_neg fun both => same both.1]
      rfl
  simp only [stopped_iff, counted]
  constructor
  · rintro ⟨key, some_unit⟩
    by_cases short : key = x.key ∧ ¬ x.SumsLast
    · exact Or.inr short.2
    · rw [if_neg short] at some_unit
      exact Or.inl ⟨key, some_unit⟩
  · rintro (⟨key, some_unit⟩ | short)
    · exact ⟨key, by omega⟩
    · exact ⟨x.key, by rw [if_pos ⟨rfl, short⟩]; omega⟩

end DataPlane

theorem Offers.stopped_iff {p q : DataPlane} {xs : List Boarding} (offers : Offers uncounted p xs q) :
    q.stopped = true ↔ p.stopped = true ∨ ∃ x ∈ xs, ¬ x.SumsLast := by
  induction offers with
  | still same => simp [DataPlane.stopped_congr same]
  | leave before answered _ ih =>
    rw [ih, DataPlane.stopped_of_answered before answered, or_assoc]
    simp

namespace DataPlane
variable {p : DataPlane}

/-- Whether a moment of a node needs no sum that is no word. -/
def SumsLast (p : DataPlane) (m : Moment) : Prop := ∀ x ∈ p.boardingsAt m, x.SumsLast

instance (p : DataPlane) : DecidablePred p.SumsLast := fun _ => inferInstanceAs (Decidable (∀ _ ∈ _, _))

/-- Where no buffer goes, a node stops at a moment exactly if a sum is no word. -/
theorem stopped_react_iff (p : DataPlane) {m : Moment} (spares : m.stimulus.Spares) :
    (p.react m).plane.stopped = true ↔ p.stopped = true ∨ ¬ p.SumsLast m := by
  rw [(offers_react TransmitBuffer.steady_uncounted p spares).stopped_iff, SumsLast]
  simp only [Classical.not_forall, exists_prop]

/-- Where buffers go, no unit leaves, and the node does not stop. -/
theorem stopped_of_not_spares {m : Moment} (goes : ¬ m.stimulus.Spares)
    (stopped : (p.react m).plane.stopped = true) : p.stopped = true := by
  obtain ⟨directory, timers, stimulus⟩ := m
  rw [stopped_iff] at stopped ⊢
  obtain ⟨key, some_unit⟩ := stopped
  refine ⟨key, ?_⟩
  cases stimulus with
  | peerDeparted peer =>
    rcases get?_peerDeparted p peer key with same | gone
    · rwa [uncountedAt, react, same] at some_unit
    · rw [uncountedAt, react, gone] at some_unit
      exact absurd rfl some_unit
  | departed => exact absurd rfl some_unit
  | packet | control | opportunity | drainCheck | pathSwitch | arrival => exact absurd trivial goes

/-- A node that did not stop does not as long as all sums are words. -/
theorem unstopped_react {m : Moment} (unstopped : p.stopped = false) (sums : p.SumsLast m) :
    (p.react m).plane.stopped = false := by
  refine Bool.not_eq_true _ ▸ fun stopped => ?_
  have before : p.stopped = true := by
    by_cases spares : m.stimulus.Spares
    · exact ((p.stopped_react_iff spares).1 stopped).resolve_right (not_not_intro sums)
    · exact stopped_of_not_spares spares stopped
  exact Bool.noConfusion (unstopped.symm.trans before)

theorem unstopped_deliver (unstopped : p.stopped = false) (now : SimTime) (frame : Frame) :
    ((p.advance now).deliver frame).2.stopped = false := by
  have advanced : p.SameIn uncounted (p.advance now) := .of_buffers (alike_advance p now).buffers
  rw [stopped_congr (advanced.trans (.of_inbound (inbound_deliver (p.advance now) frame))), unstopped]

theorem unstopped_new {node : NodeId} {role : Role} {settings : PlaneSettings}
    (made : new node role settings = .ok p) : p.stopped = false := by
  obtain ⟨-, rfl⟩ := eq_of_new made
  rfl

/-- In a run of a new node, whatever happens, the node stops at some point exactly if a unit leaves for a buffer that
does not hold, that cuts units into segments with room for data, and that cannot compute how many segments it makes of
the unit: the unit is not empty, and the sum of its length and the size of the data in a segment is no word. -/
theorem stops_in_run_iff {node : NodeId} {role : Role} {settings : PlaneSettings}
    (made : new node role settings = .ok p) (ms : List Moment) :
    (∃ n, (p.after (ms.take n)).stopped = true) ↔ ∃ x ∈ p.boardings ms, ¬ x.SumsLast := by
  suffices run : ∀ p : DataPlane, (∃ n, (p.after (ms.take n)).stopped = true) ↔
      p.stopped = true ∨ ∃ x ∈ p.boardings ms, ¬ x.SumsLast by
    rw [run, unstopped_new made]
    simp
  intro p
  induction ms generalizing p with
  | nil => simp [boardings, collect, after]
  | cons m rest ih =>
    have first : (∃ n, (p.after ((m :: rest).take n)).stopped = true) ↔
        p.stopped = true ∨ ∃ n, ((p.react m).plane.after (rest.take n)).stopped = true := by
      constructor
      · rintro ⟨n, stopped⟩
        cases n with
        | zero => exact Or.inl stopped
        | succ n => exact Or.inr ⟨n, stopped⟩
      · rintro (stopped | ⟨n, stopped⟩)
        · exact ⟨0, stopped⟩
        · exact ⟨n + 1, stopped⟩
    have now : p.stopped = true ∨ (p.react m).plane.stopped = true ↔
        p.stopped = true ∨ ∃ x ∈ p.boardingsAt m, ¬ x.SumsLast := by
      by_cases spares : m.stimulus.Spares
      · rw [(offers_react TransmitBuffer.steady_uncounted p spares).stopped_iff, or_self_left]
      · rw [(nature_react_of_not_spares spares).1]
        simpa using stopped_of_not_spares spares
    rw [first, ih, ← or_assoc, now, or_assoc]
    simp only [boardings, collect, List.mem_append, or_and_right, exists_or]

end DataPlane
end Sidelink
