import Sidelink.Proofs.Intakes
import Sidelink.Proofs.Reconciling

/-!
What the counters of a receiver tell of the data units that it was given. Every data unit that is not refused is
counted, and once more if it makes the receiver hand a unit out or if nothing of it is stored. The first segment of a
unit begins it; from then on the unit waits until it is handed out or given up, and whichever way it goes it is counted
once (`ReceiveState.begun`). Replacements carry the counters over, so that the balance holds over the whole time of a
connection (`Receiver.receptions_counted`).
-/
namespace Sidelink

/-! ## Sizes of maps -/

namespace SortedMap
variable {κ ν : Type} [Ranked κ]

theorem size_eq_total (m : SortedMap κ ν) : m.size = m.total fun _ => 1 := by
  rw [total_eq_sum, List.map_const', List.sum_replicate, Nat.nsmul_eq_mul, Nat.mul_one, size]

/-- A map grows by an entry of a new key, and by no other. -/
theorem size_insert (m : SortedMap κ ν) (k : κ) (v : ν) :
    (m.insert k v).size = m.size + if m.contains k then 0 else 1 := by
  have balance := m.total_insert k v fun _ => 1
  rw [← size_eq_total, ← size_eq_total] at balance
  cases found : m.get? k with
  | none =>
    simp only [found, Option.map_none, Option.getD_none] at balance
    simpa [contains, found] using balance
  | some w =>
    simp only [found, Option.map_some, Option.getD_some] at balance
    simp only [contains, found, Option.isSome_some, if_true]
    omega

theorem size_erase_of_contains {m : SortedMap κ ν} {k : κ} (here : m.contains k = true) :
    (m.erase k).size + 1 = m.size := by
  obtain ⟨v, found⟩ := (contains_eq_true_iff _ _).1 here
  have again : (m.erase k).insert k v = m := by
    apply ext_get?
    intro a
    by_cases same : a = k
    · rw [same, get?_insert_self, found]
    · rw [get?_insert_of_ne _ same, get?_erase_of_ne _ same]
  have grown := (m.erase k).size_insert k v
  rw [again, contains, get?_erase_self] at grown
  exact grown.symm

theorem size_filter_add_not (m : SortedMap κ ν) (keep : κ → ν → Bool) :
    (m.filter keep).size + (m.filter fun k v => !keep k v).size = m.size := by
  simp only [size_eq_total]
  exact m.total_filter_add_not keep _

end SortedMap

/-! ## One segment -/

namespace ReceiveState
variable {s : ReceiveState} {window sn : Nat} {header : SegmentHeader} {data : Bytes}

/-- The segment that waits under a number, at a place in its unit. -/
def segment? (s : ReceiveState) (sn offset : Nat) : Option Bytes :=
  (s.pending.get? sn).bind fun p => p.segments.get? offset

/-- The units that a state has begun to collect: those that were handed out, those that were given up, and those that
wait. -/
def begun (s : ReceiveState) : Nat := s.counters.delivered + s.counters.abandoned + s.pending.size

theorem begun_clear (s : ReceiveState) : s.clear.begun = s.begun := by
  show s.counters.delivered + (s.counters.abandoned + s.pending.size) + 0 = _
  rw [begun]
  omega

theorem begun_slide (s : ReceiveState) (edge : Nat) : (s.slide edge).begun = s.begun := by
  have parts := s.pending.size_filter_add_not fun sn _ => decide (sn < edge)
  have ahead : s.pending.filter (fun sn _ => !decide (sn < edge)) =
      s.pending.filter fun sn _ => decide (edge ≤ sn) := by
    simp only [← decide_not, Nat.not_lt]
  rw [ahead] at parts
  show s.counters.delivered + (s.counters.abandoned + (s.pending.filter fun sn _ => decide (sn < edge)).size) +
    (s.pending.filter fun sn _ => decide (edge ≤ sn)).size = _
  rw [begun]
  omega

theorem begun_makeRoom (s : ReceiveState) (window sn : Nat) : (s.makeRoom window sn).begun = s.begun := by
  rw [makeRoom]
  split
  · exact begun_slide s.received _
  · rfl

/-- Making room for a number leaves the number itself as it is. -/
theorem contains_makeRoom (s : ReceiveState) (window sn : Nat) :
    (s.makeRoom window sn).pending.contains sn = s.pending.contains sn := by
  rw [SortedMap.contains, (makeRoom_of_le s window (Nat.le_refl sn)).2, SortedMap.contains]

theorem begun_store (s : ReceiveState) (window sn : Nat) (p : Partial) :
    (s.store window sn p).begun = s.begun + if s.pending.contains sn then 0 else 1 := by
  rw [← begun_makeRoom s window sn, ← contains_makeRoom s window sn, begun, begun]
  show _ + _ + ((s.makeRoom window sn).pending.insert sn p).size = _
  rw [SortedMap.size_insert, ← Nat.add_assoc]
  rfl

theorem begun_handedOut (waits : s.pending.contains sn = true) : (s.handedOut sn).begun = s.begun := by
  have smaller := SortedMap.size_erase_of_contains waits
  show s.counters.delivered + 1 + s.counters.abandoned + (s.pending.erase sn).size = _
  rw [begun]
  omega

theorem received_accept (s : ReceiveState) (window : Nat) (header : SegmentHeader) (data : Bytes) :
    (s.accept window header data).2.counters.received = s.counters.received + 1 := by
  have room : (s.makeRoom window header.sn.toNat).counters.received = s.counters.received + 1 := by
    rw [makeRoom]
    split <;> rfl
  have taken := taken_accept s window header data
  generalize s.accept window header data = answer at taken
  cases taken with
  | late done => rfl
  | again fresh known => exact room
  | stored p fresh grown lacking => exact room
  | completed p fresh grown whole => exact room

theorem delivered_accept (s : ReceiveState) (window : Nat) (header : SegmentHeader) (data : Bytes) :
    (s.accept window header data).2.counters.delivered =
      s.counters.delivered + if (s.accept window header data).1.isSome then 1 else 0 := by
  have room : (s.makeRoom window header.sn.toNat).counters.delivered = s.counters.delivered := by
    rw [makeRoom]
    split <;> rfl
  have taken := taken_accept s window header data
  generalize s.accept window header data = answer at taken
  cases taken with
  | late done => rfl
  | again fresh known => exact room
  | stored p fresh grown lacking => exact room
  | completed p fresh grown whole => exact congrArg (· + 1) room

theorem discards_eq_true_iff (s : ReceiveState) (window : Nat) (header : SegmentHeader) (data : Bytes) :
    s.discards header = true ↔ s.Done header.sn.toNat ∨ s.grown? window header data = none := by
  rw [discards, Bool.or_eq_true, decide_eq_true_eq, grown?_eq_none_iff]

theorem discards_eq_false {p : Partial} (fresh : ¬ s.Done header.sn.toNat)
    (grown : s.grown? window header data = some p) : s.discards header = false := by
  rw [Bool.eq_false_iff, ne_eq, discards_eq_true_iff s window header data, grown]
  simp [fresh]

/-- A segment that is not discarded begins a unit if none waits under its number. -/
theorem begun_accept (s : ReceiveState) (window : Nat) (header : SegmentHeader) (data : Bytes) :
    (s.accept window header data).2.begun =
      s.begun + if !s.discards header && !s.pending.contains header.sn.toNat then 1 else 0 := by
  have discarded := s.discards_eq_true_iff window header data
  have taken := taken_accept s window header data
  generalize s.accept window header data = answer at taken
  have stored {p : Partial} (fresh : ¬ s.Done header.sn.toNat) (grown : s.grown? window header data = some p) :
      (s.store window header.sn.toNat p).begun =
        s.begun + if !s.discards header && !s.pending.contains header.sn.toNat then 1 else 0 := by
    rw [begun_store, discards_eq_false fresh grown]
    cases s.pending.contains header.sn.toNat <;> rfl
  cases taken with
  | late done =>
    rw [discarded.2 (Or.inl done)]
    rfl
  | again fresh known =>
    rw [discarded.2 (Or.inr known)]
    exact begun_makeRoom s window _
  | stored p fresh grown lacking => exact stored fresh grown
  | completed p fresh grown whole =>
    rw [begun_handedOut]
    · exact stored fresh grown
    · exact (SortedMap.contains_insert _ _ _ _).2 (Or.inl rfl)

theorem grown?_eq_none_iff_segment? (s : ReceiveState) (window : Nat) (header : SegmentHeader) (data : Bytes) :
    s.grown? window header data = none ↔ (s.segment? header.sn.toNat header.offset.toNat).isSome = true := by
  rw [grown?_eq_none_iff, segment?]
  cases s.pending.get? header.sn.toNat <;> exact Iff.rfl

theorem segment?_store {p : Partial} (grown : s.grown? window header data = some p) :
    (s.store window header.sn.toNat p).segment? header.sn.toNat header.offset.toNat = some data := by
  rw [segment?, store, SortedMap.get?_insert_self]
  exact (Partial.segments_insert? grown _ _).2 (Or.inr ⟨rfl, rfl⟩)

/-- A segment is not discarded exactly if it completes a unit, or waits afterwards at a place where none waited. -/
theorem stored_accept_iff (s : ReceiveState) (window : Nat) (header : SegmentHeader) (data : Bytes) :
    ((s.accept window header data).1.isSome = true ∨
        s.segment? header.sn.toNat header.offset.toNat = none ∧
          (s.accept window header data).2.segment? header.sn.toNat header.offset.toNat = some data) ↔
      s.discards header = false := by
  have discarded := s.discards_eq_true_iff window header data
  have known_iff := s.grown?_eq_none_iff_segment? window header data
  have taken := taken_accept s window header data
  generalize s.accept window header data = answer at taken
  cases taken with
  | late done =>
    rw [discarded.2 (Or.inl done)]
    simp only [Option.isSome_none, Bool.false_eq_true, false_or, Bool.true_eq_false, iff_false, not_and]
    intro absent here
    cases absent.symm.trans here
  | again fresh known =>
    rw [discarded.2 (Or.inr known)]
    simp only [Option.isSome_none, Bool.false_eq_true, false_or, Bool.true_eq_false, iff_false, not_and]
    intro absent
    rw [absent] at known_iff
    cases known_iff.1 known
  | stored p fresh grown lacking =>
    have absent : s.segment? header.sn.toNat header.offset.toNat = none := by
      rw [← Option.not_isSome_iff_eq_none, ← known_iff, grown]
      exact Option.some_ne_none p
    exact iff_of_true (Or.inr ⟨absent, segment?_store grown⟩) (discards_eq_false fresh grown)
  | completed p fresh grown whole => exact iff_of_true (Or.inl rfl) (discards_eq_false fresh grown)

end ReceiveState

/-! ## Data units -/

namespace Receiver

/-- A data unit that a receiver is given, and the receiver as the data unit finds it. -/
structure Reception where
  receiver : Receiver
  pdu : Bytes

namespace Reception

/-- Whether the data unit is taken in, and not refused. -/
def accepted (c : Reception) : Bool :=
  match c.receiver.receive c.pdu with
  | .ok _ => true
  | .error _ => false

/-- Whether the receiver hands out a unit. -/
def handsOut (c : Reception) : Bool :=
  match c.receiver.receive c.pdu with
  | .ok (sdu, _) => sdu.isSome
  | .error _ => false

/-- Whether the receiver stores the segment: it completes a unit, or waits afterwards at a place where none waited. -/
def stores (c : Reception) : Bool :=
  match SegmentHeader.parse c.pdu, c.receiver.receive c.pdu with
  | .ok (header, data), .ok (sdu, after) =>
    sdu.isSome ||
      (c.receiver.state.segment? header.sn.toNat header.offset.toNat == none &&
        after.state.segment? header.sn.toNat header.offset.toNat == some data)
  | _, _ => false

/-- Whether the receiver stores the segment as the first one of its number. -/
def opens (c : Reception) : Bool :=
  match SegmentHeader.parse c.pdu with
  | .ok (header, _) => c.stores && !c.receiver.state.pending.contains header.sn.toNat
  | .error _ => false

/-- A data unit is refused and nothing happens, or it is read and its segment is taken in. -/
theorem refused_or_taken (c : Reception) :
    c.receiver.next c.pdu = c.receiver ∧ c.accepted = false ∧ c.handsOut = false ∧ c.stores = false ∧
        c.opens = false ∨
      ∃ header data, (c.receiver.next c.pdu).state = (c.receiver.state.accept c.receiver.window header data).2 ∧
        c.accepted = true ∧ c.handsOut = (c.receiver.state.accept c.receiver.window header data).1.isSome ∧
        c.stores = !c.receiver.state.discards header ∧
        c.opens = (!c.receiver.state.discards header && !c.receiver.state.pending.contains header.sn.toNat) := by
  obtain ⟨r, pdu⟩ := c
  cases received : r.receive pdu with
  | error cause =>
    have nothing : stores ⟨r, pdu⟩ = false := by
      simp only [stores, received]
      cases SegmentHeader.parse pdu <;> rfl
    refine Or.inl ⟨by simp only [next, received], by simp only [accepted, received],
      by simp only [handsOut, received], nothing, ?_⟩
    rw [opens, nothing]
    split <;> rfl
  | ok answer =>
    obtain ⟨header, data, parsed, inRange, rfl⟩ := receive_eq_ok_iff.1 received
    have stored : stores ⟨r, pdu⟩ = !r.state.discards header := by
      have iff := r.state.stored_accept_iff r.window header data
      simp only [stores, parsed, received]
      rw [Bool.eq_iff_iff]
      simpa using iff
    refine Or.inr ⟨header, data, by simp only [next, received], by simp only [accepted, received],
      by simp only [handsOut, received], stored, ?_⟩
    simp only [opens, parsed, stored]

end Reception

/-! ## Counters -/

/-- Whether the counters of a state tell of some data units. -/
structure Counted (s : ReceiveState) (calls : List Reception) : Prop where
  received : s.counters.received = calls.countP Reception.accepted
  delivered : s.counters.delivered = calls.countP Reception.handsOut
  dropped : s.counters.dropped = calls.countP fun c => c.accepted && !c.stores
  begun : s.begun = calls.countP Reception.opens

variable {r : Receiver} {s : ReceiveState} {calls : List Reception}

theorem counted_new : Counted .new [] := ⟨rfl, rfl, rfl, rfl⟩

theorem Counted.clear (counted : Counted s calls) : Counted s.clear calls :=
  ⟨counted.received, counted.delivered, counted.dropped, (ReceiveState.begun_clear s).trans counted.begun⟩

/-- The counters go on telling with each data unit. -/
theorem Counted.next (counted : Counted r.state calls) (pdu : Bytes) :
    Counted (r.next pdu).state (calls ++ [⟨r, pdu⟩]) := by
  obtain ⟨received, delivered, dropped, begun⟩ := counted
  rcases Reception.refused_or_taken ⟨r, pdu⟩ with
    ⟨same, refused, nothing, unstored, unopened⟩ | ⟨header, data, state, accepted, handsOut, stores, opens⟩
  · simp only at same
    constructor <;> simp [List.countP_append, *]
  · simp only at state handsOut stores opens
    constructor
    · rw [state, ReceiveState.received_accept, List.countP_append, List.countP_singleton, accepted, received]
      rfl
    · rw [state, ReceiveState.delivered_accept, List.countP_append, List.countP_singleton, handsOut, delivered]
    · rw [state, ReceiveState.dropped_accept, List.countP_append, List.countP_singleton, accepted, stores, dropped,
        Bool.true_and, Bool.not_not]
    · rw [state, ReceiveState.begun_accept, List.countP_append, List.countP_singleton, opens, begun]

/-! ## Connections -/

/-- The past of a receiver that may have taken the place of others, each of which was given up for a new one. -/
inductive Past.Renewed : Past → Prop
  | new (key : EntityKey) (path : Path) (window : Nat) : Renewed (.new key path window)
  | data {past : Past} (pdu : Bytes) (renewed : past.Renewed) : Renewed (.data past pdu)
  | takeover (key : EntityKey) (path : Path) (window : Nat) {prior : Past} (clear : Bool) (renewed : prior.Renewed) :
      Renewed (.takeover (.new key path window) prior clear)

/-- The data units that a receiver with this past was given, those of the receivers that it took over included. -/
def Past.receptions : Past → List Reception
  | .new _ _ _ => []
  | .data past pdu => past.receptions ++ [⟨past.receiver, pdu⟩]
  | .takeover past other _ => past.receptions ++ other.receptions

/-- Between data units the receiver of a connection is settled, and its counters tell of all data units so far. -/
theorem Past.Renewed.counted {past : Past} (renewed : past.Renewed) :
    past.receiver.state.Settled ∧ Counted past.receiver.state past.receptions := by
  induction renewed with
  | new key path window => exact ⟨ReceiveState.settled_new, counted_new⟩
  | data pdu renewed ih => exact ⟨settled_next ih.1 pdu, ih.2.next pdu⟩
  | takeover key path window clear renewed ih =>
    obtain ⟨settled, counted⟩ := ih
    rw [Past.receiver, Past.receiver, DataPlane.reconcile_handOver settled]
    cases clear with
    | false => exact ⟨settled, counted⟩
    | true => exact ⟨ReceiveState.settled_clear settled, counted.clear⟩

/-- The counters of the receiver of a connection, over any data units and any replacements: it counts as received the
data units that were not refused, as delivered those at which a unit was handed out, as dropped those of which nothing
was stored; and the units that it handed out, gave up or still collects are as many as the data units that stored a
segment of a number of which none waited. -/
theorem receptions_counted {past : Past} (renewed : past.Renewed) :
    let s := past.receiver.state
    let calls := past.receptions
    s.counters.received = calls.countP Reception.accepted ∧
      s.counters.delivered = calls.countP Reception.handsOut ∧
      s.counters.dropped = calls.countP (fun c => c.accepted && !c.stores) ∧
      s.counters.delivered + s.counters.abandoned + s.pending.size = calls.countP Reception.opens := by
  intro s calls
  obtain ⟨-, received, delivered, dropped, begun⟩ := renewed.counted
  exact ⟨received, delivered, dropped, begun⟩

/-- The first of two segments under a number, twice, with a replacement between them; a replacement that gives the unit
up; a whole unit under the next number; a data unit that is cut short; and the first segment again, of which the second
moves the edge. -/
def turbulent : Past :=
  let half : Bytes := SegmentHeader.encode ⟨⟨true, false, false⟩, 0, 0⟩ [0xaa]
  let key : EntityKey := ⟨⟨1⟩, .first⟩
  let kept := Past.takeover (.new key .infrastructure 4) (.data (.new key .direct 4) half) false
  let cleared := Past.takeover (.new key .direct 4) (.data kept half) true
  let whole := Past.data cleared (SegmentHeader.encode ⟨⟨true, true, false⟩, 1, 0⟩ [0xbb])
  .data (.data (.data whole [3, 0, 0]) half) (SegmentHeader.encode ⟨⟨true, false, false⟩, 8, 0⟩ [0xcc])

theorem renewed_turbulent : turbulent.Renewed :=
  .data _ (.data _ (.data _ (.data _ (.takeover _ _ _ _ (.data _ (.takeover _ _ _ _ (.data _ (.new _ _ _))))))))

/-- Five of six data units are taken in. Of the four units that were begun one was handed out, two were given up and one
waits. -/
theorem receptions_counted_at_turbulent :
    let s := turbulent.receiver.state
    let calls := turbulent.receptions
    turbulent.Renewed ∧ calls.length = 6 ∧ s.counters = ⟨5, 1, 1, 2⟩ ∧ s.pending.keys = [8] ∧
      5 = calls.countP Reception.accepted ∧ 1 = calls.countP Reception.handsOut ∧
      1 = calls.countP (fun c => c.accepted && !c.stores) ∧ 1 + 2 + 1 = calls.countP Reception.opens :=
  ⟨renewed_turbulent, by decide, by decide, by decide, receptions_counted renewed_turbulent⟩

end Receiver
end Sidelink
