import Sidelink.Proofs.Listening
import Sidelink.Proofs.Slices

/-!
What a receiver makes of frames that carry the units of one sender. In whatever order they come, and however often,
every unit that is handed out is one of the sender's (`ReceiveState.units_genuine`), and no unit that travels in
segments is handed out twice (`ReceiveState.units_once`). Frames that come in the order in which the sender sent them
make up exactly the first units of the sender (`ReceiveState.units_of_prefix`).
-/
namespace Sidelink

/-! ## Genuine frames -/

/-- The units of one connection by their numbers. -/
structure Catalogue (unit : UInt32 → Bytes → Prop) : Prop where
  unique : ∀ {sn sdu sdu'}, unit sn sdu → unit sn sdu' → sdu = sdu'
  /-- Every unit says which number it has. -/
  named : ∀ {sn sdu}, unit sn sdu → ∃ pdu, ConvergencePdu.read? sdu = some pdu ∧ pdu.sn = sn
  below : ∀ {sn sdu}, unit sn sdu → sn.toNat < lastWord
  short : ∀ {sn sdu}, unit sn sdu → sdu.length < 4294967296

/-- Whether a frame carries some of the unit of a number, or all of it. -/
def Frame.Carries (unit : UInt32 → Bytes → Prop) (sn : UInt32) (f : Frame) : Prop :=
  ∃ sdu, unit sn sdu ∧ if f.envelope.mode = .transparent then f.bytes = sdu else SegmentOf sn sdu f.bytes

/-- Whether something that is heard carries a unit, if it is a frame. -/
def Heard.Genuine (unit : UInt32 → Bytes → Prop) : Heard → Prop
  | .frame f => ∃ sn, f.Carries unit sn
  | .cleared => True

namespace ReceiveState

/-- Whether all that waits belongs to units of the sender. -/
def Gathers (unit : UInt32 → Bytes → Prop) (s : ReceiveState) : Prop :=
  ∀ n p, s.pending.get? n = some p → ∃ sn sdu, sn.toNat = n ∧ unit sn sdu ∧ p.PartOf sdu

variable {unit : UInt32 → Bytes → Prop} {s : ReceiveState} {window : Nat}

theorem gathers_new (unit : UInt32 → Bytes → Prop) : new.Gathers unit := fun n p found => by cases found

/-- A segment of a unit adds to that unit, and to no other. -/
theorem gathers_accept (window : Nat) (catalogue : Catalogue unit) (gathers : s.Gathers unit)
    {header : SegmentHeader} {sdu data : Bytes}
    (listed : unit header.sn sdu) (lies : LiesAt sdu header.offset.toNat data)
    (ends : header.flags.last = true → header.offset.toNat + data.length = sdu.length) :
    (s.accept window header data).2.Gathers unit ∧
      ∀ handed, (s.accept window header data).1 = some handed → handed = sdu := by
  have waits : s.WaitsFor header.sn sdu := fun p found => by
    obtain ⟨sn, sdu', same, listed', part⟩ := gathers _ p found
    obtain rfl := UInt32.toNat_inj.1 same
    rw [catalogue.unique listed listed']
    exact part
  obtain ⟨after, handed⟩ := waitsFor_accept window waits lies ends
  refine ⟨fun n p found => ?_, handed⟩
  by_cases same : n = header.sn.toNat
  · subst same
    exact ⟨header.sn, sdu, rfl, listed, after p found⟩
  · exact gathers n p (pending_accept_of_ne same found)

theorem hear_transparent {f : Frame} (mode : f.envelope.mode = .transparent) :
    s.hear window (.frame f) = (some f.bytes, s) := by
  rw [hear, mode]

theorem hear_segment {f : Frame} (mode : f.envelope.mode ≠ .transparent) :
    s.hear window (.frame f) = s.take window f.bytes := by
  rw [hear]
  cases is : f.envelope.mode with
  | transparent => exact absurd is mode
  | unacknowledged => rfl
  | acknowledged => rfl

/-- A genuine segment is taken in under the number of its unit. -/
theorem take_of_segmentOf {sn : UInt32} {sdu bytes : Bytes} (short : sdu.length < 4294967296)
    (segment : SegmentOf sn sdu bytes) :
    ∃ header data, (∀ s : ReceiveState, s.take window bytes = s.accept window header data) ∧ header.sn = sn ∧
      LiesAt sdu header.offset.toNat data ∧
      (header.flags.last = true → header.offset.toNat + data.length = sdu.length) := by
  obtain ⟨header, data, rfl, same, lies, ends⟩ := segment
  refine ⟨header, data, fun s => take_of_parse (SegmentHeader.parse_encode header data) ?_, same, lies, ends⟩
  have := lies.1
  rw [lastWord]
  omega

/-- What is heard next leaves everything that waits genuine, and makes a receiver hand out the unit that it carries
at most. -/
theorem gathers_hear (window : Nat) (catalogue : Catalogue unit) (gathers : s.Gathers unit) {h : Heard}
    (genuine : h.Genuine unit) :
    (s.hear window h).2.Gathers unit ∧ ∀ sdu, (s.hear window h).1 = some sdu → ∃ sn, unit sn sdu := by
  cases h with
  | cleared => exact ⟨fun n p found => (by cases found), fun sdu h => by cases h⟩
  | frame f =>
    obtain ⟨sn, sdu, listed, carried⟩ := genuine
    by_cases mode : f.envelope.mode = .transparent
    · rw [if_pos mode] at carried
      rw [hear_transparent mode]
      refine ⟨gathers, fun sdu' h => ⟨sn, ?_⟩⟩
      rw [← Option.some.inj h, carried]
      exact listed
    · rw [if_neg mode] at carried
      obtain ⟨header, data, accepted, rfl, lies, ends⟩ := take_of_segmentOf (catalogue.short listed) carried
      obtain ⟨after, handed⟩ := gathers_accept window catalogue gathers listed lies ends
      rw [hear_segment mode, accepted]
      exact ⟨after, fun sdu' h => ⟨header.sn, handed sdu' h ▸ listed⟩⟩

/-- Every unit that is handed out is one of the sender's. -/
theorem units_genuine (catalogue : Catalogue unit) (gathers : s.Gathers unit) {heard : List Heard}
    (genuine : ∀ h ∈ heard, h.Genuine unit) : ∀ sdu ∈ s.units window heard, ∃ sn, unit sn sdu := by
  induction heard generalizing s with
  | nil => intro sdu member; cases member
  | cons h rest ih =>
    obtain ⟨after, handed⟩ := gathers_hear window catalogue gathers (genuine h List.mem_cons_self)
    intro sdu member
    rcases List.mem_append.1 member with now | later
    · exact handed sdu (Option.mem_toList.1 now)
    · exact ih after (fun k later => genuine k (List.mem_cons_of_mem _ later)) sdu later

/-! ## Once -/

/-- The packets with a number among those that some units carry. -/
def numbered (sn : UInt32) (sdus : List Bytes) : List ConvergencePdu :=
  (sdus.filterMap ConvergencePdu.read?).filter (·.sn = sn)

/-- What becomes of one number when something is heard: it stays done with, and its unit is handed out only if it was
not done with before. -/
theorem once_hear (catalogue : Catalogue unit) (positive : 0 < window) (gathers : s.Gathers unit) {h : Heard}
    (genuine : h.Genuine unit) (sn : UInt32)
    (segmented : ∀ f, h = .frame f → f.envelope.mode = .transparent → ¬ f.Carries unit sn) :
    (s.Done sn.toNat → (s.hear window h).2.Done sn.toNat) ∧
      ((numbered sn (s.hear window h).1.toList).length = 0 ∨
        ¬ s.Done sn.toNat ∧ (s.hear window h).2.Done sn.toNat ∧
          (numbered sn (s.hear window h).1.toList).length = 1) := by
  have other {sn' : UInt32} {sdu : Bytes} (listed : unit sn' sdu) (different : sn' ≠ sn) :
      (numbered sn [sdu]).length = 0 := by
    obtain ⟨pdu, read, named⟩ := catalogue.named listed
    simp [numbered, read, named, different]
  cases h with
  | cleared => exact ⟨id, Or.inl rfl⟩
  | frame f =>
    obtain ⟨sn', sdu, listed, carried⟩ := genuine
    by_cases mode : f.envelope.mode = .transparent
    · rw [if_pos mode] at carried
      rw [hear_transparent mode, carried]
      refine ⟨id, Or.inl (other listed fun same => segmented f rfl mode ⟨sdu, same ▸ listed, ?_⟩)⟩
      rw [if_pos mode]
      exact carried
    · rw [if_neg mode] at carried
      obtain ⟨header, data, accepted, rfl, lies, ends⟩ := take_of_segmentOf (catalogue.short listed) carried
      obtain ⟨-, handed⟩ := gathers_accept window catalogue gathers listed lies ends
      have steady : ¬ s.Retreats window header.sn.toNat := fun retreats =>
        absurd retreats.1 (Nat.ne_of_lt (catalogue.below listed))
      rw [hear_segment mode, accepted]
      refine ⟨done_accept positive data steady, ?_⟩
      cases answer : (s.accept window header data).1 with
      | none => exact Or.inl rfl
      | some sdu' =>
        rw [handed sdu' answer]
        by_cases same : header.sn = sn
        · subst same
          obtain ⟨fresh, done⟩ := done_of_returned answer
          obtain ⟨pdu, read, named⟩ := catalogue.named listed
          exact Or.inr ⟨fresh, done, by simp [numbered, read, named]⟩
        · exact Or.inl (other listed same)

/-- No packet whose unit travels in segments is handed up twice, and none at all whose number is done with. -/
theorem units_once (catalogue : Catalogue unit) (positive : 0 < window) (gathers : s.Gathers unit)
    {heard : List Heard} (genuine : ∀ h ∈ heard, h.Genuine unit) {sn : UInt32}
    (segmented : ∀ f, .frame f ∈ heard → f.envelope.mode = .transparent → ¬ f.Carries unit sn) :
    (numbered sn (s.units window heard)).length ≤ if s.Done sn.toNat then 0 else 1 := by
  induction heard generalizing s with
  | nil => exact Nat.zero_le _
  | cons h rest ih =>
    have here := genuine h List.mem_cons_self
    obtain ⟨stays, once⟩ := once_hear catalogue positive gathers here sn
      fun f same => segmented f (same ▸ List.mem_cons_self)
    have after := ih (gathers_hear window catalogue gathers here).1
      (fun k later => genuine k (List.mem_cons_of_mem _ later))
      (fun f later => segmented f (List.mem_cons_of_mem _ later))
    have split : numbered sn (s.units window (h :: rest)) =
        numbered sn (s.hear window h).1.toList ++ numbered sn ((s.hear window h).2.units window rest) := by
      simp only [numbered, units, List.filterMap_append, List.filter_append]
    rw [split, List.length_append]
    rcases once with nothing | ⟨fresh, done, one⟩
    · rw [nothing, Nat.zero_add]
      refine Nat.le_trans after ?_
      by_cases done : s.Done sn.toNat
      · exact Nat.le_of_eq (by rw [if_pos done, if_pos (stays done)])
      · rw [if_neg done]
        split <;> omega
    · rw [if_pos done] at after
      rw [if_neg fresh, one]
      omega

/-! ## In order -/

/-- Whether nothing is known of numbers from one on. -/
def Ready (s : ReceiveState) (bound : Nat) : Prop := ∀ n, bound ≤ n → ¬ s.Done n ∧ s.pending.get? n = none

theorem ready_new : new.Ready 0 := fun n _ => by
  refine ⟨?_, rfl⟩
  rintro (below | given)
  · exact absurd below (Nat.not_lt_zero n)
  · cases given

theorem Ready.mono {bound bound' : Nat} (ready : s.Ready bound) (more : bound ≤ bound') : s.Ready bound' :=
  fun n above => ready n (Nat.le_trans more above)

/-- Whether a unit is being received: its data is here up to a place, and nothing is known of later numbers. -/
structure Midway (s : ReceiveState) (sn : Nat) (sdu : Bytes) (reached : Nat) : Prop where
  fresh : ¬ s.Done sn
  later : s.Ready (sn + 1)
  upTo : ((s.pending.get? sn).getD .empty).UpTo sdu reached

theorem Ready.midway {sn : Nat} (ready : s.Ready sn) (sdu : Bytes) : s.Midway sn sdu 0 where
  fresh := (ready sn (Nat.le_refl sn)).1
  later := ready.mono (Nat.le_succ sn)
  upTo := by
    rw [(ready sn (Nat.le_refl sn)).2]
    exact Partial.upTo_empty sdu

variable {sdu data : Bytes} {header : SegmentHeader} {reached : Nat}

theorem Midway.room (midway : s.Midway header.sn.toNat sdu reached) (window : Nat) :
    (s.makeRoom window header.sn.toNat).Midway header.sn.toNat sdu reached where
  fresh := (makeRoom_of_le s window (Nat.le_refl _)).1 midway.fresh
  later := fun n above => by
    obtain ⟨fresh, same⟩ := makeRoom_of_le s window (Nat.le_of_succ_le above)
    exact ⟨fresh (midway.later n above).1, same.trans (midway.later n above).2⟩
  upTo := by
    rw [(makeRoom_of_le s window (Nat.le_refl _)).2]
    exact midway.upTo

/-- The next segment of a unit, where it is not the last, is stored. -/
theorem accept_next (window : Nat) (midway : s.Midway header.sn.toNat sdu reached)
    (offset : header.offset.toNat = reached)
    (lies : LiesAt sdu reached data) (some_data : 0 < data.length) (more : header.flags.last = false) :
    (s.accept window header data).1 = none ∧
      (s.accept window header data).2.Midway header.sn.toNat sdu (reached + data.length) := by
  have room := midway.room window
  obtain ⟨q, grows, upTo⟩ := Partial.insert?_of_upTo room.upTo lies some_data
  have grown : s.grown? window header data = some q := by
    rw [grown?, offset, more]
    exact grows
  have taken := taken_accept s window header data
  generalize s.accept window header data = answer at taken ⊢
  cases taken with
  | late done => exact absurd done midway.fresh
  | again fresh known => cases grown.symm.trans known
  | stored p fresh grown' lacking =>
    obtain rfl := Option.some.inj (grown.symm.trans grown')
    refine ⟨rfl, room.fresh, fun n above => ⟨(room.later n above).1, ?_⟩, ?_⟩
    · exact (SortedMap.get?_insert_of_ne _ (Nat.ne_of_gt above) _).trans (room.later n above).2
    · rw [store, SortedMap.get?_insert_self]
      exact upTo
  | completed p fresh grown' whole =>
    obtain rfl := Option.some.inj (grown.symm.trans grown')
    cases (Partial.not_isComplete_of_upTo upTo).symm.trans whole

/-- The last segment of a unit makes a receiver hand out the unit. -/
theorem accept_last (window : Nat) (midway : s.Midway header.sn.toNat sdu reached)
    (offset : header.offset.toNat = reached)
    (lies : LiesAt sdu reached data) (ends : reached + data.length = sdu.length) (last : header.flags.last = true) :
    (s.accept window header data).1 = some sdu ∧ (s.accept window header data).2.Ready (header.sn.toNat + 1) := by
  have room := midway.room window
  obtain ⟨q, grows, whole, unit⟩ := Partial.insert?_last_of_upTo room.upTo lies ends
  have grown : s.grown? window header data = some q := by
    rw [grown?, offset, last]
    exact grows
  have taken := taken_accept s window header data
  generalize s.accept window header data = answer at taken ⊢
  cases taken with
  | late done => exact absurd done midway.fresh
  | again fresh known => cases grown.symm.trans known
  | stored p fresh grown' lacking =>
    obtain rfl := Option.some.inj (grown.symm.trans grown')
    cases whole.symm.trans lacking
  | completed p fresh grown' whole' =>
    obtain rfl := Option.some.inj (grown.symm.trans grown')
    refine ⟨congrArg some unit, fun n above => ⟨?_, ?_⟩⟩
    · rw [done_handedOut]
      rintro (rfl | done)
      · exact absurd above (Nat.not_succ_le_self _)
      · exact (room.later n above).1 done
    · have other := Nat.ne_of_gt above
      change ((s.store window header.sn.toNat q).pending.erase header.sn.toNat).get? n = none
      rw [SortedMap.get?_erase_of_ne _ other, store, SortedMap.get?_insert_of_ne _ other]
      exact (room.later n above).2

/-- What the frames of one envelope are heard as. -/
def heardAs (envelope : Envelope) (pdus : List Bytes) : List Heard := pdus.map fun bytes => .frame ⟨bytes, envelope⟩

/-- Segments of a unit, in order, make a receiver hand out the unit at the last one, and nothing before. -/
theorem units_of_segments (window : Nat) (envelope : Envelope) (segmented : envelope.mode ≠ .transparent)
    (mode : DeliveryMode) {chunk : Nat} (room : 0 < chunk) (short : sdu.length < 4294967296) {sn : UInt32} {count : Nat}
    (inside : reached ≤ sdu.length) (counted : segmentCount (sdu.length - reached) chunk = count)
    (midway : s.Midway sn.toNat sdu reached) :
    let heard := heardAs envelope (TransmitBuffer.segmentsFrom mode chunk sn count reached (sdu.drop reached))
    (∀ k < count, s.units window (heard.take k) = []) ∧ s.units window heard = [sdu] ∧
      (s.hearAll window heard).Ready (sn.toNat + 1) := by
  have place : (UInt32.ofNat reached).toNat = reached := by
    rw [UInt32.toNat_ofNat']
    omega
  have lies : LiesAt sdu reached ((sdu.drop reached).take chunk) := liesAt_take inside chunk
  have size : ((sdu.drop reached).take chunk).length = min chunk (sdu.length - reached) := by
    rw [List.length_take, List.length_drop]
  induction count generalizing reached s with
  | zero => exact absurd counted (Nat.ne_of_gt (segmentCount_pos _ room))
  | succ count ih =>
    let header : SegmentHeader :=
      ⟨⟨reached = 0, count = 0, count = 0 && mode == .acknowledged⟩, sn, UInt32.ofNat reached⟩
    have taken : s.hear window (.frame ⟨header.encode ((sdu.drop reached).take chunk), envelope⟩) =
        s.accept window header ((sdu.drop reached).take chunk) := by
      rw [hear_segment segmented]
      refine take_of_parse (SegmentHeader.parse_encode _ _) ?_
      change (UInt32.ofNat reached).toNat + _ ≤ lastWord
      rw [place, lastWord]
      omega
    cases count with
    | zero =>
      have here : s.Midway header.sn.toNat sdu reached := midway
      have fits := le_of_segmentCount_one room counted
      obtain ⟨unit, ready⟩ := accept_last window here place lies (by omega) rfl
      refine ⟨fun k few => ?_, ?_, ?_⟩
      · obtain rfl : k = 0 := by omega
        rfl
      · change (s.hear window (.frame ⟨header.encode _, envelope⟩)).1.toList ++ [] = [sdu]
        rw [taken, unit]
        rfl
      · change (s.hear window (.frame ⟨header.encode _, envelope⟩)).2.Ready _
        rw [taken]
        exact ready
    | succ count =>
      have here : s.Midway header.sn.toNat sdu reached := midway
      obtain ⟨long, rest⟩ := segmentCount_rest room counted
      obtain ⟨nothing, next⟩ := accept_next window here place lies (by omega)
        (decide_eq_false (Nat.succ_ne_zero count))
      have step : reached + ((sdu.drop reached).take chunk).length = reached + chunk := by omega
      rw [step] at next
      have left : sdu.length - (reached + chunk) = sdu.length - reached - chunk := by omega
      have onward : reached + chunk ≤ sdu.length := by omega
      have later := ih onward (by rw [left, rest]) next (by rw [UInt32.toNat_ofNat']; omega)
        (liesAt_take (by omega) chunk) (by rw [List.length_take, List.length_drop])
      rw [← List.drop_drop] at later
      obtain ⟨before, whole, ready⟩ := later
      refine ⟨fun k few => ?_, ?_, ?_⟩
      · cases k with
        | zero => rfl
        | succ k =>
          change (s.hear window (.frame ⟨header.encode _, envelope⟩)).1.toList ++
            (s.hear window (.frame ⟨header.encode _, envelope⟩)).2.units window _ = []
          rw [taken, nothing]
          exact before k (Nat.lt_of_succ_lt_succ few)
      · change (s.hear window (.frame ⟨header.encode _, envelope⟩)).1.toList ++
          (s.hear window (.frame ⟨header.encode _, envelope⟩)).2.units window _ = [sdu]
        rw [taken, nothing]
        exact whole
      · change ((s.hear window (.frame ⟨header.encode _, envelope⟩)).2.hearAll window _).Ready _
        rw [taken]
        exact ready

end ReceiveState

namespace Admission
variable {node : NodeId} {link : LinkSettings}

/-- Frames of one unit, in order. -/
theorem units_of_frames (node : NodeId) (window : Nat) (valid : link.fault? = none) {a : Admission}
    (short : a.sdu.length < 4294967296) {s : ReceiveState} (ready : s.Ready a.sn.toNat) :
    let heard := (a.frames node link).map Heard.frame
    (∀ k < heard.length, s.units window (heard.take k) = []) ∧ s.units window heard = [a.sdu] ∧
      (s.hearAll window heard).Ready (a.sn.toNat + 1) := by
  have heardIs : (a.frames node link).map Heard.frame =
      ReceiveState.heardAs ⟨node, a.key.node, a.recipients, a.key.lcid, a.mode, a.path⟩
        (link.pdus a.mode a.sn a.sdu) := by
    rw [frames, List.map_map]
    rfl
  rw [heardIs]
  by_cases mode : a.mode = .transparent
  · have whole : link.pdus a.mode a.sn a.sdu = [a.sdu] := by rw [mode]; rfl
    rw [whole]
    refine ⟨fun k few => ?_, ?_, ?_⟩
    · obtain rfl : k = 0 := Nat.lt_one_iff.1 few
      rfl
    · change (s.hear window (.frame ⟨a.sdu, _⟩)).1.toList ++ [] = [a.sdu]
      rw [ReceiveState.hear_transparent mode]
      rfl
    · change (s.hear window (.frame ⟨a.sdu, _⟩)).2.Ready _
      rw [ReceiveState.hear_transparent mode]
      exact ready.mono (Nat.le_succ _)
  · have cut : link.pdus a.mode a.sn a.sdu = TransmitBuffer.segmentsFrom a.mode (link.dataSize a.mode) a.sn
        (segmentCount a.sdu.length (link.dataSize a.mode)) 0 (a.sdu.drop 0) :=
      LinkSettings.pdus_of_segmented link mode a.sn a.sdu
    have room := LinkSettings.dataSize_pos valid a.mode
    have segments := ReceiveState.units_of_segments window
      ⟨node, a.key.node, a.recipients, a.key.lcid, a.mode, a.path⟩ mode a.mode room short (Nat.zero_le _) rfl
      (ready.midway a.sdu)
    rw [cut]
    refine ⟨fun k few => segments.1 k ?_, segments.2⟩
    rwa [ReceiveState.heardAs, List.length_map, TransmitBuffer.length_segmentsFrom] at few

/-- Any first frames of units with increasing numbers make a receiver hand out the first units, each once, and all of
them once all frames are heard. -/
theorem units_of_prefix (window : Nat) (valid : link.fault? = none) {as : List Admission} {s : ReceiveState}
    {bound : Nat} (ready : s.Ready bound) (above : ∀ a ∈ as, bound ≤ a.sn.toNat)
    (increasing : as.Pairwise (·.sn < ·.sn))
    (short : ∀ a ∈ as, a.sdu.length < 4294967296) {fs : List Frame}
    (first : fs <+: as.flatMap (Admission.frames node link)) :
    ∃ k, s.units window (fs.map .frame) = (as.take k).map (·.sdu) ∧
      (fs = as.flatMap (Admission.frames node link) → k = as.length) := by
  induction as generalizing s bound fs with
  | nil =>
    obtain rfl := List.prefix_nil.1 first
    exact ⟨0, rfl, fun _ => rfl⟩
  | cons a rest ih =>
    rw [List.flatMap_cons] at first ⊢
    obtain ⟨before, whole, after⟩ := units_of_frames node window valid
      (short a List.mem_cons_self) (ready.mono (above a List.mem_cons_self))
    by_cases part : fs.length < (a.frames node link).length
    · have cut : fs = (a.frames node link).take fs.length :=
        List.prefix_iff_eq_take.1 (List.prefix_of_prefix_length_le first (List.prefix_append _ _) (Nat.le_of_lt part))
      refine ⟨0, ?_, fun all => ?_⟩
      · rw [cut, List.map_take]
        exact before fs.length (by rwa [List.length_map])
      · have := congrArg List.length all
        rw [List.length_append] at this
        omega
    · obtain ⟨others, rfl⟩ := List.prefix_of_prefix_length_le (List.prefix_append _ _) first (Nat.not_lt.1 part)
      have remaining := (List.prefix_append_right_inj _).1 first
      obtain ⟨below, rest_increasing⟩ := List.pairwise_cons.1 increasing
      obtain ⟨k, units, all⟩ := ih after
        (fun b member => UInt32.lt_iff_toNat_lt.1 (below b member)) rest_increasing
        (fun b member => short b (List.mem_cons_of_mem _ member)) remaining
      refine ⟨k + 1, ?_, fun same => ?_⟩
      · rw [List.map_append, ReceiveState.units_append, whole, units]
        rfl
      · rw [List.length_cons, all (List.append_cancel_left same)]

end Admission
end Sidelink
