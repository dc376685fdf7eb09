import Sidelink.Proofs.Changes

/-!
What transmit buffers hold. A change that drops nothing conserves the frames of every buffer (`Change.conserves`): what
waited there and what the buffer took is what it sent and what waits there now, in this order. So every buffer sends
the frames of the units that it took, in the order in which it took them, and none that it did not take; where nothing
is dropped, all others still wait (`Served`).
-/
namespace Sidelink

/-- The buffer that a frame left. -/
def Frame.key (f : Frame) : EntityKey := ⟨f.envelope.nextHop, f.envelope.lcid⟩

/-- The frame that a queued data unit leaves as. -/
def TransmitBuffer.frame (node : NodeId) (key : EntityKey) (b : TransmitBuffer) (pdu : QueuedPdu) : Frame :=
  ⟨pdu.bytes, node, key.node, pdu.recipients, key.lcid, b.mode, b.path⟩

namespace TransmitBuffer

/-- What a buffer can do with a unit that it is offered. -/
inductive Offering (b : TransmitBuffer) (sn : UInt32) (sdu : Bytes) (recipients : List NodeId) :
    Option Bool × TransmitBuffer → Prop
  | refused (holds : b.holding = true) :
    Offering b sn sdu recipients
      (some false, { b with counters := { b.counters with refused := b.counters.refused + 1 } })
  | unanswered (free : b.holding = false) (uncounted : b.pduCount? sdu.length = none) :
    Offering b sn sdu recipients
      (none, { b with counters := { b.counters with uncounted := b.counters.uncounted + 1 } })
  | overflowed (free : b.holding = false) (counts : b.Counts sdu.length)
      (full : b.pduCount sdu.length = 0 ∨ b.capacity < b.queue.length + b.pduCount sdu.length) :
    Offering b sn sdu recipients
      (some false, { b with counters := { b.counters with overflowed := b.counters.overflowed + 1 } })
  | taken (free : b.holding = false) (counts : b.Counts sdu.length) (some_pdu : 0 < b.pduCount sdu.length)
      (room : b.queue.length + b.pduCount sdu.length ≤ b.capacity) :
    Offering b sn sdu recipients
      (some true,
        { b with
          queue := b.queue ++ (b.pdus sn sdu).map (fun bytes => ⟨bytes, recipients⟩)
          counters := { b.counters with accepted := b.counters.accepted + 1 } })

theorem offering (b : TransmitBuffer) (sn : UInt32) (sdu : Bytes) (recipients : List NodeId) :
    b.Offering sn sdu recipients (b.offer sn sdu recipients) := by
  unfold offer
  by_cases holds : b.holding = true
  · rw [if_pos holds]
    exact .refused holds
  · have free : b.holding = false := Bool.not_eq_true _ ▸ holds
    rw [if_neg holds]
    rcases b.counts_or_none sdu.length with counts | uncounted
    · rw [show b.pduCount? sdu.length = some (b.pduCount sdu.length) from counts]
      simp only [Bool.or_eq_true, decide_eq_true_eq]
      split
      · rename_i full
        exact .overflowed free counts full
      · rename_i fits
        rw [not_or] at fits
        exact .taken free counts (Nat.pos_of_ne_zero fits.1) (Nat.not_lt.1 fits.2)
    · rw [uncounted]
      exact .unanswered free uncounted

end TransmitBuffer

/-- The frames that were sent from a buffer. -/
def sentAt (key : EntityKey) (effects : List Effect) : List Frame := (sentOf effects).filter (·.key = key)

/-- The frames of the units that a buffer took. -/
def admittedAt (node : NodeId) (link : LinkSettings) (key : EntityKey) (effects : List Effect) : List Frame :=
  ((admittedOf effects).filter (·.key = key)).flatMap (Admission.frames node link)

theorem sentAt_append (key : EntityKey) (es fs : List Effect) :
    sentAt key (es ++ fs) = sentAt key es ++ sentAt key fs := by
  rw [sentAt, sentOf_append, List.filter_append]
  rfl

theorem admittedAt_append (node : NodeId) (link : LinkSettings) (key : EntityKey) (es fs : List Effect) :
    admittedAt node link key (es ++ fs) = admittedAt node link key es ++ admittedAt node link key fs := by
  rw [admittedAt, admittedOf_append, List.filter_append, List.flatMap_append]
  rfl

namespace DataPlane

/-- The frames that wait in a buffer, in the order in which they will leave. -/
def waiting (p : DataPlane) (key : EntityKey) : List Frame :=
  match p.buffers.get? key with
  | some b => b.queue.map (b.frame p.node key)
  | none => []

/-- Whether all buffers cut units as the configuration says. -/
def Cuts (p : DataPlane) : Prop := ∀ key b, p.buffers.get? key = some b → b.Follows p.settings.link

variable {p q : DataPlane} {key : EntityKey}

theorem waiting_of_get? {b : TransmitBuffer} (found : p.buffers.get? key = some b) :
    p.waiting key = b.queue.map (b.frame p.node key) := by
  simp only [waiting, found]

theorem waiting_eq_nil (missing : p.buffers.get? key = none) : p.waiting key = [] := by
  simp only [waiting, missing]

theorem waiting_congr (node : q.node = p.node) (same : q.buffers.get? key = p.buffers.get? key) :
    q.waiting key = p.waiting key := by
  simp only [waiting, node, same]

theorem waiting_insert_of_ne {k : EntityKey} (b : TransmitBuffer) (other : key ≠ k) :
    waiting { p with buffers := p.buffers.insert k b } key = p.waiting key :=
  waiting_congr (p := p) (q := { p with buffers := p.buffers.insert k b }) rfl (SortedMap.get?_insert_of_ne _ other _)

/-! ## Units offered to a buffer -/

theorem follows_bufferFor (cuts : p.Cuts) (hop : NodeId) (path : Path) (d : DeferredSdu) :
    (p.bufferFor hop path d).Follows p.settings.link := by
  rw [bufferFor]
  cases found : p.buffers.get? ⟨hop, d.lcid⟩ with
  | none => exact TransmitBuffer.follows_new _ _ _ _
  | some b => exact cuts _ b found

theorem waiting_bufferFor (p : DataPlane) (hop : NodeId) (path : Path) (d : DeferredSdu) :
    p.waiting ⟨hop, d.lcid⟩ =
      (p.bufferFor hop path d).queue.map ((p.bufferFor hop path d).frame p.node ⟨hop, d.lcid⟩) := by
  rw [waiting, bufferFor]
  cases p.buffers.get? ⟨hop, d.lcid⟩ <;> rfl

theorem offer_unchanged (b : TransmitBuffer) (sn : UInt32) (sdu : Bytes) (recipients : List NodeId) :
    (b.offer sn sdu recipients).2.mode = b.mode ∧ (b.offer sn sdu recipients).2.path = b.path ∧
      (b.offer sn sdu recipients).2.dataSize = b.dataSize ∧ (b.offer sn sdu recipients).2.holding = b.holding := by
  have offering := b.offering sn sdu recipients
  generalize b.offer sn sdu recipients = answer at offering ⊢
  cases offering <;> exact ⟨rfl, rfl, rfl, rfl⟩

theorem capacity_offer (b : TransmitBuffer) (sn : UInt32) (sdu : Bytes) (recipients : List NodeId) :
    (b.offer sn sdu recipients).2.capacity = b.capacity := by
  have offering := b.offering sn sdu recipients
  generalize b.offer sn sdu recipients = answer at offering ⊢
  cases offering <;> rfl

/-- A buffer takes a unit exactly when it does not hold, the number of the unit's data units can be computed, the unit
can be carried and all its data units fit. -/
theorem offer_taken_iff (b : TransmitBuffer) (sn : UInt32) (sdu : Bytes) (recipients : List NodeId) :
    (b.offer sn sdu recipients).1 = some true ↔
      b.holding = false ∧ b.Counts sdu.length ∧ 0 < b.pduCount sdu.length ∧
        b.queue.length + b.pduCount sdu.length ≤ b.capacity := by
  have offering := b.offering sn sdu recipients
  generalize b.offer sn sdu recipients = answer at offering ⊢
  cases offering with
  | refused holds => simp [holds]
  | unanswered free uncounted => simp [TransmitBuffer.Counts, uncounted]
  | overflowed free counts full =>
    refine iff_of_false (by simp) fun fits => ?_
    omega
  | taken free counts some_pdu room => exact iff_of_true rfl ⟨free, counts, some_pdu, room⟩

/-- A buffer takes all data units of a unit, or none. -/
theorem offer_queue (b : TransmitBuffer) (sn : UInt32) (sdu : Bytes) (recipients : List NodeId) :
    (b.offer sn sdu recipients).2.queue = b.queue ++
      if (b.offer sn sdu recipients).1 = some true then (b.pdus sn sdu).map (fun bytes => ⟨bytes, recipients⟩)
      else [] := by
  have offering := b.offering sn sdu recipients
  generalize b.offer sn sdu recipients = answer at offering ⊢
  cases offering <;> simp

theorem cuts_stored (cuts : p.Cuts) (way : Way) (hop : NodeId) (path : Path) (d : DeferredSdu) :
    ((p.join way ⟨hop, d.lcid⟩).stored hop path d).Cuts := by
  intro key b found
  by_cases same : key = ⟨hop, d.lcid⟩
  · rw [same, stored, SortedMap.get?_insert_self] at found
    obtain rfl := Option.some.inj found
    obtain ⟨mode, -, size, -⟩ := offer_unchanged (p.bufferFor hop path d) d.sn d.sdu d.recipients
    have follows := follows_bufferFor cuts hop path d
    rw [TransmitBuffer.Follows] at follows ⊢
    exact size.trans (follows.trans (congrArg _ mode.symm))
  · rw [stored, SortedMap.get?_insert_of_ne _ same] at found
    exact cuts key b found

theorem mem_offered {hop : NodeId} {path : Path} {d : DeferredSdu} {a : Admission} (member : a ∈ p.offered hop path d) :
    a = ⟨⟨hop, d.lcid⟩, (p.bufferFor hop path d).mode, (p.bufferFor hop path d).path, d.sn, d.sdu, d.recipients⟩ := by
  simp only [offered] at member
  split at member
  · exact List.mem_singleton.1 member
  · cases member

theorem waiting_stored (cuts : p.Cuts) (way : Way) (hop : NodeId) (path : Path) (d : DeferredSdu) :
    ((p.join way ⟨hop, d.lcid⟩).stored hop path d).waiting ⟨hop, d.lcid⟩ =
      p.waiting ⟨hop, d.lcid⟩ ++ (p.offered hop path d).flatMap (Admission.frames p.node p.settings.link) := by
  have found : ((p.join way ⟨hop, d.lcid⟩).stored hop path d).buffers.get? ⟨hop, d.lcid⟩ =
      some ((p.bufferFor hop path d).offer d.sn d.sdu d.recipients).2 := SortedMap.get?_insert_self _ _ _
  obtain ⟨mode, pathIs, -, -⟩ := offer_unchanged (p.bufferFor hop path d) d.sn d.sdu d.recipients
  have frame : ((p.bufferFor hop path d).offer d.sn d.sdu d.recipients).2.frame p.node ⟨hop, d.lcid⟩ =
      (p.bufferFor hop path d).frame p.node ⟨hop, d.lcid⟩ := by
    funext pdu
    simp only [TransmitBuffer.frame, mode, pathIs]
  rw [waiting_of_get? found, waiting_bufferFor p hop path d, offer_queue, List.map_append]
  refine congr (congrArg _ ?_) ?_
  · exact congrArg (fun f => List.map f _) frame
  · have pdus := TransmitBuffer.pdus_of_follows (follows_bufferFor cuts hop path d) d.sn d.sdu
    have taken : p.offered hop path d =
        if ((p.bufferFor hop path d).offer d.sn d.sdu d.recipients).1 = some true then
          [⟨⟨hop, d.lcid⟩, (p.bufferFor hop path d).mode, (p.bufferFor hop path d).path, d.sn, d.sdu, d.recipients⟩]
        else [] := rfl
    rw [taken]
    split
    · rw [List.flatMap_singleton, Admission.frames, ← pdus, List.map_map]
      exact congrArg (fun f => List.map f _) (funext fun bytes => congrFun frame ⟨bytes, d.recipients⟩)
    · rfl

/-! ## Other changes -/

theorem waiting_serve {k : EntityKey} {b : TransmitBuffer} {pdu : QueuedPdu} {rest : List QueuedPdu}
    (found : p.buffers.get? k = some b) (queued : b.queue = pdu :: rest) :
    p.waiting k = b.frame p.node k pdu ::
      waiting { p with buffers := p.buffers.insert k (b.pull 1).2 } k := by
  rw [waiting_of_get? found, waiting_of_get? (SortedMap.get?_insert_self _ _ _), queued]
  simp only [TransmitBuffer.pull, queued, List.map_cons, List.drop_succ_cons, List.drop_zero]
  rfl

theorem waiting_onBuffers {f : TransmitBuffer → TransmitBuffer}
    (keeps : ∀ b, (f b).queue = b.queue ∧ (f b).mode = b.mode ∧ (f b).path = b.path) (keys : List EntityKey) :
    (p.onBuffers keys f).waiting key = p.waiting key := by
  have found : (p.onBuffers keys f).buffers.get? key =
      (p.buffers.get? key).map fun b => if key ∈ keys then f b else b :=
    TransmitBuffers.get?_onKeys _ _ _ _
  simp only [waiting, found]
  cases p.buffers.get? key with
  | none => rfl
  | some b =>
    obtain ⟨queue, mode, path⟩ := keeps b
    simp only [Option.map_some]
    split
    · rw [queue]
      refine congrArg (fun f => List.map f _) (funext fun pdu => ?_)
      simp only [TransmitBuffer.frame, mode, path, onBuffers]
    · rfl

theorem cuts_onBuffers {f : TransmitBuffer → TransmitBuffer} (cuts : p.Cuts)
    (keeps : ∀ b, (f b).dataSize = b.dataSize ∧ (f b).mode = b.mode) (keys : List EntityKey) :
    (p.onBuffers keys f).Cuts := by
  intro k b found
  rw [onBuffers, TransmitBuffers.get?_onKeys] at found
  obtain ⟨b', before, rfl⟩ := Option.map_eq_some_iff.1 found
  split
  · rw [TransmitBuffer.Follows, (keeps b').1, (keeps b').2]
    exact cuts k b' before
  · exact cuts k b' before

theorem waiting_discard (p : DataPlane) (keys : List EntityKey) (key : EntityKey) :
    (p.onBuffers keys TransmitBuffer.discard).waiting key = if key ∈ keys then [] else p.waiting key := by
  have found : (p.onBuffers keys TransmitBuffer.discard).buffers.get? key =
      (p.buffers.get? key).map fun b => if key ∈ keys then b.discard else b := TransmitBuffers.get?_onKeys _ _ _ _
  simp only [waiting, found]
  cases p.buffers.get? key with
  | none => simp
  | some b =>
    simp only [Option.map_some]
    split <;> rfl

theorem get?_peerDeparted (p : DataPlane) (peer : NodeId) (key : EntityKey) :
    (p.peerDeparted peer).buffers.get? key = p.buffers.get? key ∨ (p.peerDeparted peer).buffers.get? key = none := by
  simp only [peerDeparted, SortedMap.get?_filter]
  cases p.buffers.get? key with
  | none => exact Or.inl rfl
  | some b =>
    rw [Option.filter_some]
    split
    · exact Or.inl rfl
    · exact Or.inr rfl

end DataPlane

/-! ## Conservation -/

namespace Change
variable {directory : Directory} {a b : Stage} {es : List Effect}

/-- A change touches neither what a node is nor how it is configured. -/
theorem fixed (change : Change directory a es b) :
    b.plane.node = a.plane.node ∧ b.plane.role = a.plane.role ∧ b.plane.settings = a.plane.settings := by
  cases change with
  | quiet alike => exact ⟨alike.node, alike.role, alike.settings⟩
  | issue mode routed created numbered =>
    obtain ⟨-, rfl⟩ := DataPlane.number_eq_some_iff.1 numbered
    exact ⟨rfl, rfl, rfl⟩
  | issueControl sdu served numbered =>
    obtain ⟨-, rfl⟩ := DataPlane.number_eq_some_iff.1 numbered
    exact ⟨rfl, rfl, rfl⟩
  | _ => exact ⟨rfl, rfl, rfl⟩

theorem cuts (change : Change directory a es b) (cuts : a.plane.Cuts) : b.plane.Cuts := by
  cases change with
  | quiet alike =>
    intro key b found
    rw [alike.buffers] at found
    rw [alike.settings]
    exact cuts key b found
  | issue mode routed created numbered =>
    obtain ⟨-, rfl⟩ := DataPlane.number_eq_some_iff.1 numbered
    exact cuts
  | issueControl sdu served numbered =>
    obtain ⟨-, rfl⟩ := DataPlane.number_eq_some_iff.1 numbered
    exact cuts
  | offer leads => exact DataPlane.cuts_stored cuts _ _ _ _
  | lose => exact cuts
  | wait switching found => exact cuts
  | @hold p tasks peer target =>
    exact DataPlane.cuts_onBuffers (f := TransmitBuffer.hold) cuts (fun b => ⟨rfl, rfl⟩) (p.links.keys peer)
  | recheck switching => exact cuts
  | @discard p tasks peer =>
    exact DataPlane.cuts_onBuffers (f := TransmitBuffer.discard) cuts (fun b => ⟨rfl, rfl⟩) (p.links.keys peer)
  | @complete p tasks peer target check switching drained =>
    exact DataPlane.cuts_onBuffers (f := TransmitBuffer.resume) cuts (fun b => ⟨rfl, rfl⟩) (p.links.keys peer)
  | @serve p tasks key buffer pdu rest found queued =>
    intro k b here
    by_cases same : k = key
    · rw [same, SortedMap.get?_insert_self] at here
      obtain rfl := Option.some.inj here
      exact cuts key buffer found
    · rw [SortedMap.get?_insert_of_ne _ same] at here
      exact cuts k b here
  | leave peer =>
    intro key b found
    rcases DataPlane.get?_peerDeparted _ peer key with same | gone
    · rw [same] at found
      exact cuts key b found
    · rw [gone] at found
      cases found
  | clear => intro key b found; cases found

/-- Of every buffer, a change conserves the frames, or drops those that wait. -/
theorem conserves (change : Change directory a es b) (cuts : a.plane.Cuts) (key : EntityKey) :
    a.plane.waiting key ++ admittedAt a.plane.node a.plane.settings.link key es =
        sentAt key es ++ b.plane.waiting key ∨
      es = [.dropped] ∧ b.plane.waiting key = [] := by
  have untouched (same : b.plane.waiting key = a.plane.waiting key) (none_sent : sentOf es = [])
      (none_taken : admittedOf es = []) :
      a.plane.waiting key ++ admittedAt a.plane.node a.plane.settings.link key es =
        sentAt key es ++ b.plane.waiting key := by
    rw [same, sentAt, admittedAt, none_sent, none_taken]
    simp
  cases change with
  | quiet alike =>
    exact Or.inl (untouched (DataPlane.waiting_congr alike.node (by rw [alike.buffers])) rfl rfl)
  | issue mode routed created numbered =>
    obtain ⟨-, rfl⟩ := DataPlane.number_eq_some_iff.1 numbered
    exact Or.inl (untouched rfl rfl rfl)
  | issueControl sdu served numbered =>
    obtain ⟨-, rfl⟩ := DataPlane.number_eq_some_iff.1 numbered
    exact Or.inl (untouched rfl rfl rfl)
  | @offer p task tasks hop path leads =>
    left
    rw [sentAt, sentOf_admitted, List.filter_nil, List.nil_append, admittedAt, admittedOf_admitted]
    by_cases same : key = ⟨hop, task.unit.lcid⟩
    · have all : (p.offered hop path task.unit).filter (·.key = key) = p.offered hop path task.unit := by
        rw [List.filter_eq_self]
        intro x member
        rw [DataPlane.mem_offered member, same]
        exact decide_eq_true rfl
      rw [all, same]
      exact (DataPlane.waiting_stored cuts _ _ _ _).symm
    · have nothing : (p.offered hop path task.unit).filter (·.key = key) = [] := by
        rw [List.filter_eq_nil_iff]
        intro x member
        rw [DataPlane.mem_offered member]
        exact fun h => same (of_decide_eq_true h).symm
      rw [nothing, List.flatMap_nil, List.append_nil]
      exact (DataPlane.waiting_insert_of_ne _ same).symm
  | lose => exact Or.inl (untouched rfl rfl rfl)
  | wait switching found => exact Or.inl (untouched rfl rfl rfl)
  | @hold p tasks peer target =>
    exact Or.inl (untouched (DataPlane.waiting_onBuffers (p := p) (f := TransmitBuffer.hold)
      (fun b => ⟨rfl, rfl, rfl⟩) (p.links.keys peer)) rfl rfl)
  | recheck switching => exact Or.inl (untouched rfl rfl rfl)
  | @discard p tasks peer =>
    have left_over := DataPlane.waiting_discard p (p.links.keys peer) key
    split at left_over
    · exact Or.inr ⟨rfl, left_over⟩
    · exact Or.inl (untouched left_over rfl rfl)
  | @complete p tasks peer target check switching drained =>
    exact Or.inl (untouched (DataPlane.waiting_onBuffers (p := p) (f := TransmitBuffer.resume)
      (fun b => ⟨rfl, rfl, rfl⟩) (p.links.keys peer)) rfl rfl)
  | @serve p tasks k buffer pdu rest found queued =>
    left
    by_cases same : key = k
    · rw [same, DataPlane.waiting_serve found queued]
      simp [admittedAt, sentAt, Effect.admitted?, Effect.sent?, Frame.key, TransmitBuffer.frame]
    · have other := DataPlane.waiting_insert_of_ne (p := p) (buffer.pull 1).2 same
      have elsewhere : (⟨k.node, k.lcid⟩ : EntityKey) ≠ key := fun h => same h.symm
      simp [admittedAt, sentAt, Effect.admitted?, Effect.sent?, Frame.key, elsewhere, other]
  | leave peer =>
    rcases DataPlane.get?_peerDeparted _ peer key with same | gone
    · exact Or.inl (untouched (DataPlane.waiting_congr rfl same) rfl rfl)
    · exact Or.inr ⟨rfl, DataPlane.waiting_eq_nil gone⟩
  | clear => exact Or.inr ⟨rfl, rfl⟩

end Change

/-- Changes touch neither what a node is nor how it is configured. -/
theorem Chain.fixed {allowed : Directory → Prop} {a b : Stage} {es : List Effect} (chain : Chain allowed a es b) :
    b.plane.node = a.plane.node ∧ b.plane.role = a.plane.role ∧ b.plane.settings = a.plane.settings := by
  induction chain with
  | refl s => exact ⟨rfl, rfl, rfl⟩
  | step _ change _ ih =>
    obtain ⟨node, role, settings⟩ := change.fixed
    exact ⟨ih.1.trans node, ih.2.1.trans role, ih.2.2.trans settings⟩

theorem DataPlane.fixed_react (p : DataPlane) (m : Moment) :
    (p.react m).plane.node = p.node ∧ (p.react m).plane.role = p.role ∧ (p.react m).plane.settings = p.settings := by
  obtain ⟨effects, chain, -⟩ := react_chain p m
  exact chain.fixed

namespace DataPlane
variable {node : NodeId} {role : Role} {settings : PlaneSettings} {p : DataPlane}

theorem node_after (p : DataPlane) (ms : List Moment) : (p.after ms).node = p.node := by
  obtain ⟨effects, chain, -⟩ := run_chain p ms
  exact chain.fixed.1

theorem role_after (p : DataPlane) (ms : List Moment) : (p.after ms).role = p.role := by
  obtain ⟨effects, chain, -⟩ := run_chain p ms
  exact chain.fixed.2.1

theorem settings_after (p : DataPlane) (ms : List Moment) : (p.after ms).settings = p.settings := by
  obtain ⟨effects, chain, -⟩ := run_chain p ms
  exact chain.fixed.2.2

theorem node_new (made : new node role settings = .ok p) : p.node = node := by
  obtain ⟨-, rfl⟩ := eq_of_new made
  rfl

theorem role_new (made : new node role settings = .ok p) : p.role = role := by
  obtain ⟨-, rfl⟩ := eq_of_new made
  rfl

end DataPlane

/-- What holds of all buffers at every stage of a run. -/
structure Served (node : NodeId) (settings : PlaneSettings) (hs : List Effect) (p : DataPlane) : Prop where
  node_eq : p.node = node
  settings_eq : p.settings = settings
  cuts : p.Cuts
  order : ∀ key, (sentAt key hs ++ p.waiting key).Sublist (admittedAt node settings.link key hs)
  lossless : .dropped ∉ hs → ∀ key, sentAt key hs ++ p.waiting key = admittedAt node settings.link key hs

theorem served_of_empty {node : NodeId} {settings : PlaneSettings} {p : DataPlane} (node_eq : p.node = node)
    (settings_eq : p.settings = settings) (empty : p.buffers = .empty) : Served node settings [] p where
  node_eq := node_eq
  settings_eq := settings_eq
  cuts := fun key b found => by rw [empty] at found; cases found
  order := fun key => by rw [DataPlane.waiting_eq_nil (by rw [empty]; rfl)]; exact List.Sublist.refl []
  lossless := fun _ key => by rw [DataPlane.waiting_eq_nil (by rw [empty]; rfl)]; rfl

theorem served_change {node : NodeId} {settings : PlaneSettings} {hs es : List Effect} {directory : Directory}
    {a b : Stage} (change : Change directory a es b) (served : Served node settings hs a.plane) :
    Served node settings (hs ++ es) b.plane := by
  obtain ⟨sameNode, -, sameSettings⟩ := change.fixed
  have law := change.conserves served.cuts
  rw [served.node_eq, served.settings_eq] at law
  refine ⟨sameNode.trans served.node_eq, sameSettings.trans served.settings_eq, change.cuts served.cuts, ?_, ?_⟩
  · intro key
    rw [sentAt_append, admittedAt_append]
    rcases law key with kept | ⟨rfl, gone⟩
    · rw [List.append_assoc, ← kept, ← List.append_assoc]
      exact (served.order key).append (List.Sublist.refl _)
    · have before := (List.sublist_append_left (sentAt key hs) (a.plane.waiting key)).trans (served.order key)
      rw [gone, List.append_nil]
      exact before.append (List.Sublist.refl [])
  · intro kept key
    rw [List.mem_append, not_or] at kept
    rw [sentAt_append, admittedAt_append]
    rcases law key with conserved | ⟨rfl, -⟩
    · rw [List.append_assoc, ← conserved, ← List.append_assoc, served.lossless kept.1 key]
    · exact absurd List.mem_cons_self kept.2

/-- Every frame that a node sends carries a unit that a buffer took. -/
theorem Served.exists_admission {node : NodeId} {settings : PlaneSettings} {hs : List Effect} {p : DataPlane}
    (served : Served node settings hs p) {f : Frame} (sent : f ∈ sentOf hs) :
    ∃ a ∈ admittedOf hs, f ∈ a.frames node settings.link := by
  have here : f ∈ sentAt f.key hs := List.mem_filter.2 ⟨sent, decide_eq_true rfl⟩
  have taken := (served.order f.key).subset (List.mem_append_left _ here)
  obtain ⟨a, member, carries⟩ := List.mem_flatMap.1 taken
  exact ⟨a, (List.mem_filter.1 member).1, carries⟩

end Sidelink
