import Sidelink.Proofs.Listening

/-!
Replacing receivers goes unnoticed. Between data units a receiver is settled, whatever data units it was given and
however often it was replaced before, so that a new receiver which takes its state over has nothing to hand out and
differs from it in its path only. The path takes no part in the answer to a data unit: both answer every later one
alike. Where the incomplete units are to be given up they are, and nothing else changes.
-/
namespace Sidelink

namespace Receiver

/-- The receiver that takes the place of another one when its connection changes path, and the units that it hands
out at once. -/
def replacement (r : Receiver) (path : Path) (clear : Bool) : List Bytes × Receiver :=
  (new r.key path r.window).reconcile (r.handOver clear)

/-- What can happen to the receiver of a connection. -/
inductive Input where
  | data (pdu : Bytes)
  | replacement (path : Path) (clear : Bool)

/-- The receiver of a connection after an input. -/
def afterInput (r : Receiver) : Input → Receiver
  | .data pdu => r.next pdu
  | .replacement path clear => (r.replacement path clear).2

def afterInputs (r : Receiver) (inputs : List Input) : Receiver := inputs.foldl afterInput r

/-- What can be seen of a receiver while it is given data units: its answer to each, and the lower edge and the
counters after it. -/
def transcript (r : Receiver) : List Bytes → List (Except MalformedPdu (Option Bytes) × Nat × ReceiveCounters)
  | [] => []
  | pdu :: rest =>
    ((r.receive pdu).map Prod.fst, (r.next pdu).state.edge, (r.next pdu).state.counters) :: (r.next pdu).transcript rest

/-! ## The path of a receiver -/

theorem receive_path (r : Receiver) (path : Path) (pdu : Bytes) :
    ({ r with path } : Receiver).receive pdu =
      (r.receive pdu).map fun answer => (answer.1, { answer.2 with path }) := by
  cases parsed : SegmentHeader.parse pdu with
  | error cause => simp [receive, parsed, bind, Except.bind, Except.map]
  | ok fields =>
    simp only [receive, parsed, bind, Except.bind]
    split <;> rfl

theorem next_path (r : Receiver) (path : Path) (pdu : Bytes) :
    ({ r with path } : Receiver).next pdu = { r.next pdu with path } := by
  simp only [next, receive_path]
  cases r.receive pdu <;> rfl

/-- Two receivers that differ in their paths cannot be told apart by data units. -/
theorem transcript_path (r : Receiver) (path : Path) (pdus : List Bytes) :
    ({ r with path } : Receiver).transcript pdus = r.transcript pdus := by
  induction pdus generalizing r with
  | nil => rfl
  | cons pdu rest ih =>
    have answer : (({ r with path } : Receiver).receive pdu).map Prod.fst = (r.receive pdu).map Prod.fst := by
      rw [receive_path]
      cases r.receive pdu <;> rfl
    simp only [transcript, answer, next_path, ih]

/-! ## Replacement -/

variable {r : Receiver}

theorem replacement_eq (settled : r.state.Settled) (path : Path) (clear : Bool) :
    r.replacement path clear = ([], ⟨r.key, path, r.window, if clear = true then r.state.clear else r.state⟩) :=
  DataPlane.reconcile_handOver settled r.key path r.window clear

theorem settled_afterInput (settled : r.state.Settled) (input : Input) : (r.afterInput input).state.Settled := by
  cases input with
  | data pdu => exact settled_next settled pdu
  | replacement path clear =>
    simp only [afterInput, replacement_eq settled]
    split
    · exact ReceiveState.settled_clear settled
    · exact settled

theorem settled_afterInputs (settled : r.state.Settled) (inputs : List Input) :
    (r.afterInputs inputs).state.Settled := by
  induction inputs generalizing r with
  | nil => exact settled
  | cons input rest ih => exact ih (settled_afterInput settled input)

end Receiver

/-! ## Nodes -/

namespace DataPlane

variable {p : DataPlane}

theorem tuned_peerDeparted (tuned : p.Tuned) (peer : NodeId) : (p.peerDeparted peer).Tuned := by
  intro key r found
  exact tuned key r ((SortedMap.get?_filter_eq_some_iff _ _ _ _).1 found).1

theorem tuned_react (tuned : p.Tuned) (m : Moment) : (p.react m).plane.Tuned := by
  obtain ⟨directory, timers, stimulus⟩ := m
  cases stimulus with
  | peerDeparted peer => exact tuned_peerDeparted tuned peer
  | departed =>
    intro key r found
    cases found
  | packet | control | opportunity | drainCheck | pathSwitch | arrival =>
    refine (listens_react tuned ?_).tuned
    exact trivial

theorem tuned_after (tuned : p.Tuned) (ms : List Moment) : (p.after ms).Tuned := by
  induction ms generalizing p with
  | nil => exact tuned
  | cons m rest ih => exact ih (tuned_react tuned m)

/-- A switch hands nothing up. -/
theorem switchPath_eq_nil (tuned : p.Tuned) (directory : Directory) (timers : Timers) (peer : NodeId) (path : Path)
    (clear : Bool) : (p.switchPath directory timers peer path clear).1 = [] := by
  simp only [switchPath]
  have same := (outbound_advance_applyStep p timers.now directory ((p.advance timers.now).switches.start
    (p.advance timers.now).links (p.advance timers.now).buffers timers peer path clear)).same
  exact (replaceReceivers_spec (Listens.of_same tuned same).tuned path clear _).1

end DataPlane

namespace Receiver

/-- A receiver that was given any data units, and that may itself have taken the place of others, is replaced by one
that hands nothing out at once and answers all later data units as it would have done; or by one that differs from
it only in having given up the incomplete units. So no switch at a node ever hands anything up. -/
theorem replacement_unnoticed (key : EntityKey) (path path' : Path) (window : Nat) (inputs : List Input)
    (pdus : List Bytes) {node : NodeId} {role : Role} {settings : PlaneSettings} {p : DataPlane}
    (made : DataPlane.new node role settings = .ok p) (ms : List Moment) (directory : Directory) (timers : Timers)
    (peer : NodeId) (clear : Bool) :
    let r := (new key path window).afterInputs inputs
    r.replacement path' false = ([], { r with path := path' }) ∧
      (r.replacement path' false).2.transcript pdus = r.transcript pdus ∧
      r.replacement path' true =
        ([], { r with
          path := path'
          state := { r.state with
            pending := .empty
            counters := { r.state.counters with
              abandoned := r.state.counters.abandoned + r.state.pending.size } } }) ∧
      ((p.after ms).switchPath directory timers peer path' clear).1 = [] := by
  intro r
  have settled : r.state.Settled := settled_afterInputs ReceiveState.settled_new inputs
  have kept : r.replacement path' false = ([], { r with path := path' }) := replacement_eq settled path' false
  refine ⟨kept, ?_, replacement_eq settled path' true, ?_⟩
  · rw [kept]
    exact transcript_path r path' pdus
  · exact DataPlane.switchPath_eq_nil (DataPlane.tuned_after (DataPlane.tuned_new made).1 ms) directory timers peer
      path' clear

/-- The first of two segments, the receiver replaced, and a whole unit under the next number. -/
def halfUnit : List Input :=
  [.data (SegmentHeader.encode ⟨⟨true, false, false⟩, 0, 0⟩ [0xaa]), .replacement .infrastructure false,
    .data (SegmentHeader.encode ⟨⟨true, true, false⟩, 1, 0⟩ [0xbb])]

/-- The second segment completes its unit after a further replacement, or nothing once the first was given up. -/
theorem replacement_unnoticed_at_halfUnit :
    let r := (new ⟨⟨1⟩, .first⟩ .direct 8).afterInputs halfUnit
    let rest := [SegmentHeader.encode ⟨⟨false, true, false⟩, 0, 1⟩ [0xcc]]
    DataPlane.new ⟨2⟩ .peerDirect .default = .ok (.fresh 2) ∧
      r.transcript rest = [(.ok (some [0xaa, 0xcc]), 2, ⟨3, 2, 0, 0⟩)] ∧
      (r.replacement .direct true).2.transcript rest = [(.ok none, 0, ⟨3, 1, 0, 1⟩)] ∧
      r.replacement .direct false = ([], { r with path := .direct }) ∧
      (r.replacement .direct false).2.transcript rest = r.transcript rest ∧
      r.replacement .direct true =
        ([], { r with
          path := .direct
          state := { r.state with
            pending := .empty
            counters := { r.state.counters with
              abandoned := r.state.counters.abandoned + r.state.pending.size } } }) ∧
      (((DataPlane.fresh 2).after (((DataPlane.fresh 1).sent DataPlane.greeting).map fun f =>
        Stimulus.inPair (.arrival f))).switchPath .pair ⟨0, 0, []⟩ ⟨1⟩ .direct false).1 = [] := by
  refine ⟨DataPlane.new_fresh.2, rfl, rfl, ?_⟩
  exact replacement_unnoticed ⟨⟨1⟩, .first⟩ .direct .direct 8 halfUnit _ DataPlane.new_fresh.2 _ .pair ⟨0, 0, []⟩ ⟨1⟩
    false

end Receiver
end Sidelink
