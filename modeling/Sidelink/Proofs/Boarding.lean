import Sidelink.Proofs.Flushing

/-!
Units that leave for a buffer. Whatever a node sends, a unit leaves for the buffer of its next hop at one point: when its
packet is submitted, when control traffic is, or when the switch ends that the unit waited for. These points are listed,
each with the data plane as it is there (`DataPlane.boardings`), and what buffers take in a run is what they take at
these points (`DataPlane.admitted_eq`). Whatever only an offer changes about buffers is changed at these points, in order
(`DataPlane.offers_react`). So a buffer is made for the first unit that leaves for it, with that unit's mode and path, and
keeps both as long as it is there (`Boards`).
-/
namespace Sidelink

/-- A unit that leaves for a buffer, with the data plane at that point. -/
structure Boarding where
  plane : DataPlane
  directory : Directory
  way : Way
  hop : NodeId
  path : Path
  unit : DeferredSdu

namespace Boarding

def key (x : Boarding) : EntityKey := ⟨x.hop, x.unit.lcid⟩

/-- The buffer that the unit is offered to. -/
def buffer (x : Boarding) : TransmitBuffer := x.plane.bufferFor x.hop x.path x.unit

/-- The buffer once the unit was offered to it. -/
def answered (x : Boarding) : TransmitBuffer := (x.buffer.offer x.unit.sn x.unit.sdu x.unit.recipients).2

/-- What the buffer takes. -/
def admitted (x : Boarding) : List Admission := x.plane.offered x.hop x.path x.unit

/-- The mode and the path of a buffer that is made for the unit. -/
def nature (x : Boarding) : DeliveryMode × Path := (x.unit.mode, x.path)

end Boarding

/-! ## Where units leave -/

namespace DataPlane

/-- Units that waited for a peer leave one after the other. -/
def leavingAll (p : DataPlane) (directory : Directory) (peer : NodeId) (path : Path) (nextHop : Option NodeId) :
    List DeferredSdu → List Boarding
  | [] => []
  | d :: rest =>
    (nextHop.toList.map fun hop => ⟨p, directory, .toPeer peer, hop, path, d⟩) ++
      (p.flush peer path nextHop d).leavingAll directory peer path nextHop rest

/-- A unit leaves on its route, unless it waits for its peer. -/
def leaving (p : DataPlane) (directory : Directory) (timers : Timers) (route : Route) (unit : DeferredSdu) :
    List Boarding :=
  match route.peer with
  | none => [⟨p, directory, .toHop route.nextHop route.path, route.nextHop, route.path, unit⟩]
  | some peer =>
    let p := (p.reevaluate directory timers peer).1
    if p.switches.isSwitching peer then []
    else
      let path := p.switches.currentPath peer
      ((p.view directory).nextHop? peer path).toList.map fun hop => ⟨p, directory, .toPeer peer, hop, path, unit⟩

/-- Control traffic leaves for the serving node. -/
def leavingControl (p : DataPlane) (directory : Directory) (payload : Bytes) : List Boarding :=
  match directory.serving? p.node with
  | none => []
  | some serving =>
    match p.number .control with
    | none => []
    | some (sn, _, p) =>
      [⟨p, directory, .toHop serving .infrastructure, serving, .infrastructure,
        ⟨.control, sn, .transparent, (ConvergencePdu.mk sn .bare none payload).encode, [serving]⟩⟩]

end DataPlane

/-- The data plane in which the units that waited are sent. -/
def Ending.released (e : Ending) : DataPlane :=
  { e.plane with flows := e.plane.flows.setPeerPath e.done.peer e.done.path }.count fun c =>
    { c with switchesCompleted := c.switchesCompleted + 1 }

/-- The units that waited leave where the switch ends. -/
def Ending.leaving (e : Ending) : List Boarding :=
  e.released.leavingAll e.directory e.done.peer e.done.path e.nextHop? e.done.deferred

namespace DataPlane

/-- The unit that leaves at once for what happens at a moment. -/
def leavingAt (p : DataPlane) (m : Moment) : List Boarding :=
  match m.stimulus with
  | .packet packet hint =>
    match p.numbered? m.directory m.timers packet hint with
    | none => []
    | some (q, route, unit) => q.leaving m.directory m.timers route unit
  | .control payload => (p.advance m.timers.now).leavingControl m.directory payload
  | .opportunity _ | .drainCheck _ | .pathSwitch _ _ _ | .peerDeparted _ | .departed | .arrival _ => []

/-- The units that leave at a moment: first those that waited for switches which end. -/
def boardingsAt (p : DataPlane) (m : Moment) : List Boarding :=
  (p.endingsAt m).flatMap Ending.leaving ++ p.leavingAt m

/-- The units that leave in a run, in order. -/
def boardings (p : DataPlane) (ms : List Moment) : List Boarding := p.collect boardingsAt ms

/-! ## What buffers take -/

variable {p : DataPlane} {directory : Directory} {timers : Timers}

theorem flushed_eq (p : DataPlane) (directory : Directory) (peer : NodeId) (path : Path) (nextHop : Option NodeId)
    (units : List DeferredSdu) :
    p.flushed peer path nextHop units = (p.leavingAll directory peer path nextHop units).flatMap Boarding.admitted := by
  induction units generalizing p with
  | nil => rfl
  | cons d rest ih =>
    simp only [flushed, leavingAll, List.flatMap_append, ih]
    cases nextHop with
    | none => rfl
    | some hop => simp [Boarding.admitted]

end DataPlane

theorem Ending.admitted_eq (e : Ending) : e.admitted = e.leaving.flatMap Boarding.admitted :=
  DataPlane.flushed_eq e.released e.directory e.done.peer e.done.path e.nextHop? e.done.deferred

namespace DataPlane
variable {p : DataPlane} {directory : Directory} {timers : Timers}

theorem sentToPeer_eq {route : Route} {peer : NodeId} (peerIs : route.peer = some peer) (unit : DeferredSdu) :
    p.sentToPeer directory timers peer unit =
      p.reevaluated directory timers peer ++ (p.leaving directory timers route unit).flatMap Boarding.admitted := by
  simp only [sentToPeer, leaving, peerIs]
  generalize (p.reevaluate directory timers peer).1 = q
  refine congrArg (_ ++ ·) ?_
  split
  · rfl
  · cases (q.view directory).nextHop? peer (q.switches.currentPath peer) with
    | none => rfl
    | some hop => simp [Boarding.admitted]

/-- What buffers take at a moment is what they take of the units that leave then. -/
theorem admissions_eq (p : DataPlane) (m : Moment) :
    p.admissions m = (p.boardingsAt m).flatMap Boarding.admitted := by
  have waited (es : List Ending) :
      (es.flatMap Ending.leaving).flatMap Boarding.admitted = es.flatMap Ending.admitted := by
    rw [List.flatMap_assoc]
    exact congrArg (List.flatMap · es) (funext fun e => e.admitted_eq.symm)
  obtain ⟨directory, timers, stimulus⟩ := m
  simp only [boardingsAt, List.flatMap_append, waited]
  cases stimulus with
  | packet packet hint =>
    simp only [admissions, endingsAt, leavingAt, submitted_eq]
    cases p.numbered? directory timers packet hint with
    | none => rfl
    | some answer =>
      obtain ⟨q, route, unit⟩ := answer
      simp only
      cases peerIs : route.peer with
      | none => simp [endingsOf, leaving, peerIs, Boarding.admitted]
      | some peer =>
        simp only [sentToPeer_eq peerIs, Option.toList_some, ← settledAll_eq, settledAll, List.append_nil]
  | control payload =>
    simp only [admissions, endingsAt, leavingAt, submittedControl, leavingControl, List.flatMap_nil, List.nil_append]
    cases directory.serving? (p.advance timers.now).node with
    | none => rfl
    | some serving =>
      simp only
      cases (p.advance timers.now).number .control with
      | none => rfl
      | some answer => simp [Boarding.admitted]
  | opportunity limit => simp only [admissions, endingsAt, leavingAt, settledAll_eq, List.flatMap_nil, List.append_nil]
  | drainCheck peer | pathSwitch peer path clear =>
    simp only [admissions, endingsAt, leavingAt, stepped_eq, List.flatMap_nil, List.append_nil]
  | peerDeparted peer | departed | arrival frame => rfl

theorem boardings_append (p : DataPlane) (ms ns : List Moment) :
    p.boardings (ms ++ ns) = p.boardings ms ++ (p.after ms).boardings ns := collect_append _ p ms ns

theorem admitted_eq (p : DataPlane) (ms : List Moment) :
    p.admitted ms = (p.boardings ms).flatMap Boarding.admitted := by
  induction ms generalizing p with
  | nil => rfl
  | cons m rest ih =>
    simp only [admitted, boardings, collect, List.flatMap_append, admissions_eq]
    exact congrArg (_ ++ ·) (ih _)

/-! ## What buffers are made for -/

/-- The mode and the path of a buffer. -/
def nature (p : DataPlane) (key : EntityKey) : Option (DeliveryMode × Path) :=
  (p.buffers.get? key).map fun b => (b.mode, b.path)

/-- Whether the same buffers are there, with the same modes and paths. -/
def SameNatures (p q : DataPlane) : Prop := ∀ key, q.nature key = p.nature key

theorem nature_new {node : NodeId} {role : Role} {settings : PlaneSettings} (made : new node role settings = .ok p)
    (key : EntityKey) : p.nature key = none := by
  obtain ⟨-, rfl⟩ := eq_of_new made
  rfl

end DataPlane

/-- Whether a buffer is made for the unit that leaves. -/
def Boarding.Founds (x : Boarding) : Prop := x.plane.nature x.key = none

/-- Whether a certain buffer is made for the unit that leaves. -/
structure Boarding.Makes (x : Boarding) (key : EntityKey) (n : DeliveryMode × Path) : Prop where
  key : x.key = key
  founds : x.Founds
  nature : x.nature = n

/-- Whether some units leave on the way from one data plane to another, and no buffer comes or goes but those that are
made for them. -/
inductive Boards : DataPlane → List Boarding → DataPlane → Prop
  | still {p q : DataPlane} (same : p.SameNatures q) : Boards p [] q
  | leave {p q r : DataPlane} {x : Boarding} {xs : List Boarding} (before : p.SameNatures x.plane)
      (made : ∀ key, q.nature key = (p.nature key).or (if key = x.key then some x.nature else none))
      (rest : Boards q xs r) : Boards p (x :: xs) r

namespace Boards
variable {p q : DataPlane} {xs : List Boarding}

/-- A buffer that is there stays as it is. -/
theorem kept (boards : Boards p xs q) {key : EntityKey} {n : DeliveryMode × Path} (known : p.nature key = some n) :
    q.nature key = some n := by
  induction boards with
  | still same => rw [same, known]
  | leave before made _ ih => exact ih (by rw [made, known, Option.some_or])

/-- A buffer was there before, or was made for the first unit that left for it. -/
theorem founder (boards : Boards p xs q) {key : EntityKey} {n : DeliveryMode × Path} (known : q.nature key = some n) :
    p.nature key = some n ∨ ∃ x ∈ xs, x.Makes key n := by
  induction boards with
  | still same => exact Or.inl ((same key).symm.trans known)
  | @leave p q r x xs before made _ ih =>
    rcases ih known with here | ⟨y, member, found⟩
    · rw [made, Option.or_eq_some_iff] at here
      refine here.imp_right ?_
      rintro ⟨nothing, own⟩
      split at own
      · rename_i same
        exact ⟨x, List.mem_cons_self, same.symm, (before x.key).trans (same ▸ nothing), Option.some.inj own⟩
      · cases own
    · exact Or.inr ⟨y, List.mem_cons_of_mem _ member, found⟩

/-- The buffers that a unit finds when it leaves were there before, or were made for units that left before. -/
theorem found_of_mem (boards : Boards p xs q) {x : Boarding} (member : x ∈ xs) {key : EntityKey}
    {n : DeliveryMode × Path} (known : x.plane.nature key = some n) :
    p.nature key = some n ∨ ∃ y ∈ xs, y.Makes key n := by
  induction boards with
  | still => cases member
  | @leave p q r y ys before made rest ih =>
    rcases List.mem_cons.1 member with rfl | later
    · exact Or.inl ((before key).symm.trans known)
    · rcases ih later with here | ⟨z, there, found⟩
      · have first : Boards p [y] q := .leave before made (.still fun _ => rfl)
        refine (first.founder here).imp_right ?_
        rintro ⟨z, one, found⟩
        exact ⟨z, List.mem_singleton.1 one ▸ List.mem_cons_self, found⟩
      · exact Or.inr ⟨z, List.mem_cons_of_mem _ there, found⟩

/-- After a unit left there is a buffer for it: the one that it found, or one that was made for it. -/
theorem nature_of_mem (boards : Boards p xs q) {x : Boarding} (member : x ∈ xs) :
    q.nature x.key = some ((x.plane.nature x.key).getD x.nature) := by
  induction boards with
  | still => cases member
  | @leave p q r y ys before made rest ih =>
    rcases List.mem_cons.1 member with rfl | later
    · refine rest.kept ?_
      rw [made, if_pos rfl, before]
      cases p.nature x.key <;> rfl
    · exact ih later

end Boards

/-! ## What only offers change -/

/-- Whether something about a buffer changes only where a unit is offered to it. -/
structure TransmitBuffer.Steady {α : Type} (f : TransmitBuffer → α) : Prop where
  hold : ∀ b, f (hold b) = f b
  resume : ∀ b, f (resume b) = f b
  discard : ∀ b, f (discard b) = f b
  pull : ∀ b limit, f (pull b limit).2 = f b

/-- Whether two data planes have the same buffers as far as something about each tells. -/
def DataPlane.SameIn {α : Type} (p : DataPlane) (f : TransmitBuffer → α) (q : DataPlane) : Prop :=
  ∀ key, (q.buffers.get? key).map f = (p.buffers.get? key).map f

/-- Whether some units are offered to buffers on the way from one data plane to another, and something about the buffers
changes with these offers only. -/
inductive Offers {α : Type} (f : TransmitBuffer → α) : DataPlane → List Boarding → DataPlane → Prop
  | still {p q : DataPlane} (same : p.SameIn f q) : Offers f p [] q
  | leave {p q r : DataPlane} {x : Boarding} {xs : List Boarding} (before : p.SameIn f x.plane)
      (answered : ∀ key, (q.buffers.get? key).map f =
        if key = x.key then some (f x.answered) else (p.buffers.get? key).map f)
      (rest : Offers f q xs r) : Offers f p (x :: xs) r

section
variable {α : Type} {f : TransmitBuffer → α} {p q r : DataPlane}

namespace DataPlane.SameIn

theorem of_buffers (same : q.buffers = p.buffers) : p.SameIn f q := fun key => by rw [same]

theorem trans (first : p.SameIn f q) (second : q.SameIn f r) : p.SameIn f r := fun key =>
  (second key).trans (first key)

theorem of_inbound (inbound : Inbound p q) : p.SameIn f q := .of_buffers inbound.alike.buffers

end DataPlane.SameIn

namespace Offers
variable {xs ys : List Boarding}

theorem before (same : p.SameIn f q) (offers : Offers f q xs r) : Offers f p xs r := by
  cases offers with
  | still same' => exact .still (same.trans same')
  | leave before answered rest =>
    refine .leave (same.trans before) (fun key => ?_) rest
    rw [answered, same]

theorem trans (first : Offers f p xs q) (second : Offers f q ys r) : Offers f p (xs ++ ys) r := by
  induction first with
  | still same => exact second.before same
  | leave before answered _ ih => exact .leave before answered (ih second)

theorem andThen (first : Offers f p xs q) (same : q.SameIn f r) : Offers f p xs r := by
  have both := first.trans (.still same)
  rwa [List.append_nil] at both

end Offers
end

namespace DataPlane
variable {α : Type} {f : TransmitBuffer → α} {p q : DataPlane} {directory : Directory} {timers : Timers}

theorem sameIn_onKeys (p : DataPlane) (keys : List EntityKey) {g : TransmitBuffer → TransmitBuffer}
    (keeps : ∀ b, f (g b) = f b) {q : DataPlane} (changed : q.buffers = TransmitBuffers.onKeys p.buffers keys g) :
    p.SameIn f q := fun key => by
  rw [changed, TransmitBuffers.get?_onKeys, Option.map_map]
  refine congrArg (fun g => (p.buffers.get? key).map g) (funext fun b => ?_)
  rw [Function.comp_apply, apply_ite f, keeps, ite_self]

theorem sameIn_serveTurn (steady : TransmitBuffer.Steady f) (p : DataPlane) (node : NodeId) (order : List EntityKey)
    (budget : Nat) : p.SameIn f { p with buffers := (serveTurn node order budget p.buffers).2.2 } := by
  induction order generalizing budget p with
  | nil => exact .of_buffers rfl
  | cons key rest ih =>
    cases budget with
    | zero => exact .of_buffers rfl
    | succ budget =>
      by_cases nothing : ∀ b, p.buffers.get? key = some b → b.queue = []
      · rw [serveTurn_skip nothing]
        exact ih p (budget + 1)
      · simp only [Classical.not_forall] at nothing
        obtain ⟨buffer, found, some_queue⟩ := nothing
        obtain ⟨pdu, later, queued⟩ := List.exists_cons_of_ne_nil some_queue
        rw [serveTurn_serve found queued]
        refine SameIn.trans (fun k => ?_) (ih { p with buffers := p.buffers.insert key (buffer.pull 1).2 } budget)
        by_cases same : k = key
        · simp only [same, SortedMap.get?_insert_self, found, Option.map_some, steady.pull]
        · simp only [SortedMap.get?_insert_of_ne _ same]

theorem sameIn_serve (steady : TransmitBuffer.Steady f) (p : DataPlane) (node : NodeId) (order : List EntityKey)
    (turns budget : Nat) : p.SameIn f { p with buffers := (serve node order turns budget p.buffers).2 } := by
  induction turns generalizing budget p with
  | zero => exact .of_buffers rfl
  | succ turns ih =>
    have turn := sameIn_serveTurn steady p node order budget
    rw [serve]
    split
    · rename_i left buffers served
      rwa [served] at turn
    · rename_i frames left buffers some_frames served
      rw [served] at turn
      exact turn.trans (ih { p with buffers } left)

theorem sameIn_transmit (steady : TransmitBuffer.Steady f) (p : DataPlane) (now : SimTime) (limit : Nat) :
    p.SameIn f (p.transmit now limit).2 := by
  have advanced : p.SameIn f (p.advance now) := .of_buffers (alike_advance p now).buffers
  simp only [transmit]
  split
  · exact advanced
  · exact advanced.trans (sameIn_serve steady (p.advance now) _ _ limit limit)

/-! ## Buffers that units are offered to -/

theorem offers_offer (p : DataPlane) (directory : Directory) (way : Way) (hop : NodeId) (path : Path)
    (d : DeferredSdu) :
    Offers f p [⟨p, directory, way, hop, path, d⟩]
      ((p.join way ⟨hop, d.lcid⟩).offer hop d.lcid d.sn d.mode path d.sdu d.recipients).2 := by
  refine .leave (.of_buffers rfl) (q := (p.join way ⟨hop, d.lcid⟩).stored hop path d) (fun key => ?_)
    (.still (.of_buffers (alike_offer _ hop path d).buffers))
  rw [stored, SortedMap.get?_insert_eq_ite, apply_ite (Option.map f)]
  rfl

theorem offers_leavingAll (p : DataPlane) (directory : Directory) (peer : NodeId) (path : Path)
    (nextHop : Option NodeId) (units : List DeferredSdu) :
    Offers f p (p.leavingAll directory peer path nextHop units)
      (units.foldl (fun p d => p.flush peer path nextHop d) p) := by
  induction units generalizing p with
  | nil => exact .still (.of_buffers rfl)
  | cons d rest ih =>
    rw [leavingAll, List.foldl_cons]
    refine Offers.trans ?_ (ih _)
    cases nextHop with
    | none => exact .still (.of_buffers rfl)
    | some hop => exact offers_offer p directory (.toPeer peer) hop path d

/-- The step of a switch offers buffers no units but those that it sends on. -/
theorem offers_applyStep {step : SwitchStep} (same : p.SameIn f { p with buffers := step.buffers }) :
    Offers f p ((p.ended directory step).flatMap Ending.leaving) (p.applyStep directory step).1 := by
  unfold applyStep ended
  cases step.completion with
  | none => exact .still (same.trans (.of_buffers rfl))
  | some done =>
    let e : Ending := ⟨{ p with switches := step.switches, buffers := step.buffers }, directory, done⟩
    have flushed : Offers f e.released e.leaving (e.plane.applyCompletion directory done) :=
      offers_leavingAll e.released directory done.peer done.path e.nextHop? done.deferred
    have changed : p.SameIn f e.released := same.trans (.of_buffers rfl)
    rw [Option.toList_some, List.map_singleton, List.flatMap_singleton]
    exact flushed.before changed

section
variable (steady : TransmitBuffer.Steady f) (p : DataPlane) (s : PathSwitches) (links : PeerLinks) (timers : Timers)
  (peer : NodeId)
include steady

theorem sameIn_complete (path : Path) :
    p.SameIn f { p with buffers := (s.complete links p.buffers timers peer path).buffers } :=
  p.sameIn_onKeys (g := TransmitBuffer.resume) (links.keys peer) steady.resume rfl

theorem sameIn_reevaluate :
    p.SameIn f { p with buffers := (s.reevaluate links p.buffers timers peer).buffers } := by
  have looked := PathSwitches.looked_reevaluate s links p.buffers timers peer
  generalize s.reevaluate links p.buffers timers peer = step at looked ⊢
  cases looked with
  | calm still => exact .of_buffers rfl
  | waits switching draining => exact .of_buffers rfl
  | asks switching draining => exact .of_buffers rfl
  | ends switching drained => exact sameIn_complete steady p s links _ peer _

theorem sameIn_checkFired :
    p.SameIn f { p with buffers := (s.checkFired links p.buffers timers peer).buffers } := by
  rcases s.checkFired_eq links p.buffers timers peer with ⟨-, same⟩ | ⟨target, check, -, looks⟩
  · rw [same]
    exact .of_buffers rfl
  · rw [looks]
    exact sameIn_reevaluate steady p _ links timers peer

theorem sameIn_start (path : Path) (clear : Bool) :
    p.SameIn f { p with buffers := (s.start links p.buffers timers peer path clear).buffers } := by
  have changed {g : TransmitBuffer → TransmitBuffer} (keeps : ∀ b, f (g b) = f b) (buffers : TransmitBuffers) :
      ({ p with buffers } : DataPlane).SameIn f
        { p with buffers := TransmitBuffers.onKeys buffers (links.keys peer) g } :=
    sameIn_onKeys { p with buffers } (links.keys peer) keeps rfl
  have held := changed steady.hold p.buffers
  rw [PathSwitches.start_eq]
  cases clear with
  | false => exact held.trans (sameIn_reevaluate steady { p with buffers := _ } _ links _ peer)
  | true =>
    refine held.trans ((changed steady.discard _).trans ?_)
    exact sameIn_complete steady { p with buffers := _ } _ links _ peer path

end

theorem offers_endingsOf (steady : TransmitBuffer.Steady f) (p : DataPlane) (directory : Directory) (timers : Timers)
    (peers : List NodeId) :
    Offers f p ((p.endingsOf directory timers peers).flatMap Ending.leaving)
      (peers.foldl (fun (p, timers) peer => p.reevaluate directory timers peer) (p, timers)).1 := by
  induction peers generalizing p timers with
  | nil => exact .still (.of_buffers rfl)
  | cons peer rest ih =>
    simp only [endingsOf, List.flatMap_append, List.foldl_cons]
    exact (offers_applyStep (sameIn_reevaluate steady p p.switches p.links timers peer)).trans (ih _ _)

/-- A unit that has a number leaves after those that waited for its peer, or waits itself. -/
theorem offers_sendOn (steady : TransmitBuffer.Steady f) (p : DataPlane) (directory : Directory) (timers : Timers)
    (route : Route) (unit : DeferredSdu) :
    Offers f p
      ((p.endingsOf directory timers route.peer.toList).flatMap Ending.leaving ++
        p.leaving directory timers route unit)
      (p.sendOn directory timers route unit).2.1 := by
  unfold sendOn leaving
  cases route.peer with
  | none => exact offers_offer p directory (.toHop route.nextHop route.path) route.nextHop route.path unit
  | some peer =>
    have looked := offers_endingsOf steady p directory timers [peer]
    refine looked.trans ?_
    simp only [List.foldl_cons, List.foldl_nil, sendToPeer]
    generalize (p.reevaluate directory timers peer).1 = q
    split
    · split <;> exact .still (.of_buffers rfl)
    · cases (q.view directory).nextHop? peer (q.switches.currentPath peer) with
      | none => exact .still (.of_buffers rfl)
      | some hop => exact offers_offer q directory (.toPeer peer) hop (q.switches.currentPath peer) unit

theorem offers_submitControl (p : DataPlane) (directory : Directory) (timers : Timers) (payload : Bytes) :
    Offers f p ((p.advance timers.now).leavingControl directory payload)
      (p.submitControl directory timers payload).plane := by
  have advanced : p.SameIn f (p.advance timers.now) := .of_buffers (alike_advance p timers.now).buffers
  refine Offers.before advanced ?_
  simp only [submitControl, leavingControl]
  generalize p.advance timers.now = q
  cases directory.serving? q.node with
  | none => exact .still (.of_buffers rfl)
  | some serving =>
    simp only
    cases numbered : q.number .control with
    | none => exact .still (.of_buffers rfl)
    | some answer =>
      obtain ⟨sn, entity, r⟩ := answer
      obtain ⟨-, rfl⟩ := number_eq_some_iff.1 numbered
      let numbered : DataPlane := { q with convergence := q.convergence.insert .control entity }
      have same : q.SameIn f numbered := .of_buffers rfl
      exact (offers_offer numbered directory (.toHop serving .infrastructure) serving .infrastructure
        ⟨.control, sn, .transparent, (ConvergencePdu.mk sn .bare none payload).encode, [serving]⟩).before same

end DataPlane

/-- Whether no buffer goes, whatever else happens. -/
def Stimulus.Spares : Stimulus → Prop
  | .peerDeparted _ | .departed => False
  | _ => True

namespace DataPlane
variable {p q : DataPlane}

/-- The units that leave at a moment are those that buffers are offered then. -/
theorem offers_react {α : Type} {f : TransmitBuffer → α} (steady : TransmitBuffer.Steady f) (p : DataPlane) {m : Moment}
    (spares : m.stimulus.Spares) : Offers f p (p.boardingsAt m) (p.react m).plane := by
  obtain ⟨directory, timers, stimulus⟩ := m
  have advanced : p.SameIn f (p.advance timers.now) := .of_buffers (alike_advance p timers.now).buffers
  cases stimulus with
  | packet packet hint =>
    simp only [boardingsAt, endingsAt, leavingAt, react]
    rcases submit_spec p directory timers packet hint with
      ⟨missing, unnumbered⟩ | ⟨q, route, unit, found, numbered, sent⟩
    · rw [missing]
      exact .still (.of_buffers unnumbered.alike.buffers)
    · rw [found, sent]
      exact (offers_sendOn steady q directory timers route unit).before (.of_buffers numbered.buffers)
  | control payload => exact offers_submitControl p directory timers payload
  | opportunity limit =>
    have settled := offers_endingsOf steady (p.transmit timers.now limit).2 directory timers
      (p.transmit timers.now limit).2.switches.switchingPeers
    simp only [boardingsAt, endingsAt, leavingAt, react, List.append_nil]
    exact settled.before (sameIn_transmit steady p timers.now limit)
  | drainCheck peer =>
    simp only [boardingsAt, endingsAt, leavingAt, react, List.append_nil]
    exact (offers_applyStep (sameIn_checkFired steady _ _ _ timers peer)).before advanced
  | pathSwitch peer path clear =>
    simp only [boardingsAt, endingsAt, leavingAt, react, List.append_nil]
    refine Offers.before advanced ((offers_applyStep (sameIn_start steady _ _ _ timers peer path clear)).andThen ?_)
    exact .of_inbound (inbound_replaceReceivers _ _ _ _)
  | peerDeparted peer | departed => exact spares.elim
  | arrival frame => exact .still (.of_inbound (inbound_deliver p frame))

/-! ## Buffers that are made -/

theorem steady_nature : TransmitBuffer.Steady fun b => (b.mode, b.path) :=
  ⟨fun _ => rfl, fun _ => rfl, fun _ => rfl, fun _ _ => rfl⟩

/-- The buffer that a unit was offered to has the nature that it had, or that it was made with. -/
theorem nature_answered (x : Boarding) :
    (x.answered.mode, x.answered.path) = (x.plane.nature x.key).getD x.nature := by
  obtain ⟨mode, path, -⟩ := offer_unchanged x.buffer x.unit.sn x.unit.sdu x.unit.recipients
  rw [Boarding.answered, mode, path, nature, Boarding.key, Boarding.buffer, bufferFor]
  cases x.plane.buffers.get? ⟨x.hop, x.unit.lcid⟩ <;> rfl

theorem boards_of_offers {xs : List Boarding} (offers : Offers (fun b => (b.mode, b.path)) p xs q) :
    Boards p xs q := by
  induction offers with
  | still same => exact .still same
  | @leave p q r x xs before answered _ ih =>
    refine .leave before (fun key => ?_) ih
    have known : x.plane.nature x.key = p.nature x.key := before x.key
    rw [nature, answered, nature_answered, known]
    split
    · rename_i own
      rw [own]
      cases p.nature x.key <;> rfl
    · exact Option.or_none.symm

/-- The units that leave at a moment are those that buffers are made for then. -/
theorem boards_react (p : DataPlane) {m : Moment} (spares : m.stimulus.Spares) :
    Boards p (p.boardingsAt m) (p.react m).plane := boards_of_offers (offers_react steady_nature p spares)

/-- Where buffers go, none is made and no unit leaves. -/
theorem nature_react_of_not_spares {m : Moment} (goes : ¬ m.stimulus.Spares) :
    p.boardingsAt m = [] ∧ ∀ key n, (p.react m).plane.nature key = some n → p.nature key = some n := by
  obtain ⟨directory, timers, stimulus⟩ := m
  cases stimulus with
  | peerDeparted peer =>
    refine ⟨rfl, fun key n known => ?_⟩
    simp only [react, nature] at known ⊢
    rcases get?_peerDeparted p peer key with same | gone
    · rwa [same] at known
    · rw [gone] at known
      cases known
  | departed => exact ⟨rfl, fun key n known => by cases known⟩
  | packet | control | opportunity | drainCheck | pathSwitch | arrival => exact absurd trivial goes

/-! ## Runs -/

/-- Every buffer was made for a unit that left in the run, or was there before. -/
theorem founder_run {ms : List Moment} {key : EntityKey} {n : DeliveryMode × Path}
    (known : (p.after ms).nature key = some n) :
    p.nature key = some n ∨ ∃ x ∈ p.boardings ms, x.Makes key n := by
  induction ms generalizing p with
  | nil => exact Or.inl known
  | cons m rest ih =>
    simp only [boardings, collect, List.mem_append]
    rcases ih known with here | ⟨x, member, found⟩
    · by_cases spares : m.stimulus.Spares
      · refine ((boards_react p spares).founder here).imp_right ?_
        rintro ⟨x, member, found⟩
        exact ⟨x, Or.inl member, found⟩
      · exact Or.inl ((nature_react_of_not_spares spares).2 key n here)
    · exact Or.inr ⟨x, Or.inr member, found⟩

/-- Every buffer that a unit finds when it leaves was made for a unit that left in the run, or was there before. -/
theorem found_run {ms : List Moment} {x : Boarding} (member : x ∈ p.boardings ms) {key : EntityKey}
    {n : DeliveryMode × Path} (known : x.plane.nature key = some n) :
    p.nature key = some n ∨ ∃ y ∈ p.boardings ms, y.Makes key n := by
  induction ms generalizing p with
  | nil => cases member
  | cons m rest ih =>
    have step {n : DeliveryMode × Path} (here : (p.react m).plane.nature key = some n) :
        p.nature key = some n ∨ ∃ y ∈ p.boardingsAt m, y.Makes key n := by
      by_cases spares : m.stimulus.Spares
      · exact (boards_react p spares).founder here
      · exact Or.inl ((nature_react_of_not_spares spares).2 key n here)
    simp only [boardings, collect, List.mem_append] at member ⊢
    rcases member with now | later
    · by_cases spares : m.stimulus.Spares
      · refine ((boards_react p spares).found_of_mem now known).imp_right ?_
        rintro ⟨y, there, found⟩
        exact ⟨y, Or.inl there, found⟩
      · rw [(nature_react_of_not_spares spares).1] at now
        cases now
    · rcases ih later with here | ⟨y, there, found⟩
      · refine (step here).imp_right ?_
        rintro ⟨y, there, found⟩
        exact ⟨y, Or.inl there, found⟩
      · exact Or.inr ⟨y, Or.inr there, found⟩

/-- What a buffer takes is in the mode and on the path of the unit that the buffer was made for, the same unit or one
before. -/
theorem maker_of_admitted {node : NodeId} {role : Role} {settings : PlaneSettings}
    (made : new node role settings = .ok p) {ms : List Moment} {x : Boarding} (boards : x ∈ p.boardings ms)
    {a : Admission} (member : a ∈ x.admitted) :
    a.key = x.key ∧ ∃ y ∈ p.boardings ms, y.Makes x.key (a.mode, a.path) ∧
      (y = x ∨ x.plane.nature x.key = some (a.mode, a.path)) := by
  obtain rfl := mem_offered member
  refine ⟨rfl, ?_⟩
  unfold bufferFor
  cases buffer : x.plane.buffers.get? ⟨x.hop, x.unit.lcid⟩ with
  | none =>
    have founds : x.Founds := by rw [Boarding.Founds, nature, Boarding.key, buffer]; rfl
    exact ⟨x, boards, ⟨rfl, founds, rfl⟩, Or.inl rfl⟩
  | some b =>
    have known : x.plane.nature x.key = some (b.mode, b.path) := by rw [nature, Boarding.key, buffer]; rfl
    obtain ⟨y, there, makes⟩ := (found_run boards known).resolve_left (by simp [nature_new made])
    exact ⟨y, there, makes, Or.inr known⟩

end DataPlane
end Sidelink
