import Sidelink.Proofs.Flushing
import Sidelink.Proofs.Totals

/-!
Nothing vanishes uncounted. Every packet that a node takes is queued, dropped for want of a route or of room, or waits
for the switch of its peer, and each of these is counted; every data unit that its buffers made is sent, discarded by a
switch and counted, or still queued (`DataPlane.nothing_vanishes`). A unit that is on its way through the node while an
operation is carried out is neither, so an operation is described by the units in hand before and after it
(`DataPlane.Books`).
-/
namespace Sidelink

theorem FlowTable.not_control_of_lookupOrCreate {t t' : FlowTable} {key : FlowKey} {l : Lcid} {new : Bool}
    (valid : t.Valid) (created : t.lookupOrCreate key = some (l, new, t')) : l ≠ .control := by
  have known : t.create key = some (l, t') := by rw [create, created]; rfl
  exact not_control_of_lookup? (valid_create valid known) (lookup?_create known)

/-- The control message that a node is to send at a moment. -/
def Moment.control? (m : Moment) : Option Bytes :=
  match m.stimulus with
  | .control payload => some payload
  | _ => none

namespace DataPlane

/-- The units of which a node can tell what became of them. -/
def accounted (p : DataPlane) : Nat :=
  p.counters.queued + p.counters.routingDrops + p.counters.overflowDrops + p.switches.deferredTotal

/-- The data units of which a node can tell what became of them. -/
def traced (p : DataPlane) : Nat :=
  p.counters.sent + p.switches.counters.discarded + TransmitBuffers.queuedTotal p.buffers

/-- How many data units some units that buffers took are cut into. -/
def produced (link : LinkSettings) (units : List Admission) : Nat :=
  (units.map fun x => (link.pdus x.mode x.sn x.sdu).length).sum

theorem produced_append (link : LinkSettings) (units more : List Admission) :
    produced link (units ++ more) = produced link units + produced link more := by
  rw [produced, List.map_append, List.sum_append]
  rfl

/-- Whether two data planes are the same in all that is counted on the way out. -/
structure Undisturbed (p q : DataPlane) : Prop where
  settings : q.settings = p.settings
  convergence : q.convergence = p.convergence
  buffers : q.buffers = p.buffers
  switches : q.switches = p.switches
  submitted : q.counters.submitted = p.counters.submitted
  queued : q.counters.queued = p.counters.queued
  routingDrops : q.counters.routingDrops = p.counters.routingDrops
  overflowDrops : q.counters.overflowDrops = p.counters.overflowDrops
  sent : q.counters.sent = p.counters.sent

/-- What an operation does to the books of a node. It starts with some units in hand and ends with some, and buffers
take units on the way. -/
structure Books (p : DataPlane) (hand : Nat) (taken : List Admission) (q : DataPlane) (left : Nat) : Prop where
  settings : q.settings = p.settings
  convergence : q.convergence = p.convergence
  submitted : q.counters.submitted = p.counters.submitted
  units : q.accounted + left = p.accounted + hand
  cuts : p.Cuts → q.Cuts
  pdus : p.Cuts → q.traced = p.traced + produced p.settings.link taken

theorem Undisturbed.trans {p q r : DataPlane} (first : Undisturbed p q) (second : Undisturbed q r) :
    Undisturbed p r where
  settings := second.settings.trans first.settings
  convergence := second.convergence.trans first.convergence
  buffers := second.buffers.trans first.buffers
  switches := second.switches.trans first.switches
  submitted := second.submitted.trans first.submitted
  queued := second.queued.trans first.queued
  routingDrops := second.routingDrops.trans first.routingDrops
  overflowDrops := second.overflowDrops.trans first.overflowDrops
  sent := second.sent.trans first.sent

theorem cuts_congr {p q : DataPlane} (settings : q.settings = p.settings) (buffers : q.buffers = p.buffers)
    (cuts : p.Cuts) : q.Cuts := by
  intro key b found
  rw [buffers] at found
  rw [settings]
  exact cuts key b found

theorem Undisturbed.accounted_eq {p q : DataPlane} (same : Undisturbed p q) : q.accounted = p.accounted := by
  rw [accounted, accounted, same.queued, same.routingDrops, same.overflowDrops, same.switches]

theorem Undisturbed.traced_eq {p q : DataPlane} (same : Undisturbed p q) : q.traced = p.traced := by
  rw [traced, traced, same.sent, same.switches, same.buffers]

namespace Books
variable {p q r : DataPlane} {hand left rest : Nat} {taken more : List Admission}

theorem trans (first : Books p hand taken q left) (second : Books q left more r rest) :
    Books p hand (taken ++ more) r rest where
  settings := second.settings.trans first.settings
  convergence := second.convergence.trans first.convergence
  submitted := second.submitted.trans first.submitted
  units := second.units.trans first.units
  cuts := fun cuts => second.cuts (first.cuts cuts)
  pdus := fun cuts => by
    rw [second.pdus (first.cuts cuts), first.pdus cuts, first.settings, produced_append, Nat.add_assoc]

/-- What changes neither the counters nor anything that is counted leaves the books alone. -/
theorem still (same : Undisturbed p q) : Books p hand [] q hand where
  settings := same.settings
  convergence := same.convergence
  submitted := same.submitted
  units := by rw [same.accounted_eq]
  cuts := cuts_congr same.settings same.buffers
  pdus := fun _ => same.traced_eq

theorem undisturbed (first : Books p hand taken q left) (same : Undisturbed q r) : Books p hand taken r left := by
  have both := first.trans (still same)
  rwa [List.append_nil] at both

theorem refl (p : DataPlane) (hand : Nat) : Books p hand [] p hand :=
  .still ⟨rfl, rfl, rfl, rfl, rfl, rfl, rfl, rfl, rfl⟩

end Books

variable {p q : DataPlane} {directory : Directory} {timers : Timers}

theorem undisturbed_advance (p : DataPlane) (now : SimTime) : Undisturbed p (p.advance now) := by
  unfold advance
  split <;> exact ⟨rfl, rfl, rfl, rfl, rfl, rfl, rfl, rfl, rfl⟩

theorem books_advance (p : DataPlane) (now : SimTime) (hand : Nat) : Books p hand [] (p.advance now) hand :=
  .still (undisturbed_advance p now)

/-! ## Units on their way to a buffer -/

/-- A unit whose fate is counted is no longer in hand. -/
theorem Books.counted {f : PlaneCounters → PlaneCounters} (submitted : (f p.counters).submitted = p.counters.submitted)
    (sent : (f p.counters).sent = p.counters.sent)
    (one : (f p.counters).queued + (f p.counters).routingDrops + (f p.counters).overflowDrops =
      p.counters.queued + p.counters.routingDrops + p.counters.overflowDrops + 1) (hand : Nat) :
    Books p (hand + 1) [] (p.count f) hand where
  settings := rfl
  convergence := rfl
  submitted := submitted
  units := by
    show (f p.counters).queued + (f p.counters).routingDrops + (f p.counters).overflowDrops + p.switches.deferredTotal +
      hand = p.accounted + (hand + 1)
    rw [one, accounted]
    omega
  cuts := id
  pdus := fun _ => congrArg (· + p.switches.counters.discarded + TransmitBuffers.queuedTotal p.buffers) sent

theorem books_queued (p : DataPlane) (hand : Nat) :
    Books p (hand + 1) [] (p.count fun c => { c with queued := c.queued + 1 }) hand :=
  .counted rfl rfl (by simp only; omega) hand

theorem books_unrouted (p : DataPlane) (hand : Nat) :
    Books p (hand + 1) [] (p.count fun c => { c with routingDrops := c.routingDrops + 1 }) hand :=
  .counted rfl rfl (by simp only; omega) hand

theorem books_overflow (p : DataPlane) (hand : Nat) :
    Books p (hand + 1) [] (p.count fun c => { c with overflowDrops := c.overflowDrops + 1 }) hand :=
  .counted rfl rfl rfl hand

theorem length_bufferFor (p : DataPlane) (hop : NodeId) (path : Path) (d : DeferredSdu) :
    (p.bufferFor hop path d).queue.length =
      ((p.buffers.get? ⟨hop, d.lcid⟩).map (·.queue.length)).getD 0 := by
  rw [bufferFor]
  cases p.buffers.get? ⟨hop, d.lcid⟩ <;> rfl

theorem length_offer (b : TransmitBuffer) (d : DeferredSdu) :
    (b.offer d.sn d.sdu d.recipients).2.queue.length =
      b.queue.length + if (b.offer d.sn d.sdu d.recipients).1 = some true then b.pduCount d.sdu.length else 0 := by
  rw [offer_queue, List.length_append]
  split
  · rw [List.length_map, TransmitBuffer.length_pdus]
  · rfl

theorem produced_offered (cuts : p.Cuts) (hop : NodeId) (path : Path) (d : DeferredSdu) :
    produced p.settings.link (p.offered hop path d) =
      if ((p.bufferFor hop path d).offer d.sn d.sdu d.recipients).1 = some true then
        (p.bufferFor hop path d).pduCount d.sdu.length
      else 0 := by
  by_cases taken : ((p.bufferFor hop path d).offer d.sn d.sdu d.recipients).1 = some true
  · have one : p.offered hop path d = _ := if_pos taken
    rw [if_pos taken, one, ← TransmitBuffer.length_pdus _ d.sn,
      TransmitBuffer.pdus_of_follows (follows_bufferFor cuts hop path d) d.sn d.sdu]
    exact Nat.add_zero _
  · rw [if_neg taken, offered_of_untaken taken]
    rfl

/-- A buffer queues the data units of a unit that it takes. -/
theorem books_stored (p : DataPlane) (hop : NodeId) (path : Path) (d : DeferredSdu) (hand : Nat) :
    Books p hand (p.offered hop path d) (p.stored hop path d) hand where
  settings := rfl
  convergence := rfl
  submitted := rfl
  units := rfl
  cuts := fun cuts => cuts_stored cuts (.toHop hop path) hop path d
  pdus := fun cuts => by
    have queued := TransmitBuffers.queuedTotal_insert p.buffers ⟨hop, d.lcid⟩
      ((p.bufferFor hop path d).offer d.sn d.sdu d.recipients).2
    rw [← length_bufferFor p hop path d, length_offer] at queued
    show p.counters.sent + p.switches.counters.discarded + TransmitBuffers.queuedTotal (p.buffers.insert _ _) = _
    rw [produced_offered cuts, traced]
    omega

theorem offer_eq (p : DataPlane) (hop : NodeId) (path : Path) (d : DeferredSdu) :
    (p.offer hop d.lcid d.sn d.mode path d.sdu d.recipients).2 =
      if ((p.bufferFor hop path d).offer d.sn d.sdu d.recipients).1 = some true then
        (p.stored hop path d).count fun c => { c with queued := c.queued + 1 }
      else (p.stored hop path d).count fun c => { c with overflowDrops := c.overflowDrops + 1 } := by
  simp only [offer]
  split <;> rename_i answer
  · exact (if_pos answer).symm
  · exact (if_neg fun taken => by cases answer.symm.trans taken).symm
  · exact (if_neg fun taken => by cases answer.symm.trans taken).symm

/-- A unit that is offered to a buffer is queued, or dropped for want of room. -/
theorem books_offer (p : DataPlane) (hop : NodeId) (path : Path) (d : DeferredSdu) (hand : Nat) :
    Books p (hand + 1) (p.offered hop path d) (p.offer hop d.lcid d.sn d.mode path d.sdu d.recipients).2 hand := by
  have stored := books_stored p hop path d (hand + 1)
  rw [offer_eq, ← List.append_nil (p.offered hop path d)]
  split
  · exact stored.trans (books_queued _ hand)
  · exact stored.trans (books_overflow _ hand)

theorem books_join (p : DataPlane) (links : PeerLinks) (hand : Nat) : Books p hand [] { p with links } hand :=
  .still ⟨rfl, rfl, rfl, rfl, rfl, rfl, rfl, rfl, rfl⟩

theorem books_flush (p : DataPlane) (peer : NodeId) (path : Path) (nextHop : Option NodeId) (d : DeferredSdu)
    (hand : Nat) :
    Books p (hand + 1)
      (match nextHop with
        | none => []
        | some hop => p.offered hop path d) (p.flush peer path nextHop d) hand := by
  cases nextHop with
  | none => exact books_unrouted p hand
  | some hop => exact (books_join p (p.links.add peer ⟨hop, d.lcid⟩) (hand + 1)).trans (books_offer _ hop path d hand)

/-- All units that waited for a peer leave the hand. -/
theorem books_flushed (p : DataPlane) (peer : NodeId) (path : Path) (nextHop : Option NodeId) (units : List DeferredSdu)
    (hand : Nat) :
    Books p (hand + units.length) (p.flushed peer path nextHop units)
      (units.foldl (fun p d => p.flush peer path nextHop d) p) hand := by
  induction units generalizing p with
  | nil => exact .refl p hand
  | cons d rest ih => exact (books_flush p peer path nextHop d (hand + rest.length)).trans (ih _)

/-! ## Steps of a switch -/

theorem cuts_of_cutAlike {buffers : TransmitBuffers} (cuts : p.Cuts)
    (alike : TransmitBuffers.CutAlike p.buffers buffers) {key : EntityKey} {b : TransmitBuffer}
    (found : buffers.get? key = some b) : b.Follows p.settings.link := by
  obtain ⟨b', before, mode, size⟩ := alike key b found
  have follows : b'.dataSize = p.settings.link.dataSize b'.mode := cuts key b' before
  exact size.trans (follows.trans (congrArg _ mode.symm))

theorem books_applyCompletion (p : DataPlane) (directory : Directory) (done : SwitchCompletion) (hand : Nat) :
    Books p (hand + done.deferred.length) (p.completed directory done) (p.applyCompletion directory done) hand := by
  let q := { p with flows := p.flows.setPeerPath done.peer done.path }.count fun c =>
    { c with switchesCompleted := c.switchesCompleted + 1 }
  have counted : Books p (hand + done.deferred.length) [] q (hand + done.deferred.length) :=
    .still ⟨rfl, rfl, rfl, rfl, rfl, rfl, rfl, rfl, rfl⟩
  exact counted.trans (books_flushed q done.peer done.path _ done.deferred hand)

/-- The units that a step of a switch hands out go to their buffers. -/
theorem books_applyStep (directory : Directory) {step : SwitchStep}
    (balanced : SwitchStep.Balanced p.switches p.buffers step) (hand : Nat) :
    Books p hand (p.stepped directory step) (p.applyStep directory step).1 hand := by
  have taken : Books p hand [] { p with switches := step.switches, buffers := step.buffers }
      (hand + step.released.length) := by
    refine ⟨rfl, rfl, rfl, ?_, fun cuts key b found => ?_, fun _ => ?_⟩
    · have units := balanced.units
      simp only [accounted]
      omega
    · exact cuts_of_cutAlike cuts balanced.cuts found
    · have pdus := balanced.pdus
      simp only [traced, produced, List.map_nil, List.sum_nil]
      omega
  unfold stepped applyStep
  cases completed : step.completion with
  | none =>
    have nothing : step.released = [] := by rw [SwitchStep.released, completed]; rfl
    rw [nothing] at taken
    exact taken
  | some done =>
    have released : step.released = done.deferred := by rw [SwitchStep.released, completed]; rfl
    rw [released] at taken
    exact taken.trans (books_applyCompletion _ directory done hand)

theorem books_reevaluate (p : DataPlane) (directory : Directory) (timers : Timers) (peer : NodeId) (hand : Nat) :
    Books p hand (p.reevaluated directory timers peer) (p.reevaluate directory timers peer).1 hand :=
  books_applyStep directory (SwitchStep.balanced_looked (PathSwitches.looked_reevaluate _ _ _ _ _)) hand

/-- A unit for a peer waits, goes to a buffer, or is dropped, after those that waited for the peer. -/
theorem books_sendToPeer (p : DataPlane) (directory : Directory) (timers : Timers) (peer : NodeId) (d : DeferredSdu)
    (hand : Nat) :
    Books p (hand + 1) (p.sentToPeer directory timers peer d) (p.sendToPeer directory timers peer d).2.1 hand := by
  have looked := books_reevaluate p directory timers peer (hand + 1)
  simp only [sendToPeer, sentToPeer]
  refine looked.trans ?_
  generalize (p.reevaluate directory timers peer).1 = q
  split
  · have waits := q.switches.deferredTotal_defer peer d
    have discarded : (q.switches.defer peer d).2.counters.discarded = q.switches.counters.discarded := by
      rw [PathSwitches.defer]
      split
      · rfl
      · split <;> rfl
    have moved (left : Nat) (balance : (q.switches.defer peer d).2.deferredTotal + left =
        q.switches.deferredTotal + (hand + 1)) :
        Books q (hand + 1) [] { q with switches := (q.switches.defer peer d).2 } left := by
      refine ⟨rfl, rfl, rfl, ?_, id, fun _ => ?_⟩
      · simp only [accounted]
        omega
      · simp only [traced, discarded]
        rfl
    split
    · rename_i taken
      rw [if_pos taken] at waits
      exact (moved hand (by omega)).trans (.still ⟨rfl, rfl, rfl, rfl, rfl, rfl, rfl, rfl, rfl⟩)
    · rename_i untaken
      rw [if_neg untaken] at waits
      exact (moved (hand + 1) (by omega)).trans (books_overflow _ hand)
  · cases (q.view directory).nextHop? peer (q.switches.currentPath peer) with
    | none => exact books_unrouted q hand
    | some hop =>
      exact (books_join q (q.links.add peer ⟨hop, d.lcid⟩) (hand + 1)).trans
        (books_offer _ hop (q.switches.currentPath peer) d hand)

theorem books_sendOn (p : DataPlane) (directory : Directory) (timers : Timers) (route : Route) (unit : DeferredSdu)
    (hand : Nat) :
    Books p (hand + 1)
      (match route.peer with
        | some peer => p.sentToPeer directory timers peer unit
        | none => p.offered route.nextHop route.path unit) (p.sendOn directory timers route unit).2.1 hand := by
  unfold sendOn
  cases route.peer with
  | some peer => exact books_sendToPeer p directory timers peer unit hand
  | none => exact books_offer p route.nextHop route.path unit hand

/-! ## Transmission -/

theorem queuedTotal_pull {buffers : TransmitBuffers} {key : EntityKey} {b : TransmitBuffer} {pdu : QueuedPdu}
    {later : List QueuedPdu} (found : buffers.get? key = some b) (queued : b.queue = pdu :: later) :
    TransmitBuffers.queuedTotal (buffers.insert key (b.pull 1).2) + 1 = TransmitBuffers.queuedTotal buffers := by
  have counted := TransmitBuffers.queuedTotal_insert buffers key (b.pull 1).2
  have before : ((buffers.get? key).map (·.queue.length)).getD 0 = later.length + 1 := by rw [found]; simp [queued]
  have after : (b.pull 1).2.queue.length = later.length := by simp [TransmitBuffer.pull, queued]
  rw [before, after] at counted
  omega

/-- A turn sends the data units that buffers lose. -/
theorem queuedTotal_serveTurn (node : NodeId) (order : List EntityKey) (budget : Nat) (buffers : TransmitBuffers) :
    TransmitBuffers.queuedTotal (serveTurn node order budget buffers).2.2 +
          (serveTurn node order budget buffers).1.length =
        TransmitBuffers.queuedTotal buffers ∧
      TransmitBuffers.CutAlike buffers (serveTurn node order budget buffers).2.2 := by
  induction order generalizing budget buffers with
  | nil => exact ⟨rfl, .refl buffers⟩
  | cons key rest ih =>
    cases budget with
    | zero => exact ⟨rfl, .refl buffers⟩
    | succ budget =>
      by_cases nothing : ∀ b, buffers.get? key = some b → b.queue = []
      · rw [serveTurn_skip nothing]
        exact ih (budget + 1) buffers
      · simp only [Classical.not_forall] at nothing
        obtain ⟨b, found, some_queue⟩ := nothing
        obtain ⟨pdu, later, queued⟩ := List.exists_cons_of_ne_nil some_queue
        have emptied : TransmitBuffers.CutAlike buffers (buffers.insert key (b.pull 1).2) := .insert found ⟨rfl, rfl⟩
        obtain ⟨total, cut⟩ := ih budget (buffers.insert key (b.pull 1).2)
        rw [serveTurn_serve found queued, ← queuedTotal_pull found queued, ← total]
        exact ⟨rfl, emptied.trans cut⟩

theorem queuedTotal_serve (node : NodeId) (order : List EntityKey) (turns budget : Nat) (buffers : TransmitBuffers) :
    TransmitBuffers.queuedTotal (serve node order turns budget buffers).2 +
          (serve node order turns budget buffers).1.length =
        TransmitBuffers.queuedTotal buffers ∧
      TransmitBuffers.CutAlike buffers (serve node order turns budget buffers).2 := by
  induction turns generalizing budget buffers with
  | zero => exact ⟨rfl, .refl buffers⟩
  | succ turns ih =>
    obtain ⟨total, cut⟩ := queuedTotal_serveTurn node order budget buffers
    simp only [serve]
    generalize serveTurn node order budget buffers = turn at total cut
    obtain ⟨frames, left, buffers'⟩ := turn
    cases frames with
    | nil => exact ⟨total, cut⟩
    | cons frame frames =>
      obtain ⟨later, cut'⟩ := ih left buffers'
      simp only [List.length_append] at total ⊢
      exact ⟨by omega, cut.trans cut'⟩

/-- The data units that are sent leave the buffers. -/
theorem books_transmit (p : DataPlane) (now : SimTime) (limit hand : Nat) :
    Books p hand [] (p.transmit now limit).2 hand := by
  have advanced := books_advance p now hand
  simp only [transmit]
  generalize p.advance now = q at advanced ⊢
  split
  · exact advanced
  · obtain ⟨total, cut⟩ := queuedTotal_serve q.node q.serviceOrder limit limit q.buffers
    refine advanced.trans ⟨rfl, rfl, rfl, rfl, fun cuts key b found => ?_, fun _ => ?_⟩
    · exact cuts_of_cutAlike cuts cut found
    · simp only [traced, count, produced, List.map_nil, List.sum_nil]
      omega

theorem books_settle (p : DataPlane) (directory : Directory) (timers : Timers) (peers : List NodeId) (hand : Nat) :
    Books p hand (p.settledAll directory timers peers)
      (peers.foldl (fun (p, timers) peer => p.reevaluate directory timers peer) (p, timers)).1 hand := by
  induction peers generalizing p timers with
  | nil => exact .refl p hand
  | cons peer rest ih => exact (books_reevaluate p directory timers peer hand).trans (ih _ _)

/-! ## Reception -/

theorem Inbound.undisturbed (inbound : Inbound p q) : Undisturbed p q := by
  obtain ⟨_, _, _, _, _, rfl⟩ := inbound
  exact ⟨rfl, rfl, rfl, rfl, rfl, rfl, rfl, rfl, rfl⟩

/-! ## Packets -/

/-- A packet that is given a number is not counted yet, except as submitted, and its connection is not the one kept for
control traffic. -/
theorem counters_numbered {packet : Packet} {hint : String} {route : Route} {unit : DeferredSdu}
    (found : p.numbered? directory timers packet hint = some (q, route, unit)) :
    q.counters = { p.counters with submitted := p.counters.submitted + 1 } ∧ q.settings = p.settings ∧
      ∃ entity, q.convergence = p.convergence.insert unit.lcid entity ∧ (p.flows.Valid → unit.lcid ≠ .control) := by
  obtain ⟨-, -, anew, flows, entity, created, -, -, -, rfl⟩ := numbered?_eq_some found
  exact ⟨rfl, rfl, entity, rfl, fun valid => FlowTable.not_control_of_lookupOrCreate valid created⟩

/-- A packet that is not given a number is counted as submitted, and for want of a route unless it is refused. -/
theorem counters_unnumbered {packet : Packet} {hint : String}
    (missing : p.numbered? directory timers packet hint = none) :
    (∃ cause, (p.submit directory timers packet hint).result = .error cause ∧
        (p.submit directory timers packet hint).plane.counters =
          { p.counters with submitted := p.counters.submitted + 1 }) ∨
      ∃ dispatch, (p.submit directory timers packet hint).result = .ok dispatch ∧
        (p.submit directory timers packet hint).plane.counters =
          { p.counters with
            submitted := p.counters.submitted + 1
            routingDrops := p.counters.routingDrops + 1 } := by
  have rejection := rejection_of_unnumbered missing
  generalize p.submit directory timers packet hint = submission at rejection ⊢
  cases rejection with
  | unknownMode | exhausted | numberless => exact Or.inl ⟨_, rfl, rfl⟩
  | routeless => exact Or.inr ⟨_, rfl, rfl⟩

/-! ## Moments -/

/-- The packet that cannot be taken at a moment, by the cause. -/
def refusedAt (p : DataPlane) (m : Moment) : List SubmitError :=
  match m.stimulus with
  | .packet packet hint =>
    match (p.submit m.directory m.timers packet hint).result with
    | .error cause => [cause]
    | .ok _ => []
  | _ => []

/-- What becomes of control traffic at a moment, unless the numbers of its connection are used up. -/
def controlledAt (p : DataPlane) (m : Moment) : List Dispatch :=
  match m.stimulus with
  | .control payload =>
    match (p.submitControl m.directory m.timers payload).result with
    | .ok dispatch => [dispatch]
    | .error _ => []
  | _ => []

/-- How many numbers the connection for control traffic gave. -/
def controlNumbers (p : DataPlane) : Nat := ((p.convergence.get? .control).map (·.issued)).getD 0

theorem controlNumbers_congr (convergence : q.convergence = p.convergence) : q.controlNumbers = p.controlNumbers := by
  rw [controlNumbers, convergence, controlNumbers]

/-- What a moment does to the books of the units of a node. -/
structure Entered (p : DataPlane) (m : Moment) : Prop where
  units : (p.react m).plane.accounted + p.counters.submitted + (p.refusedAt m).length =
    p.accounted + (p.react m).plane.counters.submitted + (p.controlledAt m).length
  refused : p.counters.submitted + (p.refusedAt m).length ≤ (p.react m).plane.counters.submitted
  numbers : p.flows.Valid → (p.react m).plane.controlNumbers ≤ p.controlNumbers + (p.controlledAt m).length

/-- What a moment does to the books of a node if no peer departs, those of the data units included. -/
structure Followed (p : DataPlane) (m : Moment) : Prop extends Entered p m where
  settings : (p.react m).plane.settings = p.settings
  cuts : p.Cuts → (p.react m).plane.Cuts
  pdus : p.Cuts → (p.react m).plane.traced = p.traced + produced p.settings.link (p.admissions m)

/-- A moment may first change a data plane in what does not leave the buffers, and then send a unit on its way. -/
theorem followed_of_entry {m : Moment} {hand : Nat} (asked : Nat) (settings : q.settings = p.settings)
    (buffers : q.buffers = p.buffers) (traced : q.traced = p.traced)
    (submitted : q.counters.submitted = p.counters.submitted + asked)
    (units : q.accounted + hand + (p.refusedAt m).length = p.accounted + asked + (p.controlledAt m).length)
    (refused : (p.refusedAt m).length ≤ asked)
    (numbers : p.flows.Valid → q.controlNumbers ≤ p.controlNumbers + (p.controlledAt m).length)
    (books : Books q hand (p.admissions m) (p.react m).plane 0) : Followed p m := by
  have entering : p.Cuts → q.Cuts := cuts_congr settings buffers
  refine ⟨⟨?_, ?_, fun valid => ?_⟩, books.settings.trans settings, fun cuts => books.cuts (entering cuts),
    fun cuts => ?_⟩
  · have sent := books.units
    rw [books.submitted, submitted]
    omega
  · rw [books.submitted, submitted]
    exact Nat.add_le_add_left refused _
  · rw [controlNumbers_congr books.convergence]
    exact numbers valid
  · rw [books.pdus (entering cuts), traced, settings]

theorem followed_of_books {m : Moment} (unrefused : p.refusedAt m = []) (uncontrolled : p.controlledAt m = [])
    (books : Books p 0 (p.admissions m) (p.react m).plane 0) : Followed p m :=
  followed_of_entry 0 rfl rfl rfl (Nat.add_zero _).symm (by rw [unrefused, uncontrolled]; rfl)
    (by rw [unrefused]; exact Nat.le_refl 0) (fun _ => Nat.le_add_right _ _) books

theorem followed_unnumbered {packet : Packet} {hint : String}
    (missing : p.numbered? directory timers packet hint = none)
    (unnumbered : p.Unnumbered timers (p.submit directory timers packet hint)) :
    Followed p ⟨directory, timers, .packet packet hint⟩ := by
  obtain ⟨alike, switches, -, -⟩ := unnumbered
  have numbers := Nat.le_of_eq (controlNumbers_congr alike.convergence)
  have still : Books (p.submit directory timers packet hint).plane 0
      (p.admissions ⟨directory, timers, .packet packet hint⟩) (p.submit directory timers packet hint).plane 0 := by
    have nothing : p.admissions ⟨directory, timers, .packet packet hint⟩ = _ :=
      submitted_eq p directory timers packet hint
    rw [nothing, missing]
    exact .refl _ 0
  rcases counters_unnumbered missing with ⟨cause, result, counters⟩ | ⟨dispatch, result, counters⟩
  · have refused : p.refusedAt ⟨directory, timers, .packet packet hint⟩ = [cause] := by
      simp only [refusedAt, result]
    refine followed_of_entry 1 alike.settings alike.buffers ?_ ?_ ?_ ?_ (fun _ => numbers) still
    · rw [traced, traced, counters, switches, alike.buffers]
    · rw [counters]
    · rw [refused, accounted, accounted, counters, switches]
      rfl
    · rw [refused]
      exact Nat.le_refl 1
  · have unrefused : p.refusedAt ⟨directory, timers, .packet packet hint⟩ = [] := by
      simp only [refusedAt, result]
    refine followed_of_entry 1 alike.settings alike.buffers ?_ ?_ ?_ ?_ (fun _ => numbers) still
    · rw [traced, traced, counters, switches, alike.buffers]
    · rw [counters]
    · rw [unrefused, accounted, accounted, counters, switches]
      show _ + 0 + 0 = _ + 1 + 0
      simp only
      omega
    · rw [unrefused]
      exact Nat.zero_le 1

/-- A packet that is given a number is in hand until a buffer takes it, or it waits or is dropped. -/
theorem followed_numbered {packet : Packet} {hint : String} {route : Route} {unit : DeferredSdu} {outcome : Dispatch}
    (found : p.numbered? directory timers packet hint = some (q, route, unit))
    (numbered : p.Numbered directory packet q route.way unit)
    (sent : p.submit directory timers packet hint =
      ⟨.ok outcome, (q.sendOn directory timers route unit).2.1, (q.sendOn directory timers route unit).2.2⟩) :
    Followed p ⟨directory, timers, .packet packet hint⟩ := by
  obtain ⟨counters, settings, entity, convergence, traffic⟩ := counters_numbered found
  have unrefused : p.refusedAt ⟨directory, timers, .packet packet hint⟩ = [] := by
    simp only [refusedAt, sent]
  have books : Books q 1 (p.admissions ⟨directory, timers, .packet packet hint⟩)
      (p.react ⟨directory, timers, .packet packet hint⟩).plane 0 := by
    have taken : p.admissions ⟨directory, timers, .packet packet hint⟩ = _ :=
      submitted_eq p directory timers packet hint
    have plane : (p.react ⟨directory, timers, .packet packet hint⟩).plane = _ := congrArg Submission.plane sent
    rw [taken, plane, found]
    exact books_sendOn q directory timers route unit 0
  refine followed_of_entry 1 settings numbered.buffers ?_ ?_ ?_ ?_ (fun valid => ?_) books
  · rw [traced, traced, counters, numbered.switches, numbered.buffers]
  · rw [counters]
  · rw [unrefused, accounted, accounted, counters, numbered.switches]
    rfl
  · rw [unrefused]
    exact Nat.zero_le 1
  · rw [controlNumbers, convergence, SortedMap.get?_insert_of_ne _ (traffic valid).symm]
    exact Nat.le_add_right _ _

theorem followed_packet (p : DataPlane) (directory : Directory) (timers : Timers) (packet : Packet) (hint : String) :
    Followed p ⟨directory, timers, .packet packet hint⟩ := by
  rcases submit_spec p directory timers packet hint with
    ⟨missing, unnumbered⟩ | ⟨q, route, unit, found, numbered, sent⟩
  · exact followed_unnumbered missing unnumbered
  · exact followed_numbered found numbered sent

theorem issued_eq_controlNumbers (p : DataPlane) :
    ((p.convergence.get? .control).getD (.new .control p.settings.compression)).issued = p.controlNumbers := by
  rw [controlNumbers]
  cases p.convergence.get? .control <;> rfl

/-- Control traffic is refused once all numbers are given. Else it may take a number, and then is a unit in hand. -/
theorem books_control (p : DataPlane) (directory : Directory) (timers : Timers) (payload : Bytes) :
    (∃ cause, (p.submitControl directory timers payload).result = .error cause ∧ lastWord ≤ p.controlNumbers ∧
        Books p 0 (p.submittedControl directory timers payload) (p.submitControl directory timers payload).plane 0) ∨
      ∃ dispatch q, (p.submitControl directory timers payload).result = .ok dispatch ∧
        Undisturbed p { q with convergence := p.convergence } ∧ q.controlNumbers ≤ p.controlNumbers + 1 ∧
        Books q 1 (p.submittedControl directory timers payload) (p.submitControl directory timers payload).plane 0 := by
  have same := undisturbed_advance p timers.now
  rw [← controlNumbers_congr same.convergence, ← same.convergence]
  simp only [submitControl, submittedControl]
  generalize p.advance timers.now = a at same
  cases directory.serving? a.node with
  | none => exact Or.inr ⟨_, a, rfl, same, Nat.le_succ _, books_unrouted a 0⟩
  | some serving =>
    simp only
    cases numbered : a.number .control with
    | none =>
      refine Or.inl ⟨_, rfl, ?_, .still same⟩
      rw [number, Option.map_eq_none_iff, ConvergenceEntity.next?, issued_eq_controlNumbers] at numbered
      split at numbered
      · cases numbered
      · rename_i exhausted
        exact Nat.le_of_not_lt exhausted
    | some answer =>
      obtain ⟨sn, entity, q⟩ := answer
      obtain ⟨next, rfl⟩ := number_eq_some_iff.1 numbered
      refine Or.inr ⟨_, _, rfl, ?_, ?_,
        books_offer _ serving .infrastructure ⟨.control, sn, .transparent, _, [serving]⟩ 0⟩
      · exact same
      · obtain ⟨-, -, rfl⟩ := next?_eq_some next
        rw [controlNumbers, SortedMap.get?_insert_self, ← issued_eq_controlNumbers]
        exact Nat.le_refl _

theorem followed_control (p : DataPlane) (directory : Directory) (timers : Timers) (payload : Bytes) :
    Followed p ⟨directory, timers, .control payload⟩ := by
  rcases books_control p directory timers payload with
    ⟨cause, result, -, books⟩ | ⟨dispatch, q, result, same, numbered, books⟩
  · have unanswered : p.controlledAt ⟨directory, timers, .control payload⟩ = [] := by
      simp only [controlledAt, result]
    exact followed_of_books rfl unanswered books
  · have answered : p.controlledAt ⟨directory, timers, .control payload⟩ = [dispatch] := by
      simp only [controlledAt, result]
    refine followed_of_entry (q := q) 0 same.settings same.buffers same.traced_eq same.submitted ?_ (Nat.le_refl 0) ?_
      books
    · rw [answered]
      exact congrArg (· + 1) same.accounted_eq
    · rw [answered]
      exact fun _ => numbered

/-- Whatever happens at a node short of a departure, the books are kept. -/
theorem followed_react (p : DataPlane) {m : Moment} (stays : m.stimulus ≠ .departed)
    (present : ∀ peer, m.stimulus ≠ .peerDeparted peer) : Followed p m := by
  obtain ⟨directory, timers, stimulus⟩ := m
  cases stimulus with
  | packet packet hint => exact followed_packet p directory timers packet hint
  | control payload => exact followed_control p directory timers payload
  | opportunity limit =>
    have sent := books_transmit p timers.now limit 0
    exact followed_of_books rfl rfl (sent.trans (books_settle _ directory timers _ 0))
  | drainCheck peer =>
    exact followed_of_books rfl rfl ((books_advance p timers.now 0).trans
      (books_applyStep directory (SwitchStep.balanced_checkFired _ _ _ timers peer) 0))
  | pathSwitch peer path clear =>
    have started := (books_advance p timers.now 0).trans
      (books_applyStep directory (SwitchStep.balanced_start _ (p.advance timers.now).links _ timers peer path clear) 0)
    exact followed_of_books rfl rfl (started.undisturbed (inbound_replaceReceivers _ path clear _).undisturbed)
  | peerDeparted peer => exact absurd rfl (present peer)
  | departed => exact absurd rfl stays
  | arrival frame => exact followed_of_books rfl rfl (.still (inbound_deliver p frame).undisturbed)

/-- What is queued for a peer that departs is lost with its buffers, but every unit was counted before. -/
theorem entered_react (p : DataPlane) {m : Moment} (stays : m.stimulus ≠ .departed) : Entered p m := by
  by_cases present : ∀ peer, m.stimulus ≠ .peerDeparted peer
  · exact (followed_react p stays present).toEntered
  · obtain ⟨peer, leaves⟩ := not_forall.1 present
    obtain ⟨directory, timers, stimulus⟩ := m
    obtain rfl : stimulus = .peerDeparted peer := not_not.1 leaves
    exact ⟨rfl, Nat.le_refl _, fun _ => Nat.le_refl _⟩

/-! ## Runs -/

theorem units_run (p : DataPlane) {ms : List Moment} (stays : ∀ m ∈ ms, m.stimulus ≠ .departed) :
    (p.after ms).accounted + p.counters.submitted + (p.collect refusedAt ms).length =
        p.accounted + (p.after ms).counters.submitted + (p.collect controlledAt ms).length ∧
      p.counters.submitted + (p.collect refusedAt ms).length ≤ (p.after ms).counters.submitted := by
  induction ms generalizing p with
  | nil => exact ⟨rfl, Nat.le_refl _⟩
  | cons m rest ih =>
    have entered := entered_react p (stays m List.mem_cons_self)
    obtain ⟨units, refused⟩ := ih (p.react m).plane fun m' later => stays m' (List.mem_cons_of_mem m later)
    have units' := entered.units
    have refused' := entered.refused
    simp only [collect, after, List.length_append]
    constructor <;> omega

theorem pdus_run (p : DataPlane) (cuts : p.Cuts) {ms : List Moment} (stays : ∀ m ∈ ms, m.stimulus ≠ .departed)
    (present : ∀ m ∈ ms, ∀ peer, m.stimulus ≠ .peerDeparted peer) :
    (p.after ms).traced = p.traced + produced p.settings.link (p.admitted ms) := by
  induction ms generalizing p with
  | nil => rfl
  | cons m rest ih =>
    have followed := followed_react p (stays m List.mem_cons_self) (present m List.mem_cons_self)
    have later := ih (p.react m).plane (followed.cuts cuts) (fun m' later => stays m' (List.mem_cons_of_mem m later))
      fun m' later => present m' (List.mem_cons_of_mem m later)
    show ((p.react m).plane.after rest).traced = _
    rw [later, followed.pdus cuts, followed.settings, admitted, admitted, collect, produced_append, Nat.add_assoc]

/-- Control traffic is answered as long as there are numbers left. -/
theorem controlled_react (p : DataPlane) {m : Moment} (room : m.control?.isSome → p.controlNumbers < lastWord) :
    (p.controlledAt m).length = m.control?.toList.length := by
  obtain ⟨directory, timers, stimulus⟩ := m
  cases stimulus with
  | control payload =>
    rcases books_control p directory timers payload with ⟨-, -, exhausted, -⟩ | ⟨dispatch, -, result, -⟩
    · exact absurd (room rfl) (Nat.not_lt_of_le exhausted)
    · have answered : p.controlledAt ⟨directory, timers, .control payload⟩ = [dispatch] := by
        simp only [controlledAt, result]
      rw [answered]
      rfl
  | _ => rfl

theorem controls_run {node : NodeId} {settings : PlaneSettings} {hs : List Effect}
    (sound : Sound node settings hs ⟨p, []⟩) {ms : List Moment} (stays : ∀ m ∈ ms, m.stimulus ≠ .departed)
    (few : p.controlNumbers + (ms.filterMap Moment.control?).length ≤ lastWord) :
    (p.collect controlledAt ms).length = (ms.filterMap Moment.control?).length := by
  induction ms generalizing p hs with
  | nil => rfl
  | cons m rest ih =>
    have split : ((m :: rest).filterMap Moment.control?).length =
        m.control?.toList.length + (rest.filterMap Moment.control?).length := by
      rw [List.filterMap_cons]
      cases m.control? with
      | none => exact (Nat.zero_add _).symm
      | some payload => exact Nat.add_comm _ 1
    rw [split] at few ⊢
    have answered := controlled_react p (m := m) fun control => by
      rw [Option.length_toList, if_pos control] at few
      omega
    have numbers := (entered_react p (stays m List.mem_cons_self)).numbers sound.accounts.flows
    obtain ⟨effects, soundAfter⟩ := sound_react sound m
    have later := ih soundAfter (fun m' later => stays m' (List.mem_cons_of_mem m later)) (by omega)
    rw [collect, List.length_append, answered, later]

/-! ## The main result -/

theorem books_of_new {node : NodeId} {role : Role} {settings : PlaneSettings} (made : new node role settings = .ok p) :
    p.accounted = 0 ∧ p.traced = 0 ∧ p.counters.submitted = 0 ∧ p.controlNumbers = 0 := by
  obtain ⟨-, rfl⟩ := eq_of_new made
  exact ⟨rfl, rfl, rfl, rfl⟩

/-- Nothing vanishes uncounted, in any run of a node that does not depart itself. The packets that were not refused and
the control messages are the units that are queued, dropped, or waiting for switches. Unless a peer departs, the data
units of all units that buffers took are those that were sent, discarded by switches, or are still queued. No control
message is refused before the numbers of its connection are used up. -/
theorem nothing_vanishes {node : NodeId} {role : Role} {settings : PlaneSettings}
    (made : new node role settings = .ok p) {ms : List Moment} (stays : ∀ m ∈ ms, m.stimulus ≠ .departed) :
    let q := p.after ms
    let counters := q.summary.counters
    let refused := (p.collect refusedAt ms).length
    let controls := (p.collect controlledAt ms).length
    refused ≤ counters.submitted ∧
      counters.submitted - refused + controls =
        counters.queued + counters.routingDrops + counters.overflowDrops + q.switches.deferredTotal ∧
      ((ms.filterMap Moment.control?).length ≤ 4294967295 → controls = (ms.filterMap Moment.control?).length) ∧
      ((∀ m ∈ ms, ∀ peer, m.stimulus ≠ .peerDeparted peer) →
        produced settings.link (p.admitted ms) =
          counters.sent + q.summary.discardedBySwitch + TransmitBuffers.queuedTotal q.buffers) := by
  have sound := sound_new made
  obtain ⟨accounted_new, traced_new, submitted_new, numbers_new⟩ := books_of_new made
  obtain ⟨units, refused⟩ := units_run p stays
  rw [accounted_new, submitted_new] at units
  rw [submitted_new, Nat.zero_add] at refused
  refine ⟨refused, ?_, fun few => ?_, fun present => ?_⟩
  · simp only [summary]
    rw [accounted] at units
    omega
  · refine controls_run sound stays ?_
    rw [numbers_new, Nat.zero_add]
    exact few
  · have pdus := pdus_run p sound.served.cuts stays present
    rw [traced_new, Nat.zero_add, show p.settings = settings from sound.served.settings_eq] at pdus
    exact pdus.symm

/-- The first node sends the packet twice, and switches the path of the second node after the first frame. Then a packet
waits for the switch, and a control message finds no node to serve it. -/
def interruption : List Moment :=
  [.packet .hello "voice", .packet .hello "voice", .opportunity 1, .pathSwitch ⟨2⟩ .direct false,
    .packet .hello "voice", .control [0xab]].map Stimulus.inPair

theorem nothing_vanishes_at_interruption :
    new ⟨1⟩ .peerDirect .default = .ok (fresh 1) ∧ (∀ m ∈ interruption, m.stimulus ≠ .departed) ∧
      ((fresh 1).after interruption).summary = ⟨1, ⟨3, 2, 1, 1, 0, 1, 0, 0, 0, 0⟩, 0, 0⟩ ∧
      ((fresh 1).after interruption).switches.deferredTotal = 1 ∧
      TransmitBuffers.queuedTotal ((fresh 1).after interruption).buffers = 1 ∧
      let q := (fresh 1).after interruption
      let counters := q.summary.counters
      let refused := ((fresh 1).collect refusedAt interruption).length
      let controls := ((fresh 1).collect controlledAt interruption).length
      refused ≤ counters.submitted ∧
        counters.submitted - refused + controls =
          counters.queued + counters.routingDrops + counters.overflowDrops + q.switches.deferredTotal ∧
        ((interruption.filterMap Moment.control?).length ≤ 4294967295 →
          controls = (interruption.filterMap Moment.control?).length) ∧
        ((∀ m ∈ interruption, ∀ peer, m.stimulus ≠ .peerDeparted peer) →
          produced PlaneSettings.default.link ((fresh 1).admitted interruption) =
            counters.sent + q.summary.discardedBySwitch + TransmitBuffers.queuedTotal q.buffers) := by
  have stays : ∀ m ∈ interruption, m.stimulus ≠ .departed := by simp [interruption, Stimulus.inPair]
  exact ⟨new_fresh.1, stays, by decide +kernel, by decide +kernel, by decide +kernel,
    nothing_vanishes new_fresh.1 stays⟩

end DataPlane
end Sidelink
