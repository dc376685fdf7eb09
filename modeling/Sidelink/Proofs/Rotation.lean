import Sidelink.Proofs.Service

/-!
Which buffer is served first. The rotation counts the opportunities that found buffers (`rotation_opportunity`), and
nothing else moves it (`rotation_react`). The buffer that the rotation points to is served before all others, so it
sends whenever it has something to send (`sends_first`). As many opportunities in a row as there are buffers point to
each of them, so none of them waits for ever.
-/
namespace Sidelink

/-- How many frames an opportunity to transmit allows. -/
def Moment.limit? (m : Moment) : Option Nat :=
  match m.stimulus with
  | .opportunity limit => some limit
  | _ => none

theorem Moment.stimulus_of_limit? {m : Moment} {limit : Nat} (here : m.limit? = some limit) :
    m.stimulus = .opportunity limit := by
  unfold limit? at here
  split at here
  · rename_i limit' stimulus
    obtain rfl : limit' = limit := Option.some.inj here
    exact stimulus
  · cases here

namespace DataPlane
variable {p : DataPlane}

/-! ## What leaves the rotation alone -/

theorem Inbound.rotation {p q : DataPlane} (inbound : Inbound p q) : q.rotation = p.rotation := by
  obtain ⟨_, _, _, _, _, rfl⟩ := inbound
  rfl

theorem rotation_advance (p : DataPlane) (now : SimTime) : (p.advance now).rotation = p.rotation :=
  (p.advance_serve now).2.2

theorem rotation_offer (p : DataPlane) (hop : NodeId) (l : Lcid) (sn : UInt32) (mode : DeliveryMode) (path : Path)
    (sdu : Bytes) (recipients : List NodeId) : (p.offer hop l sn mode path sdu recipients).2.rotation = p.rotation := by
  simp only [offer]
  split <;> rfl

theorem rotation_flush (p : DataPlane) (peer : NodeId) (path : Path) (nextHop : Option NodeId) (d : DeferredSdu) :
    (p.flush peer path nextHop d).rotation = p.rotation := by
  cases nextHop with
  | none => rfl
  | some hop => exact rotation_offer _ hop d.lcid d.sn d.mode path d.sdu d.recipients

theorem rotation_flushAll (p : DataPlane) (peer : NodeId) (path : Path) (nextHop : Option NodeId)
    (waiting : List DeferredSdu) :
    (waiting.foldl (fun p d => p.flush peer path nextHop d) p).rotation = p.rotation := by
  induction waiting generalizing p with
  | nil => rfl
  | cons d rest ih => exact (ih _).trans (rotation_flush p peer path nextHop d)

theorem rotation_applyStep (p : DataPlane) (directory : Directory) (step : SwitchStep) :
    (p.applyStep directory step).1.rotation = p.rotation := by
  simp only [applyStep]
  cases step.completion with
  | none => rfl
  | some done => exact rotation_flushAll _ _ _ _ _

theorem rotation_reevaluate (p : DataPlane) (directory : Directory) (timers : Timers) (peer : NodeId) :
    (p.reevaluate directory timers peer).1.rotation = p.rotation :=
  rotation_applyStep p directory _

theorem rotation_settle (p : DataPlane) (directory : Directory) (timers : Timers) :
    (p.settle directory timers).1.rotation = p.rotation := by
  unfold settle
  generalize p.switches.switchingPeers = peers
  induction peers generalizing p timers with
  | nil => rfl
  | cons peer rest ih => exact (ih _ _).trans (rotation_reevaluate p directory timers peer)

theorem rotation_sendToPeer (p : DataPlane) (directory : Directory) (timers : Timers) (peer : NodeId)
    (d : DeferredSdu) : (p.sendToPeer directory timers peer d).2.1.rotation = p.rotation := by
  have looked := rotation_reevaluate p directory timers peer
  simp only [sendToPeer]
  generalize (p.reevaluate directory timers peer).1 = q at looked ⊢
  split
  · split <;> exact looked
  · split
    · exact looked
    · rename_i hop _
      exact (rotation_flush q peer _ (some hop) d).trans looked

theorem rotation_sendOn (p : DataPlane) (directory : Directory) (timers : Timers) (route : Route) (unit : DeferredSdu) :
    (p.sendOn directory timers route unit).2.1.rotation = p.rotation := by
  unfold sendOn
  cases route.peer with
  | some peer => exact rotation_sendToPeer p directory timers peer unit
  | none => exact rotation_offer p route.nextHop unit.lcid unit.sn unit.mode route.path unit.sdu unit.recipients

theorem rotation_submit (p : DataPlane) (directory : Directory) (timers : Timers) (packet : Packet) (hint : String) :
    (p.submit directory timers packet hint).plane.rotation = p.rotation := by
  have noted : (p.noted timers.now).rotation = p.rotation := rfl
  rcases submit_spec p directory timers packet hint with ⟨missing, -⟩ | ⟨q, route, unit, found, -, sent⟩
  · have rejected := rejection_of_unnumbered missing
    generalize p.submit directory timers packet hint = submission at rejected ⊢
    cases rejected <;> exact noted
  · obtain ⟨-, -, anew, flows, entity, -, -, -, -, rfl⟩ := numbered?_eq_some found
    rw [sent]
    exact (rotation_sendOn _ directory timers route unit).trans noted

theorem rotation_submitControl (p : DataPlane) (directory : Directory) (timers : Timers) (payload : Bytes) :
    (p.submitControl directory timers payload).plane.rotation = p.rotation := by
  have advanced := rotation_advance p timers.now
  simp only [submitControl]
  split
  · exact advanced
  · split
    · exact advanced
    · rename_i sn entity q numbered
      obtain ⟨-, rfl⟩ := number_eq_some_iff.1 numbered
      exact (rotation_offer _ _ _ _ _ _ _ _).trans advanced

/-- Only opportunities move the rotation. -/
theorem rotation_react (p : DataPlane) {m : Moment} (other : m.limit? = none) :
    (p.react m).plane.rotation = p.rotation := by
  unfold react
  cases stimulus : m.stimulus with
  | opportunity limit => simp [Moment.limit?, stimulus] at other
  | packet packet hint => exact rotation_submit p _ _ packet hint
  | control payload => exact rotation_submitControl p _ _ payload
  | drainCheck peer => exact (rotation_applyStep _ _ _).trans (rotation_advance p _)
  | pathSwitch peer path clear =>
    exact (inbound_replaceReceivers _ path clear _).rotation.trans
      ((rotation_applyStep _ _ _).trans (rotation_advance p _))
  | peerDeparted peer => rfl
  | departed => rfl
  | arrival frame => exact (inbound_deliver p frame).rotation

/-! ## Opportunities -/

/-- An opportunity moves the rotation on by one, if there is any buffer. -/
theorem rotation_opportunity (p : DataPlane) {m : Moment} {limit : Nat} (here : m.limit? = some limit)
    (some_buffer : p.buffers.keys ≠ []) :
    (p.react m).plane.rotation = (p.rotation + 1) % 18446744073709551616 := by
  obtain ⟨-, buffers, rotation⟩ := p.advance_serve m.timers.now
  have full : ¬ p.buffers.isEmpty = true := fun empty =>
    some_buffer (by simp [SortedMap.keys, List.isEmpty_iff.1 empty])
  have turned : (p.transmit m.timers.now limit).2.rotation = (p.rotation + 1) % 18446744073709551616 := by
    simp only [transmit, buffers, if_neg full]
    exact congrArg (fun n => (n + 1) % 18446744073709551616) rotation
  simp only [react, Moment.stimulus_of_limit? here]
  exact (rotation_settle _ _ _).trans turned

theorem serviceOrder_eq_cons {key : EntityKey}
    (points : p.buffers.keys[p.rotation % p.buffers.keys.length]? = some key) :
    ∃ rest, p.serviceOrder = key :: rest := by
  obtain ⟨within, rfl⟩ := List.getElem?_eq_some_iff.1 points
  exact ⟨_, by rw [serviceOrder, List.drop_eq_getElem_cons within, List.cons_append]⟩

/-- The buffer that the rotation points to sends, if it has something to send. -/
theorem sends_first {m : Moment} {limit : Nat} {key : EntityKey} (here : m.limit? = some limit) (allowed : 0 < limit)
    (points : p.buffers.keys[p.rotation % p.buffers.keys.length]? = some key) (waits : p.waiting key ≠ []) :
    ∃ frame ∈ (p.react m).sent, frame.key = key := by
  obtain ⟨rest, order⟩ := serviceOrder_eq_cons points
  cases found : p.buffers.get? key with
  | none => exact absurd (waiting_eq_nil found) waits
  | some b =>
    obtain ⟨pdu, later, queued⟩ : ∃ pdu later, b.queue = pdu :: later :=
      List.exists_cons_of_ne_nil fun empty => waits (by rw [waiting_of_get? found, empty, List.map_nil])
    obtain ⟨budget, rfl⟩ : ∃ budget, limit = budget + 1 := ⟨limit - 1, by omega⟩
    refine ⟨b.frame p.node key pdu, ?_, rfl⟩
    have sent : (p.react m).sent = (p.transmit m.timers.now (budget + 1)).1 := by
      simp only [react, Moment.stimulus_of_limit? here]
    rw [sent, (p.transmit_eq_serve m.timers.now (budget + 1)).1, order, serve, serveTurn_serve found queued]
    exact List.mem_append_left _ List.mem_cons_self

/-! ## Windows -/

/-- How many opportunities there are among some moments. -/
def opportunities (ms : List Moment) : Nat := ms.countP (·.limit?.isSome)

/-- Whether every opportunity of a run allows a frame, and finds buffers of the same keys, and data units in one of
them. -/
def KeepsWaiting (keys : List EntityKey) (key : EntityKey) (p : DataPlane) (ms : List Moment) : Prop :=
  ∀ before m later limit, ms = before ++ m :: later → m.limit? = some limit →
    0 < limit ∧ (p.after before).buffers.keys = keys ∧ (p.after before).waiting key ≠ []

theorem keepsWaiting_cons {keys : List EntityKey} {key : EntityKey} {m : Moment} {ms : List Moment} :
    p.KeepsWaiting keys key (m :: ms) ↔
      (∀ limit, m.limit? = some limit → 0 < limit ∧ p.buffers.keys = keys ∧ p.waiting key ≠ []) ∧
        (p.react m).plane.KeepsWaiting keys key ms := by
  constructor
  · intro keeps
    exact ⟨fun limit here => keeps [] m ms limit rfl here, fun before n later limit split here =>
      keeps (m :: before) n later limit (by rw [split, List.cons_append]) here⟩
  · rintro ⟨now, rest⟩ before n later limit split here
    cases before with
    | nil =>
      obtain ⟨rfl, rfl⟩ := List.cons.inj split
      exact now limit here
    | cons first before =>
      obtain ⟨rfl, rfl⟩ := List.cons.inj split
      exact rest before n later limit rfl here

theorem keepsWaiting_nil {keys : List EntityKey} {key : EntityKey} : p.KeepsWaiting keys key [] :=
  fun _ _ _ _ split => absurd split (by simp)

/-- A buffer sends at the opportunity at which the rotation comes to point to it. -/
theorem sends_when_due {keys : List EntityKey} {key : EntityKey} {ms : List Moment} {ahead : Nat}
    (keeps : p.KeepsWaiting keys key ms) (soon : ahead < opportunities ms)
    (due : keys[(p.rotation + ahead) % keys.length]? = some key)
    (unwrapped : p.rotation + ahead < 18446744073709551616) : ∃ frame ∈ p.sent ms, frame.key = key := by
  -- The rotation plus the opportunities ahead stay what they are, moment after moment.
  induction ms generalizing p ahead with
  | nil => exact absurd soon (Nat.not_lt_zero _)
  | cons m rest ih =>
    have later {ahead' : Nat} (soon : ahead' < opportunities rest)
        (same : (p.react m).plane.rotation + ahead' = p.rotation + ahead) :
        ∃ frame ∈ p.sent (m :: rest), frame.key = key := by
      obtain ⟨frame, member, leaves⟩ := ih (keepsWaiting_cons.1 keeps).2 soon (same.symm ▸ due) (same.symm ▸ unwrapped)
      exact ⟨frame, List.mem_append_right _ member, leaves⟩
    cases here : m.limit? with
    | none =>
      have counted : opportunities (m :: rest) = opportunities rest := by simp [opportunities, here]
      exact later (counted ▸ soon) (congrArg (· + ahead) (p.rotation_react here))
    | some limit =>
      obtain ⟨allowed, rfl, waits⟩ := (keepsWaiting_cons.1 keeps).1 limit here
      have counted : opportunities (m :: rest) = opportunities rest + 1 := by simp [opportunities, here]
      cases ahead with
      | zero =>
        obtain ⟨frame, member, leaves⟩ := sends_first here allowed due waits
        exact ⟨frame, List.mem_append_left _ member, leaves⟩
      | succ ahead =>
        have some_buffer : p.buffers.keys ≠ [] := fun none => by simp [none] at due
        have turned := p.rotation_opportunity here some_buffer
        rw [Nat.mod_eq_of_lt (by omega)] at turned
        have sooner : ahead < opportunities rest := by omega
        exact later sooner (by omega)

/-- In as many opportunities as there are buffers every buffer sends that has something to send at each of them,
whatever else happens in between, as long as buffers neither come nor go and the rotation does not start over. -/
theorem sends_in_window {keys : List EntityKey} {key : EntityKey} {ms : List Moment} (member : key ∈ keys)
    (window : opportunities ms = keys.length) (unwrapped : p.rotation + keys.length ≤ 18446744073709551616)
    (keeps : p.KeepsWaiting keys key ms) : ∃ frame ∈ p.sent ms, frame.key = key := by
  obtain ⟨place, within, rfl⟩ := List.getElem_of_mem member
  -- How far the rotation is from pointing to the buffer.
  let ahead := (place + (keys.length - p.rotation % keys.length)) % keys.length
  have soon : ahead < keys.length := Nat.mod_lt _ (by omega)
  have due : (p.rotation + ahead) % keys.length = place := by
    have rounds := Nat.div_add_mod p.rotation keys.length
    have part := Nat.mod_lt p.rotation (show keys.length > 0 by omega)
    have sum : p.rotation + (place + (keys.length - p.rotation % keys.length)) =
        place + keys.length * (p.rotation / keys.length + 1) := by
      rw [Nat.mul_add, Nat.mul_one]
      omega
    rw [Nat.add_mod_mod, sum, Nat.add_mul_mod_self_left, Nat.mod_eq_of_lt within]
  exact sends_when_due keeps (window ▸ soon) (by rw [due, List.getElem?_eq_getElem within]) (by omega)

/-- Two opportunities to send one frame, and a packet in between. -/
def twoChances : List Moment := [.opportunity 1, .packet .hello "voice", .opportunity 1].map Stimulus.inPair

theorem sends_in_window_crowded :
    crowded.buffers.keys = [⟨⟨2⟩, ⟨1⟩⟩, ⟨⟨2⟩, ⟨2⟩⟩] ∧ opportunities twoChances = 2 ∧ crowded.rotation = 0 ∧
      crowded.KeepsWaiting [⟨⟨2⟩, ⟨1⟩⟩, ⟨⟨2⟩, ⟨2⟩⟩] ⟨⟨2⟩, ⟨2⟩⟩ twoChances ∧
      ∃ frame ∈ crowded.sent twoChances, frame.key = ⟨⟨2⟩, ⟨2⟩⟩ := by
  have keeps : crowded.KeepsWaiting [⟨⟨2⟩, ⟨1⟩⟩, ⟨⟨2⟩, ⟨2⟩⟩] ⟨⟨2⟩, ⟨2⟩⟩ twoChances := by
    refine keepsWaiting_cons.2 ⟨?_, keepsWaiting_cons.2 ⟨?_, keepsWaiting_cons.2 ⟨?_, keepsWaiting_nil⟩⟩⟩
    · rintro limit ⟨⟩
      exact ⟨by decide, by decide +kernel, by decide +kernel⟩
    · rintro limit ⟨⟩
    · rintro limit ⟨⟩
      exact ⟨by decide, by decide +kernel, by decide +kernel⟩
  exact ⟨by decide +kernel, by decide +kernel, by decide +kernel, keeps,
    sends_in_window (by decide) (by decide +kernel) (by decide +kernel) keeps⟩

end DataPlane
end Sidelink
