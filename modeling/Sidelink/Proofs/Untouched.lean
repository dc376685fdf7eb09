import Sidelink.Plane.Events

/-!
What the operations of a data plane leave alone. Whatever comes in from other nodes changes the receivers, the
connections of other nodes and the counters of both, and nothing else (`DataPlane.Inbound`). Units on their way out and
switches of paths change none of that, and leave the flows and the numbering of a node as they are
(`DataPlane.Outbound`). What is untouched is stated once for each operation here, and read off wherever it is needed.
-/
namespace Sidelink

/-- A descriptor whatever path its packets take. -/
def Descriptor.pathless (d : Descriptor) : Descriptor := { d with path := .direct }

namespace FlowTable

def pathless (t : FlowTable) : SortedMap Lcid Descriptor := t.descriptors.mapEntries fun _ d => d.pathless

/-- The last number in each descriptor. -/
def lastSns (t : FlowTable) : SortedMap Lcid (Option UInt32) := t.descriptors.mapEntries fun _ d => d.lastSn

theorem lastSns_eq (t : FlowTable) : t.lastSns = t.pathless.mapEntries fun _ d => d.lastSn := by
  refine SortedMap.ext_get? fun l => ?_
  simp only [lastSns, pathless, SortedMap.get?_mapEntries, Option.map_map]
  rfl

theorem pathless_setPeerPath (t : FlowTable) (peer : NodeId) (path : Path) :
    (t.setPeerPath peer path).pathless = t.pathless := by
  refine SortedMap.ext_get? fun l => ?_
  simp only [pathless, setPeerPath, SortedMap.get?_mapEntries, Option.map_map]
  refine congrArg (fun f => (t.descriptors.get? l).map f) (funext fun d => ?_)
  simp only [Function.comp_apply]
  split <;> rfl

end FlowTable

namespace DataPlane
variable {p q r : DataPlane}

/-! ## Coming in -/

/-- Whether two data planes differ in nothing but what comes in from other nodes. -/
def Inbound (p q : DataPlane) : Prop :=
  ∃ receivers remote received delivered receiveErrors,
    q = { p with receivers, remote, counters := { p.counters with received, delivered, receiveErrors } }

theorem Inbound.refl (p : DataPlane) : Inbound p p := ⟨_, _, _, _, _, rfl⟩

theorem Inbound.trans (first : Inbound p q) (second : Inbound q r) : Inbound p r := by
  obtain ⟨_, _, _, _, _, rfl⟩ := first
  obtain ⟨_, _, _, _, _, rfl⟩ := second
  exact ⟨_, _, _, _, _, rfl⟩

theorem inbound_handUp (p : DataPlane) (key : EntityKey) (path : Path) (sdu : Bytes) :
    Inbound p (p.handUp key path sdu).2 := by
  unfold handUp
  split <;> exact ⟨_, _, _, _, _, rfl⟩

theorem inbound_handUpAll (p : DataPlane) (key : EntityKey) (path : Path) (sdus : List Bytes) :
    Inbound p (p.handUpAll key path sdus).2 := by
  induction sdus generalizing p with
  | nil => exact .refl p
  | cons sdu rest ih =>
    have both := (inbound_handUp p key path sdu).trans (ih _)
    simp only [handUpAll]
    cases (p.handUp key path sdu).1 <;> exact both

theorem inbound_replaceReceivers (p : DataPlane) (path : Path) (clear : Bool) (keys : List EntityKey) :
    Inbound p (p.replaceReceivers path clear keys).2 := by
  induction keys generalizing p with
  | nil => exact .refl p
  | cons key rest ih =>
    unfold replaceReceivers
    split
    · exact ih p
    · refine Inbound.trans ?_ ((inbound_handUpAll _ _ _ _).trans (ih _))
      exact ⟨_, _, _, _, _, rfl⟩

theorem inbound_deliver (p : DataPlane) (frame : Frame) : Inbound p (p.deliver frame).2 := by
  obtain ⟨bytes, origin, nextHop, recipients, lcid, mode, path⟩ := frame
  -- Acknowledged segments are taken in as unacknowledged ones are.
  have segment : Inbound p (p.deliver ⟨bytes, origin, nextHop, recipients, lcid, .unacknowledged, path⟩).2 := by
    simp only [deliver]
    split
    · exact ⟨_, _, _, _, _, rfl⟩
    · split
      · exact ⟨_, _, _, _, _, rfl⟩
      · exact Inbound.trans ⟨_, _, _, _, _, rfl⟩ (inbound_handUp _ _ _ _)
  cases mode with
  | transparent => exact Inbound.trans ⟨_, _, _, _, _, rfl⟩ (inbound_handUp _ _ _ _)
  | unacknowledged => exact segment
  | acknowledged => exact segment

/-! ## Going out -/

/-- What a node counted of all that came in from other nodes. -/
structure Incoming where
  /-- The drops of receivers that are gone. -/
  retired : Nat
  received : Nat
  delivered : Nat
  errors : Nat

def incoming (p : DataPlane) : Incoming :=
  ⟨p.retiredDrops, p.counters.received, p.counters.delivered, p.counters.receiveErrors⟩

/-- Whether two data planes are of one node, with the same flows, numbers and receivers, and have counted the same of
what came in. The paths of flows may differ. -/
structure Outbound (p q : DataPlane) : Prop where
  node : q.node = p.node
  settings : q.settings = p.settings
  lcids : q.flows.lcids = p.flows.lcids
  next : q.flows.next = p.flows.next
  pathless : q.flows.pathless = p.flows.pathless
  convergence : q.convergence = p.convergence
  receivers : q.receivers = p.receivers
  incoming : q.incoming = p.incoming

theorem Outbound.refl (p : DataPlane) : Outbound p p := ⟨rfl, rfl, rfl, rfl, rfl, rfl, rfl, rfl⟩

theorem Outbound.trans (first : Outbound p q) (second : Outbound q r) : Outbound p r where
  node := second.node.trans first.node
  settings := second.settings.trans first.settings
  lcids := second.lcids.trans first.lcids
  next := second.next.trans first.next
  pathless := second.pathless.trans first.pathless
  convergence := second.convergence.trans first.convergence
  receivers := second.receivers.trans first.receivers
  incoming := second.incoming.trans first.incoming

theorem Outbound.lastSns (outbound : Outbound p q) : q.flows.lastSns = p.flows.lastSns := by
  rw [FlowTable.lastSns_eq, outbound.pathless, ← FlowTable.lastSns_eq]

theorem outbound_advance (p : DataPlane) (now : SimTime) : Outbound p (p.advance now) := by
  unfold advance
  split
  · exact .refl p
  · exact ⟨rfl, rfl, rfl, rfl, rfl, rfl, rfl, rfl⟩

theorem outbound_offer (p : DataPlane) (hop : NodeId) (l : Lcid) (sn : UInt32) (mode : DeliveryMode) (path : Path)
    (sdu : Bytes) (recipients : List NodeId) : Outbound p (p.offer hop l sn mode path sdu recipients).2 := by
  simp only [offer]
  split <;> exact ⟨rfl, rfl, rfl, rfl, rfl, rfl, rfl, rfl⟩

theorem outbound_flush (p : DataPlane) (peer : NodeId) (path : Path) (nextHop : Option NodeId) (d : DeferredSdu) :
    Outbound p (p.flush peer path nextHop d) := by
  cases nextHop with
  | none => exact ⟨rfl, rfl, rfl, rfl, rfl, rfl, rfl, rfl⟩
  | some hop =>
    have joined : Outbound p { p with links := p.links.add peer ⟨hop, d.lcid⟩ } := ⟨rfl, rfl, rfl, rfl, rfl, rfl, rfl, rfl⟩
    exact joined.trans (outbound_offer _ hop d.lcid d.sn d.mode path d.sdu d.recipients)

theorem outbound_flushAll (p : DataPlane) (peer : NodeId) (path : Path) (nextHop : Option NodeId)
    (waiting : List DeferredSdu) : Outbound p (waiting.foldl (fun p d => p.flush peer path nextHop d) p) := by
  induction waiting generalizing p with
  | nil => exact .refl p
  | cons d rest ih => exact (outbound_flush p peer path nextHop d).trans (ih _)

theorem outbound_applyStep (p : DataPlane) (directory : Directory) (step : SwitchStep) :
    Outbound p (p.applyStep directory step).1 := by
  simp only [applyStep]
  cases step.completion with
  | none => exact ⟨rfl, rfl, rfl, rfl, rfl, rfl, rfl, rfl⟩
  | some done =>
    refine Outbound.trans ?_ (outbound_flushAll _ _ _ _ _)
    exact ⟨rfl, rfl, rfl, rfl, FlowTable.pathless_setPeerPath _ _ _, rfl, rfl, rfl⟩

theorem outbound_reevaluate (p : DataPlane) (directory : Directory) (timers : Timers) (peer : NodeId) :
    Outbound p (p.reevaluate directory timers peer).1 :=
  outbound_applyStep p directory _

theorem outbound_reevaluateAll (directory : Directory) (peers : List NodeId) (p : DataPlane) (timers : Timers) :
    Outbound p (peers.foldl (fun (p, timers) peer => p.reevaluate directory timers peer) (p, timers)).1 := by
  induction peers generalizing p timers with
  | nil => exact .refl p
  | cons peer rest ih => exact (outbound_reevaluate p directory timers peer).trans (ih _ _)

theorem outbound_settle (p : DataPlane) (directory : Directory) (timers : Timers) :
    Outbound p (p.settle directory timers).1 :=
  outbound_reevaluateAll directory _ p timers

theorem outbound_sendToPeer (p : DataPlane) (directory : Directory) (timers : Timers) (peer : NodeId)
    (d : DeferredSdu) : Outbound p (p.sendToPeer directory timers peer d).2.1 := by
  have looked := outbound_reevaluate p directory timers peer
  simp only [sendToPeer]
  generalize (p.reevaluate directory timers peer).1 = q at looked ⊢
  split
  · split <;> exact looked.trans ⟨rfl, rfl, rfl, rfl, rfl, rfl, rfl, rfl⟩
  · split
    · exact looked.trans ⟨rfl, rfl, rfl, rfl, rfl, rfl, rfl, rfl⟩
    · rename_i hop _
      exact looked.trans (outbound_flush q peer _ (some hop) d)

theorem outbound_transmit (p : DataPlane) (now : SimTime) (limit : Nat) : Outbound p (p.transmit now limit).2 := by
  have advanced := outbound_advance p now
  simp only [transmit]
  split
  · exact advanced
  · exact advanced.trans ⟨rfl, rfl, rfl, rfl, rfl, rfl, rfl, rfl⟩

/-- The steps of switches are taken once the clock was set. -/
theorem outbound_advance_applyStep (p : DataPlane) (now : SimTime) (directory : Directory) (step : SwitchStep) :
    Outbound p ((p.advance now).applyStep directory step).1 :=
  (outbound_advance p now).trans (outbound_applyStep _ directory step)

end DataPlane
end Sidelink
