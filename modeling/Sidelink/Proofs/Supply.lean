import Mathlib.Data.List.Nodup
import Sidelink.Proofs.FlowIdentity
import Sidelink.Proofs.Refusals

/-!
Whether what a node gives to packets lasts: the ids of connections, and the numbers of each connection. A node that
never leaves gives one id to each flow that it knows, so among packets of a few flows the ids never run out
(`FlowTable.Among`, `DataPlane.Supplied`). As long as there are ids, and numbers where a packet needs one, every packet
whose hint stands for a delivery mode is taken (`DataPlane.submit_ok`).
-/
namespace Sidelink

/-! ## Ids -/

namespace FlowTable
variable {t t' : FlowTable} {key : FlowKey} {l : Lcid} {allowed : List FlowKey}

/-- Whether a table gave one id to each flow that it knows, and knows flows of a list only. -/
structure Among (t : FlowTable) (allowed : List FlowKey) : Prop where
  counted : t.next = t.size + 1
  known : ∀ {key l}, t.lookup? key = some l → key ∈ allowed

theorem size_added (missing : t.lookup? key = none) : (t.added key).size = t.size + 1 := by
  have absent : ¬ t.lcids.contains key = true := by
    rw [Std.TreeMap.contains_eq_isSome_getElem?, ← Std.TreeMap.get?_eq_getElem?]
    exact Option.not_isSome_iff_eq_none.2 missing
  rw [size, added, Std.TreeMap.size_insert, if_neg absent]
  rfl

theorem Among.create (among : t.Among allowed) (own : key ∈ allowed) (created : t.create key = some (l, t')) :
    t'.Among allowed := by
  rcases create_cases created with ⟨-, rfl⟩ | ⟨missing, -, -, rfl⟩
  · exact among
  · refine ⟨?_, fun {key' l'} found => ?_⟩
    · rw [size_added missing, ← among.counted]
      rfl
    · rw [lookup?_added] at found
      split at found
      · rename_i same
        exact same ▸ own
      · exact among.known found

theorem among_bare : t.bare.Among allowed ↔ t.Among allowed :=
  ⟨fun among => ⟨among.counted, among.known⟩, fun among => ⟨among.counted, among.known⟩⟩

/-- No more ids are given than there are flows in the list. -/
theorem Among.next_le (among : t.Among allowed) : t.next ≤ allowed.length + 1 := by
  have known : t.lcids.keys ⊆ allowed := fun key member => by
    obtain ⟨l, found⟩ := Option.isSome_iff_exists.1 (Std.TreeMap.contains_eq_isSome_getElem?.symm.trans
      (Std.TreeMap.mem_keys.1 member))
    exact among.known (Std.TreeMap.get?_eq_getElem?.trans found)
  have few := Std.TreeMap.nodup_keys.length_le_of_subset known
  rw [Std.TreeMap.length_keys] at few
  rw [among.counted]
  exact Nat.succ_le_succ few

end FlowTable

theorem Connections.among_step {c c' : Connections} {settings : CompressionSettings} {allowed : List FlowKey}
    {answers : List (FlowKey × Lcid × Option UInt32)} (among : c.flows.Among allowed)
    (own : ∀ x ∈ answers, x.1 ∈ allowed) (step : c.Step settings answers c') : c'.flows.Among allowed := by
  cases step with
  | same | routeless | control => exact among
  | issue created numbered => exact among.create (own _ List.mem_cons_self) created

/-! ## Nodes that know few flows -/

namespace DataPlane
variable {node : NodeId} {role : Role} {settings : PlaneSettings} {p q : DataPlane} {directory : Directory}
  {timers : Timers} {packet : Packet} {hint : String} {packets : List Packet}

/-- Whether a node has its settings, its tables agree, and it gave ids to flows of certain packets only, one to each. -/
structure Supplied (settings : PlaneSettings) (directory : Directory) (packets : List Packet) (p : DataPlane) :
    Prop where
  settings : p.settings = settings
  consistent : p.connections.Consistent
  among : p.flows.Among (packets.map (p.flowKey directory))

/-- A node goes on like that through every step of its connections that answers such packets only. -/
theorem Supplied.step (supplied : p.Supplied settings directory packets) (same : q.settings = p.settings)
    (node : q.node = p.node) (role : q.role = p.role) {answers : List (FlowKey × Lcid × Option UInt32)}
    (own : ∀ x ∈ answers, x.1 ∈ packets.map (p.flowKey directory))
    (step : p.connections.Step p.settings.compression answers q.connections) :
    q.Supplied settings directory packets := by
  have flows : q.flowKey directory = p.flowKey directory := funext fun packet => flowKey_congr node role rfl
  have among := Connections.among_step (FlowTable.among_bare.2 supplied.among) own step
  exact ⟨same.trans supplied.settings, supplied.consistent.step step, flows ▸ FlowTable.among_bare.1 among⟩

/-- The only packet that is taken at a moment is the one that there is. -/
theorem packet_of_dispatched {m : Moment} {x : Packet × Dispatch} (member : x ∈ (p.react m).dispatched) :
    ∃ hint, m.stimulus = .packet x.1 hint := by
  obtain ⟨directory, timers, stimulus⟩ := m
  cases stimulus with
  | packet packet hint =>
    simp only [react, Submission.dispatched] at member
    split at member
    · exact ⟨hint, by rw [List.mem_singleton.1 member]⟩
    · cases member
  | _ => cases member

theorem supplied_react (supplied : p.Supplied settings directory packets) {m : Moment} (same : m.directory = directory)
    (stays : m.stimulus ≠ .departed) (offered : ∀ packet hint, m.stimulus = .packet packet hint → packet ∈ packets) :
    (p.react m).plane.Supplied settings directory packets := by
  obtain ⟨node, role, settings⟩ := fixed_react p m
  refine supplied.step settings node role (fun x member => ?_) (connections_react p stays)
  obtain ⟨y, dispatched, rfl⟩ := List.mem_map.1 member
  obtain ⟨hint, is⟩ := packet_of_dispatched dispatched
  exact same ▸ List.mem_map_of_mem (offered _ _ is)

theorem supplied_deliver (supplied : p.Supplied settings directory packets) (now : SimTime) (frame : Frame) :
    ((p.advance now).deliver frame).2.Supplied settings directory packets := by
  have alike := (alike_advance p now).trans (inbound_deliver (p.advance now) frame).alike
  have same : ((p.advance now).deliver frame).2.connections = p.connections :=
    (inbound_deliver (p.advance now) frame).connections.trans (outbound_advance p now).connections
  refine supplied.step alike.settings alike.node alike.role (fun x member => absurd member List.not_mem_nil) ?_
  rw [same]
  exact .same

/-! ## Packets that are taken -/

/-- The number that a packet would be given, if it has a route. -/
def numberDue? (p : DataPlane) (directory : Directory) (packet : Packet) : Option Nat :=
  match (p.view directory).route p.role packet with
  | .ok _ => some (p.connections.issued (p.flowKey directory packet))
  | .error _ => none

/-- A packet that has a route and a connection, but no number, finds that all numbers were given. -/
theorem next?_of_unnumbered {mode : DeliveryMode} {route : Route} {l : Lcid} {anew : Bool} {flows : FlowTable}
    (known : DeliveryMode.ofCode? (p.hintCode hint).toNat = some mode)
    (routed : (p.view directory).route p.role packet = .ok route)
    (created : p.flows.lookupOrCreate (p.flowKey directory packet) = some (l, anew, flows))
    (missing : p.numbered? directory timers packet hint = none) :
    ((p.convergence.get? l).getD (.new l p.settings.compression)).next? = none := by
  have known' : DeliveryMode.ofCode? ((p.noted timers.now).settings.profiles.classify hint).modeCode.toNat =
      some mode := known
  have routed' : ((p.noted timers.now).view directory).route (p.noted timers.now).role packet = .ok route := routed
  have created' : (p.noted timers.now).flows.lookupOrCreate (.ofEndpoints packet.endpoints
      (((p.noted timers.now).view directory).direction (p.noted timers.now).role packet)) = some (l, anew, flows) :=
    created
  simp only [numbered?, noted_eq, known', routed', created'] at missing
  split at missing
  · rename_i unnumbered
    exact Option.map_eq_none_iff.1 unnumbered
  · cases missing

/-- A packet is taken if its hint stands for a delivery mode, and there are an id and a number for it. -/
theorem submit_ok (timers : Timers) (consistent : p.connections.Consistent) (mode : (p.hintCode hint).toNat ≤ 2)
    (ids : p.flows.next < 65535) (numbers : ∀ n ∈ p.numberDue? directory packet, n < 4294967295) :
    ∃ dispatch, (p.submit directory timers packet hint).result = .ok dispatch := by
  have decoded := mt (DeliveryMode.ofCode?_eq_none_iff (p.hintCode hint).toNat).1 (Nat.not_lt.2 mode)
  rcases submit_spec p directory timers packet hint with ⟨missing, -⟩ | ⟨q, route, unit, -, -, sent⟩
  · have rejection := rejection_of_unnumbered missing
    generalize p.submit directory timers packet hint = submission at rejection ⊢
    cases rejection with
    | unknownMode unknown => exact absurd unknown decoded
    | routeless known unrouted => exact ⟨_, rfl⟩
    | exhausted known routed full =>
      exact absurd (FlowTable.lookupOrCreate_eq_none_iff.1 full).2 (Nat.not_le.2 ids)
    | @numberless _ _ given known routed opened =>
      -- the connection gave as many numbers as the flow got, and these are not all
      obtain ⟨l, anew, flows⟩ := given
      have spent := next?_of_unnumbered known routed opened missing
      have created : p.flows.create (p.flowKey directory packet) = some (l, flows) := by
        rw [FlowTable.create, flowKey, opened]
        rfl
      have count := Connections.issued_of_create p.settings.compression consistent (FlowTable.create_bare created).1
      have due := numbers (p.connections.issued (p.flowKey directory packet)) (by rw [numberDue?, routed]; rfl)
      rw [ConvergenceEntity.next?, if_pos (count ▸ due)] at spent
      cases spent
  · rw [sent]
    exact ⟨_, rfl⟩

end DataPlane
end Sidelink
