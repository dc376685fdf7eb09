import Mathlib.Data.List.Induction
import Sidelink.Proofs.Connections
import Sidelink.Proofs.Origins

/-!
What the descriptors of connections tell. A descriptor is written for the first packet of its connection that is given a
number. Later packets change the path and the last number in it, and so do switches that end with the path, where the
descriptor names their peer (`DataPlane.Reroutes`); whatever else it tells is of the first packet as long as the node
stays (`DataPlane.founded_after`).
-/
namespace Sidelink

/-! ## Paths after switches -/

/-- The path to a peer after some switches ended. -/
def pathAfter (peer : NodeId) (path : Path) (es : List SwitchCompletion) : Path :=
  es.foldl (fun path done => if done.peer = peer then done.path else path) path

section
variable {peer : NodeId} {path : Path} {es : List SwitchCompletion}

theorem pathAfter_append (fs : List SwitchCompletion) :
    pathAfter peer path (es ++ fs) = pathAfter peer (pathAfter peer path es) fs :=
  List.foldl_append

theorem pathAfter_of_absent (absent : ∀ done ∈ es, done.peer ≠ peer) : pathAfter peer path es = path := by
  induction es generalizing path with
  | nil => rfl
  | cons done rest ih =>
    rw [pathAfter, List.foldl_cons, if_neg (absent done List.mem_cons_self)]
    exact ih fun other member => absent other (List.mem_cons_of_mem _ member)

/-- The path is that of the only switch of the peer that ended. -/
theorem pathAfter_of_mem (apart : (es.map (·.peer)).Nodup) {done : SwitchCompletion} (member : done ∈ es) :
    pathAfter done.peer path es = done.path := by
  obtain ⟨before, after, rfl⟩ := List.append_of_mem member
  have others : ∀ other ∈ after, other.peer ≠ done.peer := fun other there same => by
    rw [List.map_append, List.map_cons] at apart
    have single := (List.nodup_cons.1 (List.nodup_append.1 apart).2.1).1
    exact single (List.mem_map.2 ⟨other, there, same⟩)
  rw [pathAfter_append, pathAfter, List.foldl_cons, if_pos rfl]
  exact pathAfter_of_absent others

end

namespace Descriptor

/-- A descriptor apart from what packets and switches change in it. -/
def lasting (d : Descriptor) : Descriptor := { d with path := .direct, lastSn := none }

/-- A descriptor after some switches ended. -/
def rerouted (d : Descriptor) (es : List SwitchCompletion) : Descriptor :=
  { d with path := d.rxPeer.elim d.path fun peer => pathAfter peer d.path es }

theorem rerouted_nil (d : Descriptor) : d.rerouted [] = d := by
  have same : d.rxPeer.elim d.path (fun peer => pathAfter peer d.path []) = d.path := by cases d.rxPeer <;> rfl
  rw [rerouted, same]

theorem rerouted_append (d : Descriptor) (es fs : List SwitchCompletion) :
    d.rerouted (es ++ fs) = (d.rerouted es).rerouted fs := by
  simp only [rerouted]
  cases d.rxPeer with
  | none => rfl
  | some peer => simp only [Option.elim_some, pathAfter_append]

end Descriptor

theorem FlowTable.descriptor?_setPeerPath (t : FlowTable) (done : SwitchCompletion) (l : Lcid) :
    (t.setPeerPath done.peer done.path).descriptor? l = (t.descriptor? l).map (·.rerouted [done]) := by
  simp only [descriptor?, setPeerPath, SortedMap.get?_mapEntries]
  refine congrArg (fun f => (t.descriptors.get? l).map f) (funext fun d => ?_)
  have path : (d.rxPeer.elim d.path fun peer => pathAfter peer d.path [done]) =
      if d.rxPeer = some done.peer then done.path else d.path := by
    cases d.rxPeer with
    | none => rfl
    | some peer => simp only [Option.elim_some, pathAfter, List.foldl_cons, List.foldl_nil, Option.some.injEq, eq_comm]
  rw [Descriptor.rerouted, path]
  split <;> rfl

namespace PathSwitches
variable {s : PathSwitches}

/-- Whether a step of the switch of a peer leaves the paths of peers alone until it ends the switch. -/
structure Moves (s : PathSwitches) (peer : NodeId) (step : SwitchStep) : Prop where
  own : ∀ done ∈ step.completion, done.peer = peer
  current : ∀ other, step.switches.currentPath other = pathAfter other (s.currentPath other) step.completion.toList

/-- What starts from the same paths does the same to them. -/
theorem Moves.of_paths {t : PathSwitches} {step : SwitchStep} {peer : NodeId} (moves : t.Moves peer step)
    (paths : t.paths = s.paths) : s.Moves peer step where
  own := moves.own
  current := fun other => by
    rw [moves.current, currentPath, paths]
    rfl

variable (links : PeerLinks) (buffers : TransmitBuffers) (timers : Timers) (peer : NodeId)

theorem Moves.still {step : SwitchStep} (paths : step.switches.paths = s.paths) (goes : step.completion = none) :
    s.Moves peer step where
  own := fun done ended => by
    rw [goes] at ended
    cases ended
  current := fun other => by
    rw [goes, currentPath, paths]
    rfl

theorem Moves.complete (path : Path) : s.Moves peer (s.complete links buffers timers peer path) where
  own := fun done ended => by
    cases ended
    rfl
  current := fun other => by
    simp only [PathSwitches.complete, currentPath, Option.toList_some, pathAfter, List.foldl_cons, List.foldl_nil]
    split
    · rename_i same
      rw [same, SortedMap.get?_insert_self]
      rfl
    · rename_i different
      rw [SortedMap.get?_insert_of_ne _ (Ne.symm different)]

theorem moves_reevaluate (s : PathSwitches) : s.Moves peer (s.reevaluate links buffers timers peer) := by
  have looked := looked_reevaluate s links buffers timers peer
  generalize s.reevaluate links buffers timers peer = step at looked
  cases looked with
  | calm still => exact .still peer rfl rfl
  | waits switching draining => exact .still peer rfl rfl
  | asks switching draining => exact .still peer rfl rfl
  | ends switching drained => exact .complete links buffers _ peer _

theorem moves_checkFired (s : PathSwitches) : s.Moves peer (s.checkFired links buffers timers peer) := by
  rcases s.checkFired_eq links buffers timers peer with ⟨-, same⟩ | ⟨target, check, -, looks⟩
  · rw [same]
    exact .still peer rfl rfl
  · rw [looks]
    exact (moves_reevaluate links buffers timers peer (s.setPhase peer (.switching target none))).of_paths rfl

theorem moves_start (s : PathSwitches) (path : Path) (clear : Bool) :
    s.Moves peer (s.start links buffers timers peer path clear) := by
  rw [start_eq]
  cases clear with
  | true =>
    simp only [if_true]
    exact (Moves.complete links _ _ peer path).of_paths rfl
  | false => exact (moves_reevaluate links _ _ peer (s.begun peer path)).of_paths rfl

end PathSwitches

/-! ## Descriptors while switches end -/

namespace DataPlane
variable {p q r : DataPlane} {directory : Directory} {timers : Timers} {es fs : List SwitchCompletion}

/-- Whether nothing but switches that ended, in order, changed the flows and the paths of peers. -/
structure Reroutes (p : DataPlane) (es : List SwitchCompletion) (q : DataPlane) : Prop where
  lcids : q.flows.lcids = p.flows.lcids
  current : ∀ peer, q.switches.currentPath peer = pathAfter peer (p.switches.currentPath peer) es
  descriptor : ∀ l, q.flows.descriptor? l = (p.flows.descriptor? l).map (·.rerouted es)

namespace Reroutes

theorem of_same (flows : q.flows = p.flows) (paths : q.switches.paths = p.switches.paths) : Reroutes p [] q where
  lcids := by rw [flows]
  current := fun peer => by
    rw [PathSwitches.currentPath, paths]
    rfl
  descriptor := fun l => by simp only [flows, Descriptor.rerouted_nil, Option.map_id']

theorem refl (p : DataPlane) : Reroutes p [] p := of_same rfl rfl

theorem trans (first : Reroutes p es q) (second : Reroutes q fs r) : Reroutes p (es ++ fs) r where
  lcids := second.lcids.trans first.lcids
  current := fun peer => by rw [second.current, first.current, pathAfter_append]
  descriptor := fun l => by
    simp only [second.descriptor, first.descriptor, Option.map_map, Descriptor.rerouted_append]
    rfl

theorem andThen (first : Reroutes p es q) (second : Reroutes q [] r) : Reroutes p es r := by
  simpa using first.trans second

end Reroutes

theorem Inbound.reroutes (inbound : Inbound p q) : Reroutes p [] q := by
  obtain ⟨_, _, _, _, _, rfl⟩ := inbound
  exact .of_same rfl rfl

theorem flows_advance (p : DataPlane) (now : SimTime) : (p.advance now).flows = p.flows := by
  unfold advance
  split <;> rfl

theorem flows_offer (p : DataPlane) (hop : NodeId) (path : Path) (d : DeferredSdu) :
    (p.offer hop d.lcid d.sn d.mode path d.sdu d.recipients).2.flows = p.flows := by
  simp only [offer]
  split <;> rfl

theorem flows_flushAll (p : DataPlane) (peer : NodeId) (path : Path) (nextHop : Option NodeId)
    (waiting : List DeferredSdu) : (waiting.foldl (fun p d => p.flush peer path nextHop d) p).flows = p.flows := by
  induction waiting generalizing p with
  | nil => rfl
  | cons d rest ih =>
    refine (ih _).trans ?_
    cases nextHop with
    | none => rfl
    | some hop => exact flows_offer { p with links := p.links.add peer ⟨hop, d.lcid⟩ } hop path d

theorem flows_transmit (p : DataPlane) (now : SimTime) (limit : Nat) : (p.transmit now limit).2.flows = p.flows := by
  simp only [transmit]
  split
  · exact flows_advance p now
  · exact flows_advance p now

theorem flows_submitControl (p : DataPlane) (directory : Directory) (timers : Timers) (payload : Bytes) :
    (p.submitControl directory timers payload).plane.flows = p.flows := by
  simp only [submitControl]
  split
  · exact flows_advance p timers.now
  · split
    · exact flows_advance p timers.now
    · rename_i sn entity q numbered
      obtain ⟨-, rfl⟩ := number_eq_some_iff.1 numbered
      exact (flows_offer _ _ _ ⟨_, _, _, _, _⟩).trans (flows_advance p timers.now)

theorem reroutes_applyStep {peer : NodeId} {step : SwitchStep} (moves : p.switches.Moves peer step) :
    Reroutes p ((p.ended directory step).map Ending.done) (p.applyStep directory step).1 := by
  rw [done_ended]
  have current (other : NodeId) : (p.applyStep directory step).1.switches.currentPath other =
      pathAfter other (p.switches.currentPath other) step.completion.toList := by
    rw [switches_applyStep]
    exact moves.current other
  unfold applyStep at current ⊢
  cases completion : step.completion with
  | none =>
    rw [completion] at current
    exact ⟨rfl, current, (Reroutes.refl p).descriptor⟩
  | some done =>
    rw [completion] at current
    refine ⟨?_, current, fun l => ?_⟩
    · simp only [applyCompletion, flows_flushAll]
      rfl
    · simp only [applyCompletion, flows_flushAll]
      exact FlowTable.descriptor?_setPeerPath _ done l

theorem reroutes_endingsOf (p : DataPlane) (directory : Directory) (timers : Timers) (peers : List NodeId) :
    Reroutes p ((p.endingsOf directory timers peers).map Ending.done)
      (peers.foldl (fun (p, timers) peer => p.reevaluate directory timers peer) (p, timers)).1 := by
  induction peers generalizing p timers with
  | nil => exact .refl p
  | cons peer rest ih =>
    simp only [endingsOf, List.map_append, List.foldl_cons]
    exact (reroutes_applyStep (PathSwitches.moves_reevaluate _ _ _ _ _)).trans (ih _ _)

theorem reroutes_sendOn (p : DataPlane) (directory : Directory) (timers : Timers) (route : Route) (unit : DeferredSdu) :
    Reroutes p ((p.endingsOf directory timers route.peer.toList).map Ending.done)
      (p.sendOn directory timers route unit).2.1 := by
  unfold sendOn
  cases route.peer with
  | none => exact .of_same (flows_offer p _ _ unit) (congrArg _ (switches_offer p _ _ unit))
  | some peer =>
    have looked := reroutes_endingsOf p directory timers [peer]
    simp only [List.foldl_cons, List.foldl_nil] at looked
    simp only [Option.toList_some, sendToPeer]
    generalize (p.reevaluate directory timers peer).1 = q at looked ⊢
    have deferred : (q.switches.defer peer unit).2.paths = q.switches.paths := by
      unfold PathSwitches.defer
      split
      · rfl
      · split <;> rfl
    split
    · split <;> exact looked.andThen (.of_same rfl deferred)
    · split
      · exact looked.andThen (.of_same rfl rfl)
      · rename_i hop _
        let linked : DataPlane := { q with links := q.links.add peer ⟨hop, unit.lcid⟩ }
        exact looked.andThen (.of_same (flows_offer linked hop _ unit)
          (congrArg PathSwitches.paths (switches_offer linked hop (q.switches.currentPath peer) unit)))

/-! ## Descriptors of packets -/

/-- The node once the packet of a moment was given its number, if it was given one. -/
def entered (p : DataPlane) (m : Moment) : DataPlane :=
  match m.stimulus with
  | .packet packet hint =>
    match p.numbered? m.directory m.timers packet hint with
    | some (q, _, _) => q
    | none => p
  | _ => p

/-- The descriptor that the first packet of a connection makes. -/
def founding (p : DataPlane) (n : Numbering) (direction : Direction) : Descriptor :=
  p.describe n.unit.lcid (p.settings.profiles.classify n.hint) direction n.route

/-- What a packet that is given a number leaves in the tables: the connection of its flow, an old or a new one, and a
descriptor of that connection with its path and its number. -/
structure Registers (p : DataPlane) (directory : Directory) (n : Numbering) (q : DataPlane) : Prop where
  node : q.node = p.node
  role : q.role = p.role
  switches : q.switches = p.switches
  routed : (p.view directory).route p.role n.packet = .ok n.route
  created : ∃ flows, p.flows.create (p.flowKey directory n.packet) = some (n.unit.lcid, flows) ∧
    q.flows.lcids = flows.lcids
  described : ∀ l, q.flows.descriptor? l =
    if l = n.unit.lcid then
      some { (p.flows.descriptor? l).getD (p.founding n ((p.view directory).direction p.role n.packet)) with
        path := n.route.path
        lastSn := some n.unit.sn }
    else p.flows.descriptor? l

end DataPlane

/-- A connection that is described anew where it is not described yet keeps the descriptor that it has, if it has one,
but for the path and the last number. -/
theorem FlowTable.descriptor?_numbered {t : FlowTable} (anew : Bool) (d : Descriptor) (path : Path) (sn : UInt32)
    (fresh : anew = true → t.descriptors.contains d.lcid = false) (l : Lcid) :
    ((if anew || !t.descriptors.contains d.lcid then t.setDescriptor d else t).modifyDescriptor d.lcid
        fun d => { d with path, lastSn := some sn }).descriptor? l =
      if l = d.lcid then some { (t.descriptor? l).getD d with path, lastSn := some sn } else t.descriptor? l := by
  simp only [descriptor?, modifyDescriptor, SortedMap.get?_modify]
  by_cases same : l = d.lcid
  · subst same
    cases known : t.descriptors.get? d.lcid with
    | none =>
      have missing : t.descriptors.contains d.lcid = false := by rw [SortedMap.contains, known]; rfl
      simp [missing, setDescriptor]
    | some d' =>
      have there : t.descriptors.contains d.lcid = true := by rw [SortedMap.contains, known]; rfl
      have old : anew = false := by
        cases anew with
        | false => rfl
        | true => exact absurd (fresh rfl) (by simp [there])
      simp [there, old, known]
  · rw [if_neg fun ranks => same (Ranked.rank_inj ranks), if_neg same]
    split
    · simp only [setDescriptor, SortedMap.get?_insert_of_ne _ same]
    · rfl

namespace DataPlane
variable {p q : DataPlane} {directory : Directory} {timers : Timers}

theorem opened_iff_described (consistent : p.connections.Consistent) (l : Lcid) :
    p.flows.Opened l ↔ ∃ d, p.flows.descriptor? l = some d := by
  have described : p.flows.Opened l ↔ p.connections.lastSns.contains l = true := (consistent.described l).symm
  rw [described, SortedMap.contains_eq_true_iff]
  simp only [connections, FlowTable.lastSns, SortedMap.get?_mapEntries, Option.map_eq_some_iff]
  constructor
  · rintro ⟨sn, d, found, -⟩
    exact ⟨d, found⟩
  · rintro ⟨d, found⟩
    exact ⟨d.lastSn, d, found, rfl⟩

/-- A flow that is given a new connection has one that is not described yet. -/
theorem undescribed_of_lookupOrCreate (consistent : p.connections.Consistent) {key : FlowKey} {l : Lcid} {anew : Bool}
    {flows : FlowTable} (created : p.flows.lookupOrCreate key = some (l, anew, flows)) :
    flows.descriptors = p.flows.descriptors ∧ (anew = true → flows.descriptors.contains l = false) := by
  unfold FlowTable.lookupOrCreate at created
  split at created
  · cases created
    exact ⟨rfl, fun new => by cases new⟩
  · split at created
    · cases created
      refine ⟨rfl, fun _ => Bool.eq_false_iff.2 fun there => ?_⟩
      obtain ⟨key', found⟩ := (opened_iff_described consistent _).2 ((SortedMap.contains_eq_true_iff _ _).1 there)
      have below := (consistent.valid.given found).2
      rw [show p.flows.next = p.connections.flows.next from rfl, FlowTable.rank_fresh consistent.valid] at below
      exact Nat.lt_irrefl _ below
    · cases created

theorem registers_of_numbered? (consistent : p.connections.Consistent) {packet : Packet} {hint : String}
    {route : Route} {unit : DeferredSdu} (found : p.numbered? directory timers packet hint = some (q, route, unit)) :
    p.Registers directory ⟨packet, hint, route, unit⟩ q := by
  obtain ⟨-, routed, anew, flows, entity, created, -, -, -, rfl⟩ := numbered?_eq_some found
  obtain ⟨descriptors, fresh⟩ := undescribed_of_lookupOrCreate consistent created
  have opened : p.flows.create (p.flowKey directory packet) = some (unit.lcid, flows) := by
    rw [FlowTable.create, flowKey, created]
    rfl
  refine ⟨rfl, rfl, rfl, routed, ⟨flows, opened, ?_⟩, fun l => ?_⟩
  · simp only [FlowTable.modifyDescriptor]
    split <;> rfl
  · have same : p.flows.descriptor? l = flows.descriptor? l := by
      rw [FlowTable.descriptor?, FlowTable.descriptor?, descriptors]
    rw [same]
    exact FlowTable.descriptor?_numbered anew (p.describe unit.lcid _ _ route) route.path unit.sn fresh l

/-- A packet that is not given a number leaves the flows as they are. -/
theorem flows_of_unnumbered {packet : Packet} {hint : String}
    (missing : p.numbered? directory timers packet hint = none) :
    (p.submit directory timers packet hint).plane.flows = p.flows := by
  have rejection := rejection_of_unnumbered missing
  generalize p.submit directory timers packet hint = submission at rejection ⊢
  cases rejection <;> rfl

/-- A packet is given a number at a moment, or nothing is left in the tables by then. -/
theorem entered_spec (consistent : p.connections.Consistent) (m : Moment) :
    (p.numberingsAt m = [] ∧ p.entered m = p) ∨
      ∃ n, p.numberingsAt m = [n] ∧ p.Registers m.directory n (p.entered m) := by
  obtain ⟨directory, timers, stimulus⟩ := m
  cases stimulus with
  | packet packet hint =>
    simp only [numberingsAt, entered]
    cases found : p.numbered? directory timers packet hint with
    | none => exact Or.inl ⟨rfl, rfl⟩
    | some answer =>
      obtain ⟨q, route, unit⟩ := answer
      exact Or.inr ⟨_, rfl, registers_of_numbered? consistent found⟩
  | control | opportunity | drainCheck | pathSwitch | peerDeparted | departed | arrival => exact Or.inl ⟨rfl, rfl⟩

/-- Once a packet has its number, only switches that end change flows and paths at a moment. -/
theorem reroutes_react (p : DataPlane) {m : Moment} (stays : m.stimulus ≠ .departed) :
    Reroutes (p.entered m) ((p.endingsAt m).map Ending.done) (p.react m).plane := by
  obtain ⟨directory, timers, stimulus⟩ := m
  have advanced : Reroutes p [] (p.advance timers.now) :=
    .of_same (flows_advance p _) (congrArg _ (switches_advance p _))
  cases stimulus with
  | packet packet hint =>
    simp only [entered, react, endingsAt]
    rcases submit_spec p directory timers packet hint with ⟨missing, unnumbered⟩ | ⟨q, route, unit, found, -, sent⟩
    · rw [missing]
      exact .of_same (flows_of_unnumbered missing) (congrArg _ unnumbered.switches)
    · rw [found, sent]
      exact reroutes_sendOn q directory timers route unit
  | control payload =>
    exact .of_same (flows_submitControl p directory timers payload)
      (congrArg _ (switches_submitControl p directory timers payload).1)
  | opportunity limit =>
    have transmitted : Reroutes p [] (p.transmit timers.now limit).2 :=
      .of_same (flows_transmit p timers.now limit) (congrArg _ (switches_transmit p timers.now limit))
    exact transmitted.trans (reroutes_endingsOf _ directory timers _)
  | drainCheck peer => exact advanced.trans (reroutes_applyStep (PathSwitches.moves_checkFired _ _ _ _ _))
  | pathSwitch peer path clear =>
    exact (advanced.trans (reroutes_applyStep (PathSwitches.moves_start _ _ _ _ _ _ _))).andThen
      (inbound_replaceReceivers _ _ _ _).reroutes
  | peerDeparted peer => exact .of_same rfl rfl
  | departed => exact absurd rfl stays
  | arrival frame => exact (inbound_deliver p frame).reroutes

end DataPlane

/-! ## The packet that a descriptor is made for -/

namespace Numbering
variable {ns : List Numbering} {l : Lcid} {n : Numbering}

/-- The first packet of a connection. -/
def first? (ns : List Numbering) (l : Lcid) : Option Numbering := ns.find? (·.unit.lcid = l)

theorem of_first? (found : first? ns l = some n) : n ∈ ns ∧ n.unit.lcid = l := by
  have own := List.find?_some found
  exact ⟨List.mem_of_find?_eq_some found, of_decide_eq_true own⟩

theorem exists_first? (member : n ∈ ns) : ∃ first, first? ns n.unit.lcid = some first :=
  Option.isSome_iff_exists.1 (List.find?_isSome.2 ⟨n, member, decide_eq_true rfl⟩)

theorem first?_append (ns more : List Numbering) (l : Lcid) : first? (ns ++ more) l = (first? ns l).or (first? more l) :=
  List.find?_append

end Numbering

namespace DataPlane
variable {p : DataPlane}

/-- A packet leaves what lasts of a descriptor as it is, or makes the descriptor of a new connection. -/
theorem lasting_entered (consistent : p.connections.Consistent) (m : Moment) (l : Lcid) :
    ((p.entered m).flows.descriptor? l).map Descriptor.lasting =
      ((p.flows.descriptor? l).or ((Numbering.first? (p.numberingsAt m) l).map fun n =>
        p.founding n ((p.view m.directory).direction p.role n.packet))).map Descriptor.lasting := by
  rcases entered_spec consistent m with ⟨none_given, same⟩ | ⟨n, given, registers⟩
  · rw [none_given, same]
    exact congrArg _ Option.or_none.symm
  · rw [given, registers.described]
    by_cases own : l = n.unit.lcid
    · subst own
      simp only [Numbering.first?, List.find?_singleton, decide_true, if_true, Option.map_some]
      cases p.flows.descriptor? n.unit.lcid <;> rfl
    · simp [own, Ne.symm own, Numbering.first?]

/-- A connection that is described keeps its descriptor when a packet comes, apart from the path and the last number. -/
theorem kept_entered (consistent : p.connections.Consistent) (m : Moment) {l : Lcid} {d : Descriptor}
    (found : p.flows.descriptor? l = some d) :
    ∃ d', (p.entered m).flows.descriptor? l = some d' ∧ d'.lasting = d.lasting := by
  have kept := lasting_entered consistent m l
  rw [found, Option.some_or, Option.map_some] at kept
  exact Option.map_eq_some_iff.1 kept

/-- Switches that end change nothing of a descriptor that lasts. -/
theorem lasting_react {m : Moment} (stays : m.stimulus ≠ .departed) (l : Lcid) :
    ((p.react m).plane.flows.descriptor? l).map Descriptor.lasting =
      ((p.entered m).flows.descriptor? l).map Descriptor.lasting := by
  rw [(reroutes_react p stays).descriptor, Option.map_map]
  rfl

/-- A connection keeps its descriptor as long as the node stays, apart from the path and the last number. -/
theorem lasting_after (consistent : p.connections.Consistent) {ms : List Moment}
    (stays : ∀ m ∈ ms, m.stimulus ≠ .departed) {l : Lcid} {d : Descriptor} (found : p.flows.descriptor? l = some d) :
    ∃ d', (p.after ms).flows.descriptor? l = some d' ∧ d'.lasting = d.lasting := by
  induction ms generalizing p d with
  | nil => exact ⟨d, found, rfl⟩
  | cons m rest ih =>
    have staying := stays m List.mem_cons_self
    obtain ⟨d₁, entered, same₁⟩ := kept_entered consistent m found
    have kept := lasting_react (p := p) staying l
    rw [entered, Option.map_some] at kept
    obtain ⟨d₂, reacted, same₂⟩ := Option.map_eq_some_iff.1 kept
    obtain ⟨d₃, found₃, same₃⟩ := ih (consistent.step (connections_react p staying))
      (fun n member => stays n (List.mem_cons_of_mem _ member)) reacted
    exact ⟨d₃, found₃, same₃.trans (same₂.trans same₁)⟩

section
variable {node : NodeId} {role : Role} {settings : PlaneSettings}

theorem founding_after (p : DataPlane) (ms : List Moment) : (p.after ms).founding = p.founding := by
  funext n direction
  simp only [founding, describe, node_after, settings_after]

/-- A connection that is not described when one of its packets is given a number has had no packet before. -/
theorem first?_eq_none (made : new node role settings = .ok p) {ms : List Moment} {m : Moment} {n : Numbering}
    (member : n ∈ (p.after ms).numberingsAt m) (missing : (p.after ms).flows.descriptor? n.unit.lcid = none) :
    Numbering.first? (p.numberings ms) n.unit.lcid = none := by
  refine List.find?_eq_none.2 fun n' earlier same => ?_
  have consistent := consistent_after (consistent_new made) ms
  obtain ⟨effects, ⟨issued, -, -⟩, sound⟩ := sound_run made ms
  have given : (n'.packet, n'.unit.lcid, n'.unit.sn) ∈ issuedOf effects := by
    rw [issued, ← numbered_numberings]
    exact List.mem_map_of_mem earlier
  have used := (sound.accounts.issued given).2.1
  rw [of_decide_eq_true same] at used
  -- The connection of the packet is an old one, which is described, or a new one, which was not used before.
  rcases entered_spec consistent m with ⟨none_given, -⟩ | ⟨n₀, given, registers⟩
  · rw [none_given] at member
    cases member
  · rw [given] at member
    obtain rfl := List.mem_singleton.1 member
    obtain ⟨flows, created, -⟩ := registers.created
    rcases FlowTable.create_cases created with ⟨found, -⟩ | ⟨-, -, fresh, -⟩
    · obtain ⟨d, described⟩ := (opened_iff_described consistent _).1 ⟨_, found⟩
      rw [described] at missing
      cases missing
    · rw [fresh, show (p.after ms).flows.next = (p.after ms).connections.flows.next from rfl,
        FlowTable.rank_fresh consistent.valid] at used
      exact Nat.lt_irrefl _ used

theorem numberings_concat (p : DataPlane) (ms : List Moment) (m : Moment) :
    p.numberings (ms ++ [m]) = p.numberings ms ++ (p.after ms).numberingsAt m :=
  (collect_append _ p ms [m]).trans (congrArg _ (List.append_nil _))

/-- What lasts of a descriptor is what it was made with, for the first packet of its connection. -/
theorem founded_after (made : new node role settings = .ok p) (ms : List Moment) {l : Lcid} {d : Descriptor}
    (found : (p.after ms).flows.descriptor? l = some d) :
    ∃ n direction, Numbering.first? (p.numberings ms) l = some n ∧ d.lasting = (p.founding n direction).lasting := by
  induction ms using List.reverseRec generalizing d with
  | nil =>
    obtain ⟨-, rfl⟩ := eq_of_new made
    cases found
  | append_singleton ms m ih =>
    rw [after_append] at found
    change ((p.after ms).react m).plane.flows.descriptor? l = some d at found
    rw [numberings_concat, Numbering.first?_append]
    by_cases stays : m.stimulus = .departed
    · obtain ⟨directory, timers, stimulus⟩ := m
      subst stays
      cases found
    · have last := (lasting_react stays l).trans (lasting_entered (consistent_after (consistent_new made) ms) m l)
      rw [found, founding_after] at last
      cases before : (p.after ms).flows.descriptor? l with
      | some d' =>
        rw [before, Option.some_or, Option.map_some, Option.map_some] at last
        obtain ⟨n, direction, first, same⟩ := ih before
        exact ⟨n, direction, by rw [first, Option.some_or], (Option.some.inj last).trans same⟩
      | none =>
        rw [before, Option.none_or, Option.map_some] at last
        obtain ⟨d', made_, same⟩ := Option.map_eq_some_iff.1 last.symm
        obtain ⟨n, first, rfl⟩ := Option.map_eq_some_iff.1 made_
        obtain ⟨member, rfl⟩ := Numbering.of_first? first
        rw [first?_eq_none made member before, Option.none_or]
        exact ⟨n, _, first, same.symm⟩

end

end DataPlane
end Sidelink
