import Sidelink.Proofs.Connections

/-!
A flow stays what it is while the paths of its peer change. As long as the directory is the same and the node does not
leave, the flow of a packet depends on its endpoints only (`DataPlane.flowKey_congr`). All packets between the same
endpoints that are given a number get it from one connection, and the numbers are 0, 1, 2 and so on; packets between
other endpoints never get the same connection (`DataPlane.flow_identity`). What the peers of the node do, the hints of
the packets and what becomes of them make no difference.
-/
namespace Sidelink

/-! ## Answers of connections -/

namespace Connections
variable {c c' : Connections} {settings : CompressionSettings} {answers more : List (FlowKey × Lcid × Option UInt32)}

/-- How many numbers the connection of a flow gave. -/
def issued (c : Connections) (key : FlowKey) : Nat :=
  ((c.flows.lookup? key).bind c.convergence.get?).elim 0 (·.issued)

/-- The numbers that the packets of a flow were given. -/
def numbersOf (key : FlowKey) (answers : List (FlowKey × Lcid × Option UInt32)) : List UInt32 :=
  (answers.filter (·.1 = key)).filterMap (·.2.2)

/-- Whether some answers are all that some connections gave: each packet got the connection of its flow, or no number
and no connection, and each flow got all numbers in order. -/
structure Answered (c : Connections) (answers : List (FlowKey × Lcid × Option UInt32)) : Prop where
  lcid : ∀ x ∈ answers, c.flows.lookup? x.1 = some x.2.1 ∨ x.2.1 = .notFound ∧ x.2.2 = none
  numbers : ∀ key, (numbersOf key answers).map UInt32.toNat = List.range (c.issued key)

theorem numbersOf_append (key : FlowKey) (answers more : List (FlowKey × Lcid × Option UInt32)) :
    numbersOf key (answers ++ more) = numbersOf key answers ++ numbersOf key more := by
  simp only [numbersOf, List.filter_append, List.filterMap_append]

theorem issued_of_lookup? {key : FlowKey} {l : Lcid} (found : c.flows.lookup? key = some l) :
    c.issued key = (c.convergence.get? l).elim 0 (·.issued) := by
  rw [issued, found, Option.bind_some]

/-- The connection that a flow is given gave as many numbers as the flow got. -/
theorem issued_of_create (settings : CompressionSettings) {key : FlowKey} {l : Lcid} {flows : FlowTable}
    (consistent : c.Consistent) (created : c.flows.create key = some (l, flows)) :
    ((c.convergence.get? l).getD (.new l settings)).issued = c.issued key := by
  rcases FlowTable.create_cases created with ⟨found, -⟩ | ⟨missing, -, fresh, -⟩
  · rw [issued_of_lookup? found]
    cases c.convergence.get? l <;> rfl
  · -- No connection has the id of a new one, so nothing was numbered under it.
    have valid := FlowTable.valid_create consistent.valid created
    have traffic := FlowTable.not_control_of_lookup? valid (FlowTable.lookup?_create created)
    have unnumbered : c.convergence.get? l = none := by
      refine (SortedMap.contains_eq_false_iff _ _).1 (Bool.not_eq_true _ ▸ fun there => ?_)
      obtain ⟨key', found⟩ := (consistent.numbered l).1 ⟨there, traffic⟩
      have below := (consistent.valid.given found).2
      rw [fresh, FlowTable.rank_fresh consistent.valid] at below
      exact absurd below (Nat.lt_irrefl _)
    rw [unnumbered, issued, missing]
    rfl

/-- The next number of a flow is how many it got so far. -/
theorem toNat_next {key : FlowKey} {l : Lcid} {flows : FlowTable} {sn : UInt32} {entity : ConvergenceEntity}
    (consistent : c.Consistent) (created : c.flows.create key = some (l, flows))
    (numbered : ((c.convergence.get? l).getD (.new l settings)).next? = some (sn, entity)) :
    sn.toNat = c.issued key ∧ entity.issued = c.issued key + 1 := by
  obtain ⟨number, -, rfl⟩ := next?_eq_some numbered
  have count := issued_of_create settings consistent created
  exact ⟨number.trans count, congrArg (· + 1) count⟩

/-- What happens to a connection leaves the numbers of all other flows as they are. -/
theorem issued_other {key key' : FlowKey} {l : Lcid} {flows : FlowTable} {entity : ConvergenceEntity}
    (valid : c.flows.Valid) (created : c.flows.create key = some (l, flows)) (other : key' ≠ key)
    (lastSns : SortedMap Lcid (Option UInt32)) :
    (⟨flows, c.convergence.insert l entity, lastSns⟩ : Connections).issued key' = c.issued key' := by
  have kept : flows.lookup? key' = c.flows.lookup? key' := by
    rcases FlowTable.create_cases created with ⟨-, rfl⟩ | ⟨-, -, -, rfl⟩
    · rfl
    · rw [FlowTable.lookup?_added, if_neg (Ne.symm other)]
  simp only [issued, kept]
  cases found : c.flows.lookup? key' with
  | none => rfl
  | some l' =>
    have apart : l' ≠ l := by
      rintro rfl
      exact other ((FlowTable.valid_create valid created).apart (kept.trans found) (FlowTable.lookup?_create created))
    rw [Option.bind_some, Option.bind_some, SortedMap.get?_insert_of_ne _ apart]

theorem Answered.step (consistent : c.Consistent) (answered : c.Answered answers) (step : c.Step settings more c') :
    c'.Answered (answers ++ more) := by
  cases step with
  | same =>
    rw [List.append_nil]
    exact answered
  | routeless key =>
    refine ⟨fun x member => ?_, fun key' => ?_⟩
    · rcases List.mem_append.1 member with before | new
      · exact answered.lcid x before
      · rw [List.mem_singleton.1 new]
        cases c.flows.lookup? key with
        | none => exact Or.inr ⟨rfl, rfl⟩
        | some l => exact Or.inl rfl
    · have nothing : numbersOf key' [(key, (c.flows.lookup? key).getD .notFound, none)] = [] := by
        simp only [numbersOf, List.filter_cons, List.filter_nil]
        split <;> rfl
      rw [numbersOf_append, nothing, List.append_nil]
      exact answered.numbers key'
  | @issue key l flows sn entity created next =>
    refine ⟨fun x member => ?_, fun key' => ?_⟩
    · rcases List.mem_append.1 member with before | new
      · exact (answered.lcid x before).imp_left (FlowTable.lookup?_mono created)
      · rw [List.mem_singleton.1 new]
        exact Or.inl (FlowTable.lookup?_create created)
    · rw [numbersOf_append, List.map_append, answered.numbers key']
      by_cases same : key' = key
      · subst same
        obtain ⟨number, count⟩ := toNat_next consistent created next
        have after := issued_of_lookup? (c := ⟨flows, c.convergence.insert l entity, c.lastSns.insert l (some sn)⟩)
          (FlowTable.lookup?_create created)
        rw [SortedMap.get?_insert_self, Option.elim_some, count] at after
        rw [after, List.range_succ, ← number]
        simp [numbersOf]
      · have nothing : numbersOf key' [(key, l, some sn)] = [] := by
          simp [numbersOf, Ne.symm same]
        rw [nothing, issued_other consistent.valid created same]
        exact List.append_nil _
  | @control sn entity next =>
    rw [List.append_nil]
    refine ⟨answered.lcid, fun key => ?_⟩
    have kept : (⟨c.flows, c.convergence.insert .control entity, c.lastSns⟩ : Connections).issued key =
        c.issued key := by
      simp only [issued]
      cases found : c.flows.lookup? key with
      | none => rfl
      | some l =>
        have traffic := FlowTable.not_control_of_lookup? consistent.valid found
        rw [Option.bind_some, Option.bind_some, SortedMap.get?_insert_of_ne _ traffic]
    rw [kept]
    exact answered.numbers key

end Connections

/-! ## Flows of packets -/

namespace DataPlane
variable {node : NodeId} {role : Role} {settings : PlaneSettings} {p q : DataPlane} {directory : Directory}
  {ms : List Moment}

theorem answered_after {answers : List (FlowKey × Lcid × Option UInt32)} (consistent : p.connections.Consistent)
    (answered : p.connections.Answered answers) (same : ∀ m ∈ ms, m.directory = directory)
    (stays : ∀ m ∈ ms, m.stimulus ≠ .departed) :
    (p.after ms).connections.Answered (answers ++ (p.dispatched ms).map (p.answer directory)) := by
  induction ms generalizing p answers with
  | nil =>
    rw [dispatched, collect, List.map_nil, List.append_nil]
    exact answered
  | cons m rest ih =>
    have step := connections_react p (stays m List.mem_cons_self)
    rw [same m List.mem_cons_self] at step
    have later := ih (consistent.step step) (answered.step consistent step)
      (fun n member => same n (List.mem_cons_of_mem _ member)) fun n member => stays n (List.mem_cons_of_mem _ member)
    obtain ⟨node, role, -⟩ := fixed_react p m
    rw [answer_congr node role, List.append_assoc, ← List.map_append] at later
    exact later

theorem answered_new (made : new node role settings = .ok p) : p.connections.Answered [] := by
  obtain ⟨-, rfl⟩ := eq_of_new made
  exact ⟨fun x member => absurd member List.not_mem_nil, fun key => rfl⟩

/-- While a node stays and the directory is the same, the packets between some endpoints that are given a number get
it from one connection, and get all its numbers from 0 on, in order. Packets between other endpoints never get the same
connection. -/
theorem flow_identity (made : new node role settings = .ok p) (same : ∀ m ∈ ms, m.directory = directory)
    (stays : ∀ m ∈ ms, m.stimulus ≠ .departed) :
    let dispatched := p.dispatched ms
    (∀ x ∈ dispatched, ∀ y ∈ dispatched, x.1.endpoints = y.1.endpoints → x.2.sn.isSome = true →
      y.2.sn.isSome = true → x.2.lcid = y.2.lcid) ∧
    (∀ endpoints, ∃ n, ((dispatched.filter (·.1.endpoints = endpoints)).filterMap (·.2.sn)).map UInt32.toNat =
      List.range n) ∧
    ∀ x ∈ dispatched, ∀ y ∈ dispatched, x.1.endpoints ≠ y.1.endpoints → x.2.lcid = y.2.lcid →
      x.2.lcid = .notFound := by
  intro dispatched
  have answered := answered_after (consistent_new made) (answered_new made) same stays
  have valid := (consistent_after (consistent_new made) ms).valid
  rw [List.nil_append] at answered
  generalize (p.after ms).connections = c at answered valid
  have answer {x : Packet × Dispatch} (member : x ∈ dispatched) :
      c.flows.lookup? (p.flowKey directory x.1) = some x.2.lcid ∨ x.2.lcid = .notFound ∧ x.2.sn = none :=
    answered.lcid _ (List.mem_map_of_mem member)
  have flow {x y : Packet × Dispatch} :
      p.flowKey directory x.1 = p.flowKey directory y.1 ↔ x.1.endpoints = y.1.endpoints :=
    ⟨FlowKey.endpoints_inj, flowKey_congr rfl rfl⟩
  refine ⟨fun x here y there between numbered numbered' => ?_, fun endpoints => ?_,
    fun x here y there apart alike => ?_⟩
  · have found := (answer here).resolve_right fun unnumbered => by
      rw [unnumbered.2] at numbered
      cases numbered
    have found' := (answer there).resolve_right fun unnumbered => by
      rw [unnumbered.2] at numbered'
      cases numbered'
    rw [flow.2 between] at found
    exact Option.some.inj (found.symm.trans found')
  · let probe : Packet × Dispatch := (⟨endpoints, .udp, []⟩, default)
    refine ⟨c.issued (p.flowKey directory probe.1), ?_⟩
    rw [← answered.numbers, Connections.numbersOf, List.filter_map, List.filterMap_map]
    have chosen : dispatched.filter ((fun x => decide (x.1 = p.flowKey directory probe.1)) ∘ p.answer directory) =
        dispatched.filter fun x => decide (x.1.endpoints = endpoints) :=
      List.filter_congr fun x _ => decide_eq_decide.2 (flow (y := probe))
    rw [chosen]
    rfl
  · rcases answer here with found | ⟨missing, -⟩
    · rcases answer there with found' | ⟨missing, -⟩
      · have shared : p.flowKey directory x.1 = p.flowKey directory y.1 :=
          valid.apart found (found'.trans (congrArg some alike.symm))
        exact absurd (flow.1 shared) apart
      · exact alike.trans missing
    · exact missing

/-- The second node switches to another path between packets to it, and to a node that nobody knows. -/
def conversations : List Moment :=
  [.packet .hello "voice", .packet ⟨.token 1 3, .udp, []⟩ "voice", .pathSwitch ⟨2⟩ .multicast false,
    .packet .hello "video", .peerDeparted ⟨2⟩, .packet .hello "voice"].map Stimulus.inPair

theorem flow_identity_at_conversations :
    let dispatched := (fresh 1).dispatched conversations
    (∀ m ∈ conversations, m.directory = .pair ∧ m.stimulus ≠ .departed) ∧
      dispatched.map (fun x => (x.2.lcid, x.2.sn)) =
        [(.first, some 0), (.notFound, none), (.first, some 1), (.first, some 2)] ∧
      ∃ n, ((dispatched.filter (·.1.endpoints = Packet.hello.endpoints)).filterMap (·.2.sn)).map UInt32.toNat =
        List.range n := by
  intro dispatched
  have steady : ∀ m ∈ conversations, m.directory = .pair ∧ m.stimulus ≠ .departed := by
    simp [conversations, Stimulus.inPair]
  obtain ⟨-, numbers, -⟩ := flow_identity new_fresh.1 (fun m member => (steady m member).1)
    fun m member => (steady m member).2
  exact ⟨steady, by decide +kernel, numbers _⟩

end DataPlane
end Sidelink
