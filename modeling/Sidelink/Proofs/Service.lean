import Mathlib.Data.List.Nodup
import Sidelink.Proofs.Ledger

/-!
How the buffers of a node share an opportunity to transmit. A service lets one buffer send one data unit, and the
services of an opportunity go round the buffers in the order of service: they are some whole rounds, and the beginning
of one more (`InRounds`). A buffer that is served so many times sends so many of its data units, as long as it has any
(`Serves`). Since a whole round counts every buffer once, no buffer that still has something to send is served more
than one time less often than another.
-/
namespace Sidelink

/-- A packet to the second node that the first one passes on. -/
def Packet.guest : Packet := ⟨.token 7 2, .udp, [0xef]⟩

/-! ## Services -/

/-- Whether frames and buffers are what is sent and what is left when keys are served one after the other: the frames
of a buffer are its first data units, as many as it was served, and the buffer keeps the others. -/
structure Serves (node : NodeId) (served : List EntityKey) (buffers : TransmitBuffers) (frames : List Frame)
    (left : TransmitBuffers) : Prop where
  frames : ∀ key, frames.filter (·.key = key) =
    ((buffers.get? key).elim [] fun b => (b.queue.take (served.count key)).map (b.frame node key))
  buffers : ∀ key, left.get? key = (buffers.get? key).map fun b => (b.pull (served.count key)).2

theorem TransmitBuffer.pull_pull (b : TransmitBuffer) (m n : Nat) : ((b.pull m).2.pull n).2 = (b.pull (m + n)).2 := by
  simp only [pull, List.drop_drop, List.length_take, List.length_drop, TransmitBuffer.mk.injEq,
    TransmitCounters.mk.injEq, true_and, and_true]
  omega

theorem TransmitBuffer.pull_of_queue_eq_nil {b : TransmitBuffer} (empty : b.queue = []) (n : Nat) :
    (b.pull n).2 = b := by
  obtain ⟨key, mode, path, capacity, dataSize, queue, holding, counters⟩ := b
  obtain rfl : queue = [] := empty
  simp [pull]

namespace Serves
variable {node : NodeId} {served more : List EntityKey} {buffers left rest : TransmitBuffers} {frames later : List Frame}

theorem none (node : NodeId) (buffers : TransmitBuffers) : Serves node [] buffers [] buffers where
  frames key := by cases buffers.get? key <;> simp
  buffers key := by cases buffers.get? key <;> rfl

/-- Services add up. -/
theorem append (first : Serves node served buffers frames left) (second : Serves node more left later rest) :
    Serves node (served ++ more) buffers (frames ++ later) rest where
  frames key := by
    rw [List.filter_append, first.frames, second.frames, first.buffers]
    cases buffers.get? key with
    | none => rfl
    | some b =>
      simp only [Option.elim_some, Option.map_some, List.count_append, List.take_add, List.map_append]
      rfl
  buffers key := by
    rw [second.buffers, first.buffers, Option.map_map, List.count_append]
    exact congrArg (fun f => Option.map f _) (funext fun b => b.pull_pull _ _)

/-- A service of a buffer that has nothing to send is none. -/
theorem idle {key : EntityKey} (nothing : ∀ b, buffers.get? key = some b → b.queue = []) :
    Serves node [key] buffers [] buffers where
  frames k := by
    by_cases same : k = key
    · subst same
      cases found : buffers.get? k with
      | none => rfl
      | some b => simp [nothing b found]
    · cases buffers.get? k <;> simp [Ne.symm same]
  buffers k := by
    by_cases same : k = key
    · subst same
      cases found : buffers.get? k with
      | none => rfl
      | some b => simp [TransmitBuffer.pull_of_queue_eq_nil (nothing b found)]
    · cases buffers.get? k <;> simp [Ne.symm same, TransmitBuffer.pull]

/-- A service of a buffer that has something to send. -/
theorem single {key : EntityKey} {b : TransmitBuffer} {pdu : QueuedPdu} {later : List QueuedPdu}
    (found : buffers.get? key = some b) (queued : b.queue = pdu :: later) :
    Serves node [key] buffers [b.frame node key pdu] (buffers.insert key (b.pull 1).2) where
  frames k := by
    by_cases same : k = key
    · subst same
      simp [found, queued, TransmitBuffer.frame, Frame.key]
    · have other : ¬ (b.frame node key pdu).key = k := fun here => same here.symm
      cases buffers.get? k <;> simp [Ne.symm same, other]
  buffers k := by
    by_cases same : k = key
    · subst same
      simp [found]
    · rw [SortedMap.get?_insert_of_ne _ same]
      cases buffers.get? k <;> simp [Ne.symm same, TransmitBuffer.pull]

/-- Buffers that were all served, and sent nothing, have nothing to send. -/
theorem emptied (serves : Serves node served buffers [] left)
    (all : ∀ key b, buffers.get? key = some b → key ∈ served) {key : EntityKey} {b : TransmitBuffer}
    (found : left.get? key = some b) : b.queue = [] := by
  obtain ⟨b', before, rfl⟩ := Option.map_eq_some_iff.1 ((serves.buffers key).symm.trans found)
  have unsent : (b'.queue.take (served.count key)).map (b'.frame node key) = [] := by
    simpa [before] using (serves.frames key).symm
  have once : served.count key ≠ 0 := Nat.ne_of_gt (List.count_pos_iff.2 (all key b' before))
  have empty : b'.queue = [] := (List.take_eq_nil_iff.1 (List.map_eq_nil_iff.1 unsent)).resolve_left once
  simp [TransmitBuffer.pull, empty]

/-- What is sent from a buffer, and what waits there afterwards, is what waited there before. -/
theorem waiting {p q : DataPlane} (serves : Serves p.node served p.buffers frames q.buffers) (node : q.node = p.node)
    (key : EntityKey) : frames.filter (·.key = key) ++ q.waiting key = p.waiting key := by
  have after := serves.buffers key
  rw [serves.frames]
  cases before : p.buffers.get? key with
  | none =>
    rw [before] at after
    rw [DataPlane.waiting_eq_nil before, DataPlane.waiting_eq_nil after]
    rfl
  | some b =>
    rw [before] at after
    rw [DataPlane.waiting_of_get? before, DataPlane.waiting_of_get? after, node]
    show _ ++ (b.queue.drop _).map (b.frame p.node key) = _
    rw [Option.elim_some, ← List.map_append, List.take_append_drop]

theorem contains (serves : Serves node served buffers frames left) {key : EntityKey} {b : TransmitBuffer}
    (found : left.get? key = some b) : buffers.contains key = true := by
  obtain ⟨b', before, -⟩ := Option.map_eq_some_iff.1 ((serves.buffers key).symm.trans found)
  exact (SortedMap.contains_eq_true_iff _ _).2 ⟨b', before⟩

theorem length_le (serves : Serves node served buffers frames left) (key : EntityKey) :
    (frames.filter (·.key = key)).length ≤ served.count key := by
  rw [serves.frames]
  cases buffers.get? key with
  | none => exact Nat.zero_le _
  | some b => simp only [Option.elim_some, List.length_map, List.length_take, Nat.min_le_left]

/-- A buffer that still has something to send has sent as often as it was served. -/
theorem length_eq (serves : Serves node served buffers frames left) {key : EntityKey} {b : TransmitBuffer}
    (found : left.get? key = some b) (queued : b.queue ≠ []) :
    (frames.filter (·.key = key)).length = served.count key := by
  obtain ⟨b', before, rfl⟩ := Option.map_eq_some_iff.1 ((serves.buffers key).symm.trans found)
  have longer : served.count key < b'.queue.length := by
    simpa [TransmitBuffer.pull] using queued
  rw [serves.frames, before, Option.elim_some, List.length_map, List.length_take]
  omega

end Serves

theorem TransmitBuffers.queuedTotal_eq_zero {buffers : TransmitBuffers}
    (empty : ∀ key b, buffers.get? key = some b → b.queue = []) : queuedTotal buffers = 0 := by
  refine List.sum_eq_zero fun n member => ?_
  obtain ⟨b, value, rfl⟩ := List.mem_map.1 member
  obtain ⟨⟨key, b⟩, entry, rfl⟩ := List.mem_map.1 value
  rw [empty key b ((SortedMap.get?_eq_some_iff _ _ _).2 entry), List.length_nil]

/-! ## A turn -/

namespace DataPlane

/-- A turn serves the buffers in order, up to where the budget is used up. -/
theorem serves_serveTurn (node : NodeId) (order : List EntityKey) (budget : Nat) (buffers : TransmitBuffers) :
    ∃ served, served <+: order ∧
      Serves node served buffers (serveTurn node order budget buffers).1 (serveTurn node order budget buffers).2.2 ∧
      (serveTurn node order budget buffers).1.length + (serveTurn node order budget buffers).2.1 = budget ∧
      (served = order ∨ (serveTurn node order budget buffers).2.1 = 0) := by
  induction order generalizing budget buffers with
  | nil => exact ⟨[], List.nil_prefix, .none node buffers, Nat.zero_add _, Or.inl rfl⟩
  | cons key rest ih =>
    cases budget with
    | zero => exact ⟨[], List.nil_prefix, .none node buffers, rfl, Or.inr rfl⟩
    | succ budget =>
      by_cases nothing : ∀ b, buffers.get? key = some b → b.queue = []
      · obtain ⟨served, first, serves, spent, ended⟩ := ih (budget + 1) buffers
        rw [serveTurn_skip nothing]
        exact ⟨key :: served, List.cons_prefix_cons.2 ⟨rfl, first⟩, (Serves.idle nothing).append serves, spent,
          ended.imp_left (congrArg (key :: ·))⟩
      · simp only [Classical.not_forall] at nothing
        obtain ⟨b, found, some_queue⟩ := nothing
        obtain ⟨pdu, later, queued⟩ := List.exists_cons_of_ne_nil some_queue
        obtain ⟨served, first, serves, spent, ended⟩ := ih budget (buffers.insert key (b.pull 1).2)
        rw [serveTurn_serve found queued]
        refine ⟨key :: served, List.cons_prefix_cons.2 ⟨rfl, first⟩, (Serves.single found queued).append serves, ?_,
          ended.imp_left (congrArg (key :: ·))⟩
        simp only [List.length_cons]
        omega

/-! ## Rounds -/

/-- Whether services are whole rounds, and the beginning of one more. -/
def InRounds (order served : List EntityKey) : Prop :=
  ∃ rounds begun, begun <+: order ∧ served = (List.replicate rounds order).flatten ++ begun

theorem InRounds.beginning {order begun : List EntityKey} (first : begun <+: order) : InRounds order begun :=
  ⟨0, begun, first, rfl⟩

theorem InRounds.round {order served : List EntityKey} (inRounds : InRounds order served) :
    InRounds order (order ++ served) := by
  obtain ⟨rounds, begun, first, rfl⟩ := inRounds
  exact ⟨rounds + 1, begun, first, by rw [List.replicate_succ, List.flatten_cons, List.append_assoc]⟩

/-- In rounds of distinct keys none is served more than once more often than another, and none more often than one
that is served before it. -/
theorem InRounds.fair {order served : List EntityKey} (inRounds : InRounds order served) (distinct : order.Nodup)
    {key : EntityKey} (member : key ∈ order) (other : EntityKey) :
    served.count other ≤ served.count key + 1 ∧
      ([key, other].Sublist order → served.count other ≤ served.count key) := by
  obtain ⟨rounds, begun, ⟨untouched, rfl⟩, rfl⟩ := inRounds
  have whole (k : EntityKey) : ((List.replicate rounds (begun ++ untouched)).flatten ++ begun).count k =
      rounds * (begun ++ untouched).count k + begun.count k := by
    rw [List.count_append, List.count_flatten, List.map_replicate, List.sum_replicate_nat]
  have once (k : EntityKey) : (begun ++ untouched).count k ≤ 1 := List.nodup_iff_count.1 distinct k
  have here : (begun ++ untouched).count key = 1 := List.nodup_iff_count_eq_one.1 distinct key member
  have rounded : rounds * (begun ++ untouched).count other ≤ rounds * (begun ++ untouched).count key :=
    Nat.mul_le_mul_left _ (here ▸ once other)
  have last : begun.count other ≤ 1 := Nat.le_trans ((List.prefix_append begun untouched).sublist.count_le other) (once other)
  rw [whole, whole]
  refine ⟨by omega, fun before => Nat.add_le_add rounded ?_⟩
  obtain ⟨front, back, both, inBegun, inUntouched⟩ := List.sublist_append_iff.1 before
  -- Where the order is cut: before both keys, between them, or after both.
  match front with
  | [] =>
    obtain rfl : [key, other] = back := both
    have absent : other ∉ begun := fun present =>
      List.disjoint_of_nodup_append distinct present (inUntouched.subset (by simp))
    rw [List.count_eq_zero_of_not_mem absent]
    exact Nat.zero_le _
  | first :: _ =>
    obtain rfl : key = first := (List.cons.inj both).1
    exact Nat.le_trans last (List.count_pos_iff.2 (inBegun.subset List.mem_cons_self))

/-! ## All turns of an opportunity -/

theorem serve_spent (node : NodeId) (order : List EntityKey) (turns : Nat) (buffers : TransmitBuffers) :
    serve node order turns 0 buffers = ([], buffers) := by
  cases turns with
  | zero => rfl
  | succ turns => cases order <;> rfl

/-- As long as no turn is missing, the turns of an opportunity go round the buffers, until the budget is used up or
nothing is left to send. -/
theorem serves_serve (node : NodeId) {order : List EntityKey} {turns budget : Nat} {buffers : TransmitBuffers}
    (enough : budget ≤ turns) (all : ∀ key b, buffers.get? key = some b → key ∈ order) :
    ∃ served, InRounds order served ∧
      Serves node served buffers (serve node order turns budget buffers).1 (serve node order turns budget buffers).2 ∧
      (serve node order turns budget buffers).1.length ≤ budget ∧
      ((serve node order turns budget buffers).1.length = budget ∨
        ∀ key b, (serve node order turns budget buffers).2.get? key = some b → b.queue = []) := by
  induction turns generalizing budget buffers with
  | zero =>
    obtain rfl : budget = 0 := Nat.le_zero.1 enough
    exact ⟨[], .beginning List.nil_prefix, .none node buffers, Nat.le_refl 0, Or.inl rfl⟩
  | succ turns ih =>
    obtain ⟨served, first, serves, spent, ended⟩ := serves_serveTurn node order budget buffers
    simp only [serve]
    generalize serveTurn node order budget buffers = turn at serves spent ended
    obtain ⟨frames, left, buffers'⟩ := turn
    simp only at serves spent ended
    cases frames with
    | nil =>
      refine ⟨served, .beginning first, serves, Nat.zero_le _, ended.symm.imp (fun none => ?_) fun round key b found => ?_⟩
      · rw [none] at spent
        exact spent
      · obtain rfl : served = order := round
        exact serves.emptied all found
    | cons frame frames =>
      rw [List.length_cons] at spent
      have kept (key : EntityKey) (b : TransmitBuffer) (found : buffers'.get? key = some b) : key ∈ order := by
        obtain ⟨b', before, -⟩ := Option.map_eq_some_iff.1 ((serves.buffers key).symm.trans found)
        exact all key b' before
      have fewer : left ≤ turns := by omega
      obtain ⟨more, inRounds, servesMore, bounded, done⟩ := ih fewer kept
      simp only [List.length_append, List.length_cons]
      rcases ended with rfl | none
      · exact ⟨served ++ more, inRounds.round, serves.append servesMore, by omega, done.imp_left fun all => by omega⟩
      · obtain rfl : left = 0 := none
        rw [serve_spent]
        exact ⟨served, .beginning first, by simpa using serves, by simpa using Nat.le_of_eq spent, Or.inl (by simpa using spent)⟩

theorem serve_succ_of_le {node : NodeId} {order : List EntityKey} {turns budget : Nat} {buffers : TransmitBuffers}
    (enough : budget ≤ turns) : serve node order (turns + 1) budget buffers = serve node order turns budget buffers := by
  induction turns generalizing budget buffers with
  | zero =>
    obtain rfl : budget = 0 := Nat.le_zero.1 enough
    rw [serve_spent, serve_spent]
  | succ turns ih =>
    rw [serve, serve]
    obtain ⟨-, -, -, spent, -⟩ := serves_serveTurn node order budget buffers
    generalize serveTurn node order budget buffers = turn at spent
    obtain ⟨frames, left, buffers'⟩ := turn
    cases frames with
    | nil => rfl
    | cons frame frames =>
      simp only [List.length_cons] at spent
      have fewer : left ≤ turns := by omega
      simp only [ih fewer]

/-- The turns of an opportunity end by themselves: that there are no more of them than the budget cuts nothing off. -/
theorem serve_of_le {node : NodeId} {order : List EntityKey} {turns budget : Nat} {buffers : TransmitBuffers}
    (enough : budget ≤ turns) : serve node order turns budget buffers = serve node order budget budget buffers := by
  induction enough with
  | refl => rfl
  | step enough ih => rw [serve_succ_of_le enough, ih]

theorem mem_serviceOrder (p : DataPlane) (key : EntityKey) : key ∈ p.serviceOrder ↔ p.buffers.contains key = true := by
  rw [← SortedMap.mem_keys_iff]
  conv_rhs => rw [← List.take_append_drop (p.rotation % p.buffers.keys.length) p.buffers.keys]
  simp only [serviceOrder, List.mem_append, or_comm]

theorem nodup_serviceOrder (p : DataPlane) : p.serviceOrder.Nodup := by
  have distinct := p.buffers.nodup_keys
  rw [← List.take_append_drop (p.rotation % p.buffers.keys.length) p.buffers.keys] at distinct
  exact List.nodup_append_comm.1 distinct

theorem advance_serve (p : DataPlane) (now : SimTime) :
    (p.advance now).node = p.node ∧ (p.advance now).buffers = p.buffers ∧ (p.advance now).rotation = p.rotation := by
  unfold advance
  split <;> exact ⟨rfl, rfl, rfl⟩

/-- An opportunity is the turns of a service, also where there is no buffer to serve. -/
theorem transmit_eq_serve (p : DataPlane) (now : SimTime) (limit : Nat) :
    (p.transmit now limit).1 = (serve p.node p.serviceOrder limit limit p.buffers).1 ∧
      (p.transmit now limit).2.buffers = (serve p.node p.serviceOrder limit limit p.buffers).2 ∧
      (p.transmit now limit).2.node = p.node := by
  obtain ⟨node, buffers, rotation⟩ := advance_serve p now
  have order : (p.advance now).serviceOrder = p.serviceOrder := by simp only [serviceOrder, buffers, rotation]
  simp only [transmit, node, buffers, order]
  split
  · rename_i empty
    have none : p.serviceOrder = [] := by simp [serviceOrder, SortedMap.keys, List.isEmpty_iff.1 empty]
    rw [none]
    cases limit <;> exact ⟨rfl, buffers, node⟩
  · exact ⟨rfl, rfl, rfl⟩

/-- An opportunity sends as many frames as the limit allows and the buffers hold. What is sent from a buffer are its
first data units, in order, each for its recipients and in the mode and on the path of the buffer; the others still
wait. A buffer that still has something to send sent no less than the buffers after it in the order of service, and at
most one frame less than any other. That turns are counted cuts no service off. -/
theorem transmit_shares (p : DataPlane) (now : SimTime) (limit : Nat) :
    let frames := (p.transmit now limit).1
    let q := (p.transmit now limit).2
    frames.length = min limit (TransmitBuffers.queuedTotal p.buffers) ∧
      (∀ key, frames.filter (·.key = key) ++ q.waiting key = p.waiting key) ∧
      (∀ key other, q.waiting key ≠ [] →
        (frames.filter (·.key = other)).length ≤ (frames.filter (·.key = key)).length + 1 ∧
          ([key, other].Sublist p.serviceOrder →
            (frames.filter (·.key = other)).length ≤ (frames.filter (·.key = key)).length)) ∧
      ∀ turns, limit ≤ turns → serve p.node p.serviceOrder turns limit p.buffers =
        serve p.node p.serviceOrder limit limit p.buffers := by
  intro frames q
  obtain ⟨sent, buffers, node⟩ := p.transmit_eq_serve now limit
  have all (key : EntityKey) (b : TransmitBuffer) (found : p.buffers.get? key = some b) : key ∈ p.serviceOrder :=
    (p.mem_serviceOrder key).2 ((SortedMap.contains_eq_true_iff _ _).2 ⟨b, found⟩)
  obtain ⟨served, inRounds, serves, bounded, done⟩ := serves_serve p.node (Nat.le_refl limit) all
  obtain ⟨total, -⟩ := queuedTotal_serve p.node p.serviceOrder limit limit p.buffers
  rw [← sent, ← buffers] at serves
  have split (key : EntityKey) : frames.filter (·.key = key) ++ q.waiting key = p.waiting key := serves.waiting node key
  refine ⟨?_, split, fun key other waits => ?_, fun turns enough => serve_of_le enough⟩
  · show (p.transmit now limit).1.length = _
    rw [sent]
    rcases done with full | empty
    · omega
    · rw [TransmitBuffers.queuedTotal_eq_zero empty] at total
      omega
  · cases found : q.buffers.get? key with
    | none => exact absurd (waiting_eq_nil found) waits
    | some b =>
      have queued : b.queue ≠ [] := fun empty => waits (by rw [waiting_of_get? found, empty, List.map_nil])
      have member : key ∈ p.serviceOrder := (p.mem_serviceOrder key).2 (serves.contains found)
      obtain ⟨nearly, inOrder⟩ := inRounds.fair p.nodup_serviceOrder member other
      have least := serves.length_le other
      rw [serves.length_eq found queued]
      exact ⟨Nat.le_trans least nearly, fun before => Nat.le_trans least (inOrder before)⟩

/-- Two packets wait on each of two connections to the second node. -/
def crowded : DataPlane :=
  (fresh 1).after ([.packet .hello "voice", .packet .guest "voice", .packet .hello "voice",
    .packet .guest "voice"].map Stimulus.inPair)

/-- A third frame is the first one of its connection to leave in a second round, and uses the limit up. -/
theorem transmit_shares_crowded :
    let frames := (crowded.transmit 0 3).1
    let q := (crowded.transmit 0 3).2
    crowded.serviceOrder = [⟨⟨2⟩, ⟨1⟩⟩, ⟨⟨2⟩, ⟨2⟩⟩] ∧ TransmitBuffers.queuedTotal crowded.buffers = 4 ∧
      frames.length = 3 ∧ frames.filter (·.key = ⟨⟨2⟩, ⟨1⟩⟩) = crowded.waiting ⟨⟨2⟩, ⟨1⟩⟩ ∧
      (q.waiting ⟨⟨2⟩, ⟨2⟩⟩).length = 1 ∧
      (frames.filter (·.key = ⟨⟨2⟩, ⟨1⟩⟩)).length ≤ (frames.filter (·.key = ⟨⟨2⟩, ⟨2⟩⟩)).length + 1 := by
  intro frames q
  have waits : (q.waiting ⟨⟨2⟩, ⟨2⟩⟩).length = 1 := by decide +kernel
  obtain ⟨total, shares, fair, -⟩ := crowded.transmit_shares 0 3
  have queued : TransmitBuffers.queuedTotal crowded.buffers = 4 := by decide +kernel
  have all : q.waiting ⟨⟨2⟩, ⟨1⟩⟩ = [] := by decide +kernel
  refine ⟨by decide +kernel, queued, total.trans (by rw [queued]; rfl), ?_, waits, ?_⟩
  · rw [← shares, all, List.append_nil]
  · exact (fair _ _ fun none => by rw [none] at waits; cases waits).1

end DataPlane
end Sidelink
