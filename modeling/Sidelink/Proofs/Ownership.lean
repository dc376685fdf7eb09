import Mathlib.Data.List.Induction
import Sidelink.Proofs.Resolution

/-!
Which node an address stands for, told by the calls on a directory so far: the node that registered with it, unless a
later call took it over or gave it up (`Directory.resolve?_performAll_iff`). A node that leaves gives up its address
whoever has it then. So its leaving is felt by another node exactly if that node registered with the same address
after it and has it still (`Directory.departure_local_iff`); records of other nodes and pairs of other nodes stay in any
case.
-/
namespace Sidelink
namespace Directory
variable {d : Directory} {calls : List DirectoryCall} {host : Ipv4} {id : NodeId}

theorem performAll_concat (d : Directory) (calls : List DirectoryCall) (call : DirectoryCall) :
    d.performAll (calls ++ [call]) = (d.performAll calls).perform call := by
  rw [performAll, List.foldl_append]
  rfl

/-! ## Calls on an address -/

/-- Whether a call gives an address to a node. -/
def Gives (d : Directory) (host : Ipv4) (id : NodeId) (call : DirectoryCall) : Prop :=
  ∃ record, call = .register record ∧ record.id = id ∧ record.address = some host ∧ d.record? id = none

/-- Whether a call takes an address from whoever has it: a node with the address leaves. -/
def Frees (d : Directory) (host : Ipv4) (call : DirectoryCall) : Prop :=
  ∃ id record, call = .unregister id ∧ d.record? id = some record ∧ record.address = some host

/-- Whether a call changes who an address stands for. -/
def Affects (d : Directory) (host : Ipv4) (call : DirectoryCall) : Prop :=
  (∃ id, d.Gives host id call) ∨ d.Frees host call

theorem resolve?_perform_of_gives {call : DirectoryCall} (gives : d.Gives host id call) :
    (d.perform call).resolve? (.ip host) = some id := by
  obtain ⟨record, rfl, rfl, own, unknown⟩ := gives
  rw [perform_register, if_pos unknown, owner_including, if_pos own]

theorem resolve?_perform_of_frees {call : DirectoryCall} (frees : d.Frees host call) :
    (d.perform call).resolve? (.ip host) = none := by
  obtain ⟨id, record, rfl, known, own⟩ := frees
  rw [perform_unregister, known, Option.elim_some, owner_without, if_pos own]

theorem resolve?_perform_of_not_affects {call : DirectoryCall} (spares : ¬ d.Affects host call) :
    (d.perform call).resolve? (.ip host) = d.resolve? (.ip host) := by
  cases call with
  | register record =>
    rw [perform_register]
    split
    · rename_i unknown
      rw [owner_including, if_neg fun own => spares (Or.inl ⟨_, record, rfl, rfl, own, unknown⟩)]
    · rfl
  | unregister id =>
    rw [perform_unregister]
    cases known : d.record? id with
    | none => rfl
    | some record =>
      rw [Option.elim_some, owner_without, if_neg fun own => spares (Or.inr ⟨id, record, rfl, known, own⟩)]
  | connect a b => rfl
  | move id position => exact (sameNodes_perform (.inl ⟨id, position, rfl⟩)).resolve?_eq _
  | serve id serving => exact (sameNodes_perform (.inr ⟨id, serving, rfl⟩)).resolve?_eq _

/-- After a call an address stands for a node if the call gave it to the node, or if it did so before and the call
does not affect it. -/
theorem resolve?_perform_iff (d : Directory) (call : DirectoryCall) :
    (d.perform call).resolve? (.ip host) = some id ↔
      d.Gives host id call ∨ ¬ d.Affects host call ∧ d.resolve? (.ip host) = some id := by
  by_cases affects : d.Affects host call
  · rcases affects with ⟨other, gives⟩ | frees
    · rw [resolve?_perform_of_gives gives]
      constructor
      · intro same
        exact Or.inl (Option.some.inj same ▸ gives)
      · rintro (⟨record, rfl, rfl, -⟩ | ⟨spares, -⟩)
        · obtain ⟨_, same, rfl, -⟩ := gives
          rw [DirectoryCall.register.inj same]
        · exact absurd (Or.inl ⟨other, gives⟩) spares
    · rw [resolve?_perform_of_frees frees]
      refine iff_of_false (by simp) ?_
      rintro (⟨record, rfl, -⟩ | ⟨spares, -⟩)
      · obtain ⟨_, _, impossible, -⟩ := frees
        cases impossible
      · exact spares (Or.inr frees)
  · rw [resolve?_perform_of_not_affects affects]
    exact ⟨fun resolved => Or.inr ⟨affects, resolved⟩,
      fun either => either.elim (fun gives => absurd (Or.inl ⟨id, gives⟩) affects) And.right⟩

/-! ## Addresses over some calls -/

/-- Whether none of some calls affects an address. -/
def Rests (host : Ipv4) (d : Directory) : List DirectoryCall → Prop
  | [] => True
  | call :: rest => ¬ d.Affects host call ∧ (d.perform call).Rests host rest

theorem rests_concat (d : Directory) (calls : List DirectoryCall) (call : DirectoryCall) :
    d.Rests host (calls ++ [call]) ↔ d.Rests host calls ∧ ¬ (d.performAll calls).Affects host call := by
  induction calls generalizing d with
  | nil => simp [Rests, performAll]
  | cons first rest ih =>
    simp only [List.cons_append, Rests, ih]
    exact and_assoc.symm

/-- Whether some calls leave an address with a node: one of them gives it to the node, and none affects it since. -/
def Owns (calls : List DirectoryCall) (host : Ipv4) (id : NodeId) : Prop :=
  ∃ before call after, calls = before ++ call :: after ∧ (empty.performAll before).Gives host id call ∧
    ((empty.performAll before).perform call).Rests host after

theorem owns_concat (calls : List DirectoryCall) (call : DirectoryCall) :
    Owns (calls ++ [call]) host id ↔
      (empty.performAll calls).Gives host id call ∨
        ¬ (empty.performAll calls).Affects host call ∧ Owns calls host id := by
  constructor
  · rintro ⟨before, giving, after, split, gives, rests⟩
    rcases List.eq_nil_or_concat after with rfl | ⟨after, last, rfl⟩
    · obtain ⟨rfl, same⟩ := List.append_inj' split rfl
      rw [List.singleton_inj.1 same]
      exact Or.inl gives
    · rw [List.concat_eq_append] at split rests
      rw [← List.cons_append, ← List.append_assoc] at split
      obtain ⟨rfl, same⟩ := List.append_inj' split rfl
      obtain rfl := List.singleton_inj.1 same
      obtain ⟨rested, spares⟩ := (rests_concat _ after _).1 rests
      refine Or.inr ⟨?_, before, giving, after, rfl, gives, rested⟩
      rwa [performAll, List.foldl_append]
  · rintro (gives | ⟨spares, before, giving, after, rfl, gives, rests⟩)
    · exact ⟨calls, call, [], rfl, gives, trivial⟩
    · refine ⟨before, giving, after ++ [call], by rw [List.append_assoc, List.cons_append], gives, ?_⟩
      rw [performAll, List.foldl_append] at spares
      exact (rests_concat _ _ _).2 ⟨rests, spares⟩

/-- An address stands for the node that the calls leave it with. -/
theorem resolve?_performAll_iff (calls : List DirectoryCall) (host : Ipv4) (id : NodeId) :
    (empty.performAll calls).resolve? (.ip host) = some id ↔ Owns calls host id := by
  induction calls using List.reverseRecOn with
  | nil =>
    refine iff_of_false (by rintro ⟨⟩) ?_
    rintro ⟨before, call, after, split, -⟩
    simp at split
  | append_singleton calls call ih => rw [performAll_concat, resolve?_perform_iff, owns_concat, ih]

/-! ## Addresses and records -/

/-- A call leaves a record with the address that it had, or registers it. -/
theorem record?_perform {call : DirectoryCall} {record : NodeRecord}
    (known : (d.perform call).record? id = some record) :
    (call = .register record ∧ record.id = id) ∨
      ∃ before, d.record? id = some before ∧ before.address = record.address := by
  cases call with
  | register new =>
    rw [perform_register] at known
    split at known
    · rw [record?_including] at known
      split at known
      · rename_i same
        obtain rfl := Option.some.inj known
        exact Or.inl ⟨rfl, same.symm⟩
      · exact Or.inr ⟨record, known, rfl⟩
    · exact Or.inr ⟨record, known, rfl⟩
  | unregister other =>
    rw [perform_unregister] at known
    cases found : d.record? other with
    | none =>
      rw [found] at known
      exact Or.inr ⟨record, known, rfl⟩
    | some old =>
      rw [found, Option.elim_some, record?_without] at known
      split at known
      · cases known
      · exact Or.inr ⟨record, known, rfl⟩
  | connect a b => exact Or.inr ⟨record, known, rfl⟩
  | move other position =>
    obtain ⟨before, found, -, same⟩ := (sameNodes_perform (.inl ⟨other, position, rfl⟩)).symm.record? known
    exact Or.inr ⟨before, found, same⟩
  | serve other serving =>
    obtain ⟨before, found, -, same⟩ := (sameNodes_perform (.inr ⟨other, serving, rfl⟩)).symm.record? known
    exact Or.inr ⟨before, found, same⟩

/-- A node that is known has the address that it was registered with. -/
theorem registered_of_known {record : NodeRecord} (known : (empty.performAll calls).record? id = some record) :
    ∃ first, .register first ∈ calls ∧ first.id = id ∧ first.address = record.address := by
  induction calls using List.reverseRecOn generalizing record with
  | nil => cases known
  | append_singleton calls call ih =>
    rw [performAll_concat] at known
    rcases record?_perform known with ⟨rfl, same⟩ | ⟨before, found, address⟩
    · exact ⟨record, List.mem_append_right _ List.mem_cons_self, same, rfl⟩
    · obtain ⟨first, member, same, had⟩ := ih found
      exact ⟨first, List.mem_append_left _ member, same, had.trans address⟩

/-! ## Leaving -/

/-- A token stands for the node of its number, if that is known. -/
theorem resolve?_token_iff (d : Directory) (value : UInt32) (id : NodeId) :
    d.resolve? (.token value) = some id ↔
      value.toNat < 65536 ∧ (⟨UInt16.ofNat value.toNat⟩ : NodeId) = id ∧ d.nodes.contains id = true := by
  simp only [resolve?]
  split
  · rename_i small
    split
    · rename_i known
      constructor
      · intro same
        obtain rfl := Option.some.inj same
        exact ⟨small, rfl, known⟩
      · rintro ⟨-, rfl, -⟩
        rfl
    · rename_i unknown
      refine iff_of_false (by simp) ?_
      rintro ⟨-, rfl, known⟩
      exact unknown known
  · rename_i large
    exact iff_of_false (by simp) fun named => large named.1

/-- A node that leaves gives up its address, whoever has it, and no other address. -/
theorem resolve?_without_iff (d : Directory) (record : NodeRecord) {other : NodeId} (others : other ≠ id)
    (address : Address) :
    (d.without id record).resolve? address = some other ↔
      d.resolve? address = some other ∧ ∀ host, address = .ip host → record.address ≠ some host := by
  cases address with
  | ip host =>
    rw [owner_without]
    split
    · rename_i own
      simp [own]
    · rename_i spared
      simp [spared]
  | token value =>
    have stays : (d.without id record).nodes.contains other = d.nodes.contains other := by
      have kept := record?_without d id other record
      rw [if_neg others] at kept
      exact congrArg Option.isSome kept
    rw [resolve?_token_iff, resolve?_token_iff, stays]
    simp

/-- When a node leaves, all addresses that stand for other nodes go on standing for them, exactly if no other node was
given the address of the node after it and has it still. So it is wherever no two nodes register with one address. The
records of other nodes and the pairs of other nodes stay in any case. -/
theorem departure_local_iff (calls : List DirectoryCall) {id : NodeId} {record : NodeRecord}
    (known : (empty.performAll calls).record? id = some record) :
    let d := empty.performAll calls
    ∃ after, d.unregister id = .ok (record, after) ∧
      ((∀ address other, other ≠ id → d.resolve? address = some other → after.resolve? address = some other) ↔
        ¬ ∃ host other, other ≠ id ∧ record.address = some host ∧ Owns calls host other) ∧
      ((∀ r r' host, .register r ∈ calls → .register r' ∈ calls → r.address = some host → r'.address = some host →
          r.id = r'.id) →
        ∀ address other, other ≠ id → d.resolve? address = some other → after.resolve? address = some other) ∧
      (∀ other, other ≠ id → after.record? other = d.record? other) ∧
      ∀ a b, a ≠ id → b ≠ id → after.reaches a b = d.reaches a b := by
  intro d
  have local_iff : (∀ address other, other ≠ id → d.resolve? address = some other →
        (d.without id record).resolve? address = some other) ↔
      ¬ ∃ host other, other ≠ id ∧ record.address = some host ∧ Owns calls host other := by
    constructor
    · rintro stays ⟨host, other, others, own, owns⟩
      have resolved := stays (.ip host) other others ((resolve?_performAll_iff calls host other).2 owns)
      exact ((resolve?_without_iff d record others _).1 resolved).2 host rfl own
    · intro free address other others resolved
      refine (resolve?_without_iff d record others address).2 ⟨resolved, fun host same own => free ?_⟩
      rw [same] at resolved
      exact ⟨host, other, others, own, (resolve?_performAll_iff calls host other).1 resolved⟩
  refine ⟨d.without id record, unregister_of_known known, local_iff, fun distinct => local_iff.2 ?_,
    fun other others => ?_, fun a b notFirst notSecond => ?_⟩
  · rintro ⟨host, other, others, own, owns⟩
    obtain ⟨mine, member, same, had⟩ := registered_of_known known
    obtain ⟨before, _, after, split, ⟨taken, rfl, taker, has, -⟩, -⟩ := owns
    have later : .register taken ∈ calls := by
      rw [split]
      exact List.mem_append_right _ List.mem_cons_self
    exact others (taker.symm.trans ((distinct taken mine host later member has (had.trans own)).trans same))
  · rw [record?_without, if_neg others]
  · rw [Bool.eq_iff_iff, reaches_without]
    exact ⟨And.left, fun reached => ⟨reached, notFirst, notSecond⟩⟩

/-- A node registers with the address of another one, which leaves afterwards. -/
def takeover : List DirectoryCall :=
  [.register (terminalAt 2 (.ofOctets 10 0 0 9)), .register (terminalAt 3 (.ofOctets 10 0 0 9))]

/-- The address then stands for nobody, although the node that took it over is still registered with it. -/
theorem address_lost_at_takeover :
    let d := empty.performAll takeover
    d.record? ⟨2⟩ = some (terminalAt 2 (.ofOctets 10 0 0 9)) ∧ d.resolve? (.ip (.ofOctets 10 0 0 9)) = some ⟨3⟩ ∧
      ∃ after, d.unregister ⟨2⟩ = .ok (terminalAt 2 (.ofOctets 10 0 0 9), after) ∧
        after.record? ⟨3⟩ = some (terminalAt 3 (.ofOctets 10 0 0 9)) ∧
        after.resolve? (.ip (.ofOctets 10 0 0 9)) = none := by
  intro d
  exact ⟨rfl, rfl, _, rfl, rfl, rfl⟩

/-- Here the node that took the address over leaves first. The address is free then, and no node has it still. -/
theorem departure_local_iff_at_return :
    let calls := takeover ++ [.unregister ⟨3⟩, .register (terminalAt 4 (.ofOctets 10 0 0 4)), .connect ⟨4⟩ ⟨5⟩]
    let d := empty.performAll calls
    d.record? ⟨2⟩ = some (terminalAt 2 (.ofOctets 10 0 0 9)) ∧
      ∃ after, d.unregister ⟨2⟩ = .ok (terminalAt 2 (.ofOctets 10 0 0 9), after) ∧
        (∀ address other, other ≠ ⟨2⟩ → d.resolve? address = some other → after.resolve? address = some other) ∧
        after.record? ⟨4⟩ = some (terminalAt 4 (.ofOctets 10 0 0 4)) ∧ after.reaches ⟨4⟩ ⟨5⟩ = true := by
  intro calls d
  have known : d.record? ⟨2⟩ = some (terminalAt 2 (.ofOctets 10 0 0 9)) := rfl
  obtain ⟨after, left, stays, -, records, pairs⟩ := departure_local_iff calls known
  refine ⟨known, after, left, stays.2 ?_, (records ⟨4⟩ (by decide)).trans rfl,
    (pairs ⟨4⟩ ⟨5⟩ (by decide) (by decide)).trans rfl⟩
  rintro ⟨host, other, -, own, owns⟩
  have free : d.resolve? (.ip (.ofOctets 10 0 0 9)) = none := rfl
  obtain rfl : Ipv4.ofOctets 10 0 0 9 = host := Option.some.inj own
  rw [(resolve?_performAll_iff calls _ other).2 owns] at free
  cases free

end Directory
end Sidelink
