import Sidelink.Proofs.Gates

/-!
A directory over any calls, those that it refuses included. An address stands only for a node that is registered with
it, nodes reach each other both ways, and a node that was removed is in no pair until it is connected again
(`Directory.resolution_sound`).

A directory changes its tables one after the other. `DirectoryCall.edit` tells each call as such a sequence of changes,
in which an error ends the call but takes back nothing. A call that ends with an error has changed nothing
(`DirectoryCall.edit_run`), so it can be told as a whole: by the directory after it, or by why it is refused.
-/
namespace Sidelink

/-- What can be asked of a directory. -/
inductive DirectoryCall where
  | register (record : NodeRecord)
  | unregister (id : NodeId)
  | connect (a b : NodeId)
  | move (id : NodeId) (position : Position)
  | serve (id serving : NodeId)

namespace Directory

/-! ## Calls -/

/-- A directory after a call, or why it refuses the call. -/
def call? (d : Directory) : DirectoryCall → Except DirectoryError Directory
  | .register record => d.register record
  | .unregister id => (d.unregister id).map (·.2)
  | .connect a b => .ok (d.connect a b)
  | .move id position => d.move id position
  | .serve id serving => d.serve id serving

/-- A directory after a call, the same one if it refuses the call. -/
def perform (d : Directory) (call : DirectoryCall) : Directory :=
  match d.call? call with
  | .ok after => after
  | .error _ => d

/-- A directory after some calls. -/
def performAll (d : Directory) (calls : List DirectoryCall) : Directory := calls.foldl perform d

end Directory

namespace DirectoryCall

/-! ## Calls in place -/

/-- Changes the record of a node in place. -/
def editRecord (id : NodeId) (f : NodeRecord → NodeRecord) : EStateM DirectoryError Directory Unit := do
  unless (← get).nodes.contains id do throw (.unknown id)
  modify fun d => { d with nodes := d.nodes.modify id f }

/-- A call as it changes the tables, one after the other. -/
def edit : DirectoryCall → EStateM DirectoryError Directory Unit
  | .register record => do
    if (← get).nodes.contains record.id then throw (.duplicate record.id)
    if let some host := record.address then
      modify fun d => { d with owners := d.owners.insert host record.id }
    modify fun d => { d with nodes := d.nodes.insert record.id record }
  | .unregister id => do
    let found := (← get).nodes.get? id
    modify fun d => { d with nodes := d.nodes.erase id }
    let some record := found | throw (.unknown id)
    if let some host := record.address then modify fun d => { d with owners := d.owners.erase host }
    modify fun d => { d with reach := d.reach.filter fun pair _ => pair.1 ≠ id && pair.2 ≠ id }
  | .connect a b => do
    modify fun d => { d with reach := d.reach.add (a, b) }
    modify fun d => { d with reach := d.reach.add (b, a) }
  | .move id position => editRecord id fun r => { r with position := some position }
  | .serve id serving => editRecord id fun r => { r with serving := some serving }

theorem editRecord_run (d : Directory) (id : NodeId) (f : NodeRecord → NodeRecord) :
    (editRecord id f).run d =
      match d.update id f with
      | .ok after => .ok () after
      | .error error => .error error d := by
  unfold Directory.update
  cases known : d.nodes.contains id <;> simp [editRecord, known]

/-- A call in place leaves the directory after the call, or ends with the error for which it is refused and leaves the
directory as it was. -/
theorem edit_run (d : Directory) (call : DirectoryCall) :
    call.edit.run d =
      match d.call? call with
      | .ok after => .ok () after
      | .error error => .error error d := by
  cases call with
  | register record =>
    simp only [edit, Directory.call?, Directory.register]
    cases known : d.nodes.contains record.id with
    | true => simp [known]
    | false => cases address : record.address <;> simp [known]
  | unregister id =>
    simp only [edit, Directory.call?, Directory.unregister]
    cases found : d.nodes.get? id with
    | none =>
      -- The record is taken out before its absence is noticed.
      simp [found, SortedMap.erase_of_get?_eq_none found, Except.map]
    | some record => cases address : record.address <;> simp [found, address, Except.map]
  | connect a b => rfl
  | move id position => exact editRecord_run d id _
  | serve id serving => exact editRecord_run d id _

end DirectoryCall

namespace Directory
variable {d : Directory}

/-! ## What each call changes -/

/-- A directory with one more record. -/
def including (d : Directory) (record : NodeRecord) : Directory where
  nodes := d.nodes.insert record.id record
  owners := record.address.elim d.owners fun host => d.owners.insert host record.id
  reach := d.reach

/-- A directory without a node that has some record. -/
def without (d : Directory) (id : NodeId) (record : NodeRecord) : Directory where
  nodes := d.nodes.erase id
  owners := record.address.elim d.owners d.owners.erase
  reach := d.reach.filter fun pair _ => pair.1 ≠ id && pair.2 ≠ id

theorem register_of_unknown {record : NodeRecord} (unknown : d.record? record.id = none) :
    d.register record = .ok (d.including record) := by
  rw [register, SortedMap.contains, show d.nodes.get? record.id = none from unknown]
  cases address : record.address <;> simp [including, address]

theorem unregister_of_known {id : NodeId} {record : NodeRecord} (known : d.record? id = some record) :
    d.unregister id = .ok (record, d.without id record) := by
  rw [unregister, show d.nodes.get? id = some record from known]
  cases address : record.address <;> simp [without, address]

theorem perform_register (d : Directory) (record : NodeRecord) :
    d.perform (.register record) = if d.record? record.id = none then d.including record else d := by
  split
  · rename_i unknown
    simp only [perform, call?, register_of_unknown unknown]
  · rename_i known
    obtain ⟨other, found⟩ := Option.ne_none_iff_exists'.1 known
    have refused : d.register record = .error (.duplicate record.id) :=
      if_pos ((SortedMap.contains_eq_true_iff _ _).2 ⟨other, found⟩)
    simp only [perform, call?, refused]

theorem perform_unregister (d : Directory) (id : NodeId) :
    d.perform (.unregister id) = (d.record? id).elim d (d.without id) := by
  cases found : d.record? id with
  | none =>
    have refused : d.unregister id = .error (.unknown id) := by
      rw [unregister, show d.nodes.get? id = none from found]
    simp only [perform, call?, refused, Except.map, Option.elim]
  | some record => simp only [perform, call?, unregister_of_known found, Except.map, Option.elim]

/-- A node that moves, or that another node serves from now on, leaves all else as it is. -/
theorem sameNodes_perform {call : DirectoryCall}
    (stays : (∃ id position, call = .move id position) ∨ ∃ id serving, call = .serve id serving) :
    d.SameNodes (d.perform call) := by
  unfold perform
  split
  · rename_i after made
    rcases stays with ⟨id, position, rfl⟩ | ⟨id, serving, rfl⟩
    · exact .of_move made
    · exact .of_serve made
  · exact .refl d

/-! ## What each call shows -/

theorem record?_including (d : Directory) (record : NodeRecord) (id : NodeId) :
    (d.including record).record? id = if id = record.id then some record else d.record? id :=
  SortedMap.get?_insert_eq_ite ..

theorem record?_without (d : Directory) (id other : NodeId) (record : NodeRecord) :
    (d.without id record).record? other = if other = id then none else d.record? other :=
  SortedMap.get?_erase_eq_ite ..

theorem owner_including (d : Directory) (record : NodeRecord) (host : Ipv4) :
    (d.including record).resolve? (.ip host) =
      if record.address = some host then some record.id else d.resolve? (.ip host) := by
  cases address : record.address with
  | none => simp [resolve?, including, address]
  | some ip => simp [resolve?, including, address, SortedMap.get?_insert_eq_ite, eq_comm]

theorem owner_without (d : Directory) (id : NodeId) (record : NodeRecord) (host : Ipv4) :
    (d.without id record).resolve? (.ip host) =
      if record.address = some host then none else d.resolve? (.ip host) := by
  cases address : record.address with
  | none => simp [resolve?, without, address]
  | some ip => simp [resolve?, without, address, SortedMap.get?_erase_eq_ite, eq_comm]

theorem reaches_without (d : Directory) (id : NodeId) (record : NodeRecord) (a b : NodeId) :
    (d.without id record).reaches a b = true ↔ d.reaches a b = true ∧ a ≠ id ∧ b ≠ id := by
  simp only [reaches, without]
  rw [SortedMap.contains_filter_keys d.reach (fun pair => pair.1 ≠ id && pair.2 ≠ id) (a, b)]
  simp

theorem reaches_connect (d : Directory) (a b x y : NodeId) :
    (d.connect a b).reaches x y = true ↔ x = b ∧ y = a ∨ x = a ∧ y = b ∨ d.reaches x y = true := by
  simp only [reaches, connect, SortedMap.contains_add, Prod.mk.injEq]

/-! ## What all calls keep -/

/-- Whether addresses stand for nodes that have them, records are filed under their nodes, and pairs go both ways. -/
structure Sound (d : Directory) : Prop where
  owners : ∀ host id, d.resolve? (.ip host) = some id →
    ∃ record, d.record? id = some record ∧ record.address = some host
  named : ∀ id record, d.record? id = some record → record.id = id
  symmetric : ∀ a b, d.reaches a b = true → d.reaches b a = true

theorem sound_empty : Sound empty where
  owners := fun host id resolved => by cases resolved
  named := fun id record found => by cases found
  symmetric := fun a b reached => by cases reached

theorem Sound.including (sound : d.Sound) {record : NodeRecord} (unknown : d.record? record.id = none) :
    (d.including record).Sound where
  owners := fun host id resolved => by
    rw [owner_including] at resolved
    rw [record?_including]
    split at resolved
    · rename_i own
      rw [if_pos (Option.some.inj resolved).symm]
      exact ⟨record, rfl, own⟩
    · obtain ⟨other, found, has⟩ := sound.owners host id resolved
      rw [if_neg fun same => by rw [same, unknown] at found; cases found]
      exact ⟨other, found, has⟩
  named := fun id other found => by
    rw [record?_including] at found
    split at found
    · rename_i same
      rw [same, Option.some.inj found]
    · exact sound.named id other found
  symmetric := sound.symmetric

theorem Sound.without (sound : d.Sound) {id : NodeId} {record : NodeRecord} (known : d.record? id = some record) :
    (d.without id record).Sound where
  owners := fun host owner resolved => by
    rw [owner_without] at resolved
    rw [record?_without]
    split at resolved
    · cases resolved
    · rename_i other
      obtain ⟨found, has, address⟩ := sound.owners host owner resolved
      rw [if_neg fun same => by
        rw [same, known] at has
        exact other (Option.some.inj has ▸ address)]
      exact ⟨found, has, address⟩
  named := fun other found has => by
    rw [record?_without] at has
    split at has
    · cases has
    · exact sound.named other found has
  symmetric := fun a b reached => by
    rw [reaches_without] at reached ⊢
    exact ⟨sound.symmetric a b reached.1, reached.2.2, reached.2.1⟩

theorem Sound.connect (sound : d.Sound) (a b : NodeId) : (d.connect a b).Sound where
  owners := sound.owners
  named := sound.named
  symmetric := fun x y reached => by
    rw [reaches_connect] at reached ⊢
    rcases reached with ⟨here, there⟩ | ⟨here, there⟩ | before
    · exact Or.inr (Or.inl ⟨there, here⟩)
    · exact Or.inl ⟨there, here⟩
    · exact Or.inr (Or.inr (sound.symmetric x y before))

theorem SameNodes.symm {d' : Directory} (same : d.SameNodes d') : d'.SameNodes d :=
  ⟨fun id => (same.nodes id).symm, same.owners.symm, same.reach.symm⟩

/-- A record is still there, under the same node and with the same address. -/
theorem SameNodes.record? {d' : Directory} (same : d.SameNodes d') {id : NodeId} {record : NodeRecord}
    (found : d.record? id = some record) :
    ∃ after, d'.record? id = some after ∧ after.id = record.id ∧ after.address = record.address := by
  have lasts := same.nodes id
  rw [show d.nodes.get? id = some record from found] at lasts
  obtain ⟨after, here, equal⟩ := Option.map_eq_some_iff.1 lasts
  have node := congrArg NodeRecord.id equal
  have address := congrArg NodeRecord.address equal
  exact ⟨after, here, node, address⟩

theorem Sound.sameNodes {d' : Directory} (sound : d.Sound) (same : d.SameNodes d') : d'.Sound where
  owners := fun host id resolved => by
    rw [same.resolve?_eq] at resolved
    obtain ⟨record, found, has⟩ := sound.owners host id resolved
    obtain ⟨after, here, -, address⟩ := same.record? found
    exact ⟨after, here, address.trans has⟩
  named := fun id record found => by
    obtain ⟨before, was, node, -⟩ := same.symm.record? found
    exact node.symm.trans (sound.named id before was)
  symmetric := fun a b reached => by
    simp only [reaches, same.reach] at reached ⊢
    exact sound.symmetric a b reached

theorem Sound.perform (sound : d.Sound) (call : DirectoryCall) : (d.perform call).Sound := by
  cases call with
  | register record =>
    rw [perform_register]
    split
    · rename_i unknown
      exact sound.including unknown
    · exact sound
  | unregister id =>
    rw [perform_unregister]
    cases known : d.record? id with
    | none => exact sound
    | some record => exact sound.without known
  | connect a b => exact sound.connect a b
  | move id position => exact sound.sameNodes (sameNodes_perform (.inl ⟨id, position, rfl⟩))
  | serve id serving => exact sound.sameNodes (sameNodes_perform (.inr ⟨id, serving, rfl⟩))

theorem Sound.performAll (sound : d.Sound) (calls : List DirectoryCall) : (d.performAll calls).Sound := by
  induction calls generalizing d with
  | nil => exact sound
  | cons call rest ih => exact ih (sound.perform call)

/-! ## Pairs -/

/-- A call adds no pair but the one that it connects. -/
theorem reaches_perform {call : DirectoryCall} {a b : NodeId} (reached : (d.perform call).reaches a b = true) :
    d.reaches a b = true ∨ call = .connect a b ∨ call = .connect b a := by
  cases call with
  | register record =>
    rw [perform_register] at reached
    split at reached <;> exact Or.inl reached
  | unregister id =>
    rw [perform_unregister] at reached
    cases known : d.record? id with
    | none =>
      rw [known] at reached
      exact Or.inl reached
    | some record =>
      rw [known] at reached
      exact Or.inl ((reaches_without d id record a b).1 reached).1
  | connect x y =>
    rcases (reaches_connect d x y a b).1 reached with ⟨rfl, rfl⟩ | ⟨rfl, rfl⟩ | before
    · exact Or.inr (Or.inr rfl)
    · exact Or.inr (Or.inl rfl)
    · exact Or.inl before
  | move id position =>
    have same := (sameNodes_perform (d := d) (.inl ⟨id, position, rfl⟩)).reach
    rw [reaches, same] at reached
    exact Or.inl reached
  | serve id serving =>
    have same := (sameNodes_perform (d := d) (.inr ⟨id, serving, rfl⟩)).reach
    rw [reaches, same] at reached
    exact Or.inl reached

theorem reaches_performAll {calls : List DirectoryCall} {a b : NodeId}
    (reached : (d.performAll calls).reaches a b = true) :
    d.reaches a b = true ∨ .connect a b ∈ calls ∨ .connect b a ∈ calls := by
  induction calls generalizing d with
  | nil => exact Or.inl reached
  | cons call rest ih =>
    rcases ih reached with before | later | later
    · rcases reaches_perform before with earlier | rfl | rfl
      · exact Or.inl earlier
      · exact Or.inr (Or.inl List.mem_cons_self)
      · exact Or.inr (Or.inr List.mem_cons_self)
    · exact Or.inr (Or.inl (List.mem_cons_of_mem _ later))
    · exact Or.inr (Or.inr (List.mem_cons_of_mem _ later))

/-- A node that was removed is in a pair only if it was connected again since. -/
theorem connected_since {id a b : NodeId} {record : NodeRecord} (known : d.record? id = some record)
    (calls : List DirectoryCall) (reached : ((d.perform (.unregister id)).performAll calls).reaches a b = true)
    (in_pair : a = id ∨ b = id) : .connect a b ∈ calls ∨ .connect b a ∈ calls := by
  refine (reaches_performAll reached).resolve_left fun left => ?_
  rw [perform_unregister, known] at left
  obtain ⟨-, notFirst, notSecond⟩ := (reaches_without d id record a b).1 left
  exact in_pair.elim notFirst notSecond

/-- Over any calls on a directory, those included that it refuses: an address stands only for a node that is registered
with it; nodes reach each other both ways; from the moment that a node is removed, it is in a pair only if it was
connected again since; and a call that is refused leaves all tables as they were. -/
theorem resolution_sound (calls : List DirectoryCall) :
    let d := empty.performAll calls
    (∀ host id, d.resolve? (.ip host) = some id →
        ∃ record, d.record? id = some record ∧ record.id = id ∧ record.address = some host) ∧
      (∀ a b, d.reaches a b = d.reaches b a) ∧
      (∀ before id after record, calls = before ++ .unregister id :: after →
        (empty.performAll before).record? id = some record →
        ∀ other, d.reaches id other = true ∨ d.reaches other id = true →
          .connect id other ∈ after ∨ .connect other id ∈ after) ∧
      ∀ call error, d.call? call = .error error → call.edit.run d = .error error d := by
  intro d
  have sound : d.Sound := sound_empty.performAll calls
  refine ⟨fun host id resolved => ?_, fun a b => ?_, fun before id after record split known other reached => ?_,
    fun call error refused => ?_⟩
  · obtain ⟨record, found, has⟩ := sound.owners host id resolved
    exact ⟨record, found, sound.named id record found, has⟩
  · exact Bool.eq_iff_iff.2 ⟨sound.symmetric a b, sound.symmetric b a⟩
  · have state : d = ((empty.performAll before).perform (.unregister id)).performAll after := by
      rw [show d = empty.performAll calls from rfl, split, performAll, List.foldl_append]
      rfl
    rw [state] at reached
    rcases reached with forth | back
    · exact connected_since known after forth (Or.inl rfl)
    · exact (connected_since known after back (Or.inr rfl)).symm
  · rw [DirectoryCall.edit_run, refused]

/-- A terminal under an address. -/
def terminalAt (id : UInt16) (host : Ipv4) : NodeRecord := ⟨⟨id⟩, .terminal, some host, none, none⟩

/-- Two nodes register one address; the second leaves, comes back under another address and finds a new peer. -/
def rehoming : List DirectoryCall :=
  [.register (terminalAt 2 (.ofOctets 10 0 0 2)), .connect ⟨2⟩ ⟨3⟩, .register (terminalAt 3 (.ofOctets 10 0 0 2)),
    .unregister ⟨3⟩, .register (terminalAt 3 (.ofOctets 10 0 0 3)), .register (terminalAt 2 (.ofOctets 10 0 0 4)),
    .connect ⟨3⟩ ⟨4⟩]

theorem resolution_sound_at_rehoming :
    let d := empty.performAll rehoming
    d.resolve? (.ip (.ofOctets 10 0 0 3)) = some ⟨3⟩ ∧
      (∃ record, d.record? ⟨3⟩ = some record ∧ record.id = ⟨3⟩ ∧ record.address = some (.ofOctets 10 0 0 3)) ∧
      d.reaches ⟨4⟩ ⟨3⟩ = d.reaches ⟨3⟩ ⟨4⟩ ∧
      rehoming = rehoming.take 3 ++ .unregister ⟨3⟩ :: rehoming.drop 4 ∧
      (empty.performAll (rehoming.take 3)).record? ⟨3⟩ = some (terminalAt 3 (.ofOctets 10 0 0 2)) ∧
      d.reaches ⟨3⟩ ⟨4⟩ = true ∧
      (.connect ⟨3⟩ ⟨4⟩ ∈ rehoming.drop 4 ∨ .connect ⟨4⟩ ⟨3⟩ ∈ rehoming.drop 4) ∧
      d.call? (.serve ⟨9⟩ ⟨2⟩) = .error (.unknown ⟨9⟩) ∧
      (DirectoryCall.serve ⟨9⟩ ⟨2⟩).edit.run d = .error (.unknown ⟨9⟩) d := by
  obtain ⟨resolution, symmetric, since, unchanged⟩ := resolution_sound rehoming
  have resolved : (empty.performAll rehoming).resolve? (.ip (.ofOctets 10 0 0 3)) = some ⟨3⟩ := rfl
  have known : (empty.performAll (rehoming.take 3)).record? ⟨3⟩ = some (terminalAt 3 (.ofOctets 10 0 0 2)) := rfl
  have reached : (empty.performAll rehoming).reaches ⟨3⟩ ⟨4⟩ = true := rfl
  have refused : (empty.performAll rehoming).call? (.serve ⟨9⟩ ⟨2⟩) = .error (.unknown ⟨9⟩) := rfl
  exact ⟨resolved, resolution _ _ resolved, symmetric _ _, rfl, known, reached,
    since _ _ _ _ rfl known ⟨4⟩ (Or.inl reached), refused, unchanged _ _ refused⟩

end Directory
end Sidelink
