import Mathlib.Data.List.Nodup
import Sidelink.Proofs.Numbering

/-!
Connection ids over the life of a node. A table of connections is asked about flows and cleared any number of times
(`FlowCall`). Whatever it is asked, it can only give the next id to a flow that has none, or forget all flows
(`FlowTable.Follows`). So the ids are given in order from 1, none of them twice, until all 65534 are used up; from then
on flows that have an id keep it, and all others are refused (`FlowTable.lcids_allocated`).
-/
namespace Sidelink

/-! ## Calls -/

/-- A call on a table of connections. -/
inductive FlowCall where
  | lookup (key : FlowKey)
  | create (key : FlowKey)
  | lookupOrCreate (key : FlowKey)
  | clear
  deriving DecidableEq

inductive FlowAnswer where
  | found (lcid : Option Lcid)
  | given (lcid : Lcid)
  /-- The id of a flow, and whether it is a new one. -/
  | told (lcid : Lcid) (anew : Bool)
  /-- The ids are used up. -/
  | exhausted
  | cleared
  deriving DecidableEq

/-- The id that a flow is given with an answer. -/
def FlowAnswer.lcid? : FlowAnswer → Option Lcid
  | given lcid | told lcid _ => some lcid
  | found _ | exhausted | cleared => none

namespace FlowTable
variable {t t' : FlowTable} {key : FlowKey} {l : Lcid}

/-- What a table answers to a call, and the table afterwards. -/
def answer (t : FlowTable) : FlowCall → FlowAnswer × FlowTable
  | .lookup key => (.found (t.lookup? key), t)
  | .create key =>
    match t.create key with
    | some (lcid, t) => (.given lcid, t)
    | none => (.exhausted, t)
  | .lookupOrCreate key =>
    match t.lookupOrCreate key with
    | some (lcid, anew, t) => (.told lcid anew, t)
    | none => (.exhausted, t)
  | .clear => (.cleared, t.clear)

/-- The table after some calls. -/
def after (t : FlowTable) : List FlowCall → FlowTable
  | [] => t
  | call :: rest => (t.answer call).2.after rest

/-- The id that a call gives to a flow which has none. -/
def assignedAt (t : FlowTable) (call : FlowCall) : Option Lcid :=
  match call with
  | .create key | .lookupOrCreate key => if t.lookup? key = none then (t.answer call).1.lcid? else none
  | .lookup _ | .clear => none

/-- The ids that some calls give to flows which have none, in order. -/
def assigned (t : FlowTable) : List FlowCall → List Lcid
  | [] => []
  | call :: rest => (t.assignedAt call).toList ++ (t.answer call).2.assigned rest

theorem after_append (t : FlowTable) (calls more : List FlowCall) :
    t.after (calls ++ more) = (t.after calls).after more := by
  induction calls generalizing t with
  | nil => rfl
  | cons call rest ih => exact ih _

/-! ## What a call can do -/

theorem answer_of_known (known : t.lookup? key = some l) :
    t.answer (.create key) = (.given l, t) ∧ t.answer (.lookupOrCreate key) = (.told l false, t) := by
  simp [answer, create, lookupOrCreate, known]

theorem answer_of_room (missing : t.lookup? key = none) (room : t.next < 65535) :
    t.answer (.create key) = (.given ⟨UInt16.ofNat t.next⟩, t.added key) ∧
      t.answer (.lookupOrCreate key) = (.told ⟨UInt16.ofNat t.next⟩ true, t.added key) := by
  simp [answer, create, lookupOrCreate, missing, room, added]

theorem answer_of_full (missing : t.lookup? key = none) (full : ¬ t.next < 65535) :
    t.answer (.create key) = (.exhausted, t) ∧ t.answer (.lookupOrCreate key) = (.exhausted, t) := by
  simp [answer, create, lookupOrCreate, missing, full]

/-- Everything that a call can do to a table, and the id that it gives to a flow which has none. -/
inductive Follows (t : FlowTable) : Option Lcid → FlowTable → Prop
  | same : Follows t none t
  | added {key : FlowKey} (missing : t.lookup? key = none) (room : t.next < 65535) :
      Follows t (some ⟨UInt16.ofNat t.next⟩) (t.added key)
  | cleared : Follows t none t.clear

theorem follows_answer (t : FlowTable) (call : FlowCall) : t.Follows (t.assignedAt call) (t.answer call).2 := by
  -- Both ways to ask for an id do the same.
  have asked (key : FlowKey) : t.Follows (t.assignedAt (.create key)) (t.answer (.create key)).2 ∧
      t.Follows (t.assignedAt (.lookupOrCreate key)) (t.answer (.lookupOrCreate key)).2 := by
    simp only [assignedAt]
    cases known : t.lookup? key with
    | some l =>
      obtain ⟨created, told⟩ := answer_of_known known
      rw [created, told, if_neg (Option.some_ne_none l)]
      exact ⟨.same, .same⟩
    | none =>
      rw [if_pos rfl]
      by_cases room : t.next < 65535
      · obtain ⟨created, told⟩ := answer_of_room known room
        rw [created, told]
        exact ⟨.added known room, .added known room⟩
      · obtain ⟨created, told⟩ := answer_of_full known room
        rw [created, told]
        exact ⟨.same, .same⟩
  cases call with
  | lookup key => exact .same
  | create key => exact (asked key).1
  | lookupOrCreate key => exact (asked key).2
  | clear => exact .cleared

theorem Follows.valid {given : Option Lcid} (follows : t.Follows given t') (valid : t.Valid) : t'.Valid := by
  cases follows with
  | same => exact valid
  | added missing room => exact valid_added valid room _
  | cleared => exact valid_clear valid

/-- An id that is given is the next one, and the one after it is next then. -/
theorem Follows.counted {given : Option Lcid} (follows : t.Follows given t') (valid : t.Valid) :
    given.toList.map rank = List.range' t.next given.toList.length ∧ t'.next = t.next + given.toList.length := by
  cases follows with
  | same | cleared => exact ⟨rfl, rfl⟩
  | added missing room => exact ⟨congrArg ([·]) (rank_fresh valid), rfl⟩

/-- No flow loses its id, unless the table is cleared. -/
theorem lookup?_answer {call : FlowCall} (keeps : call ≠ .clear) (known : t.lookup? key = some l) :
    (t.answer call).2.lookup? key = some l := by
  cases call with
  | lookup key' => exact known
  | clear => exact absurd rfl keeps
  | create key' | lookupOrCreate key' =>
    cases other : t.lookup? key' with
    | some l' => simp only [answer_of_known other, known]
    | none =>
      by_cases room : t.next < 65535
      · simp only [answer_of_room other room, lookup?_added]
        rw [if_neg, known]
        rintro rfl
        rw [other] at known
        cases known
      · simp only [answer_of_full other room, known]

/-! ## Many calls -/

theorem valid_after (valid : t.Valid) (calls : List FlowCall) : (t.after calls).Valid := by
  induction calls generalizing t with
  | nil => exact valid
  | cons call rest ih => exact ih ((follows_answer t call).valid valid)

/-- The ids that are given are the next ones, in order. -/
theorem assigned_in_order (valid : t.Valid) (calls : List FlowCall) :
    (t.assigned calls).map rank = List.range' t.next (t.assigned calls).length ∧
      (t.after calls).next = t.next + (t.assigned calls).length := by
  induction calls generalizing t with
  | nil => exact ⟨rfl, rfl⟩
  | cons call rest ih =>
    have follows := follows_answer t call
    obtain ⟨now, onward⟩ := follows.counted valid
    obtain ⟨later, last⟩ := ih (follows.valid valid)
    simp only [assigned, after, List.map_append, List.length_append]
    rw [onward] at later last
    refine ⟨?_, by rw [last, Nat.add_assoc]⟩
    rw [now, later, List.range'_append_1]

theorem lookup?_after {calls : List FlowCall} (keeps : .clear ∉ calls) (known : t.lookup? key = some l) :
    (t.after calls).lookup? key = some l := by
  induction calls generalizing t with
  | nil => exact known
  | cons call rest ih =>
    have now : call ≠ .clear := fun clears => keeps (clears ▸ List.mem_cons_self)
    exact ih (fun later => keeps (List.mem_cons_of_mem _ later)) (lookup?_answer now known)

/-- How a table answers for a flow once `n` ids were given. -/
structure Answers (t : FlowTable) (n : Nat) : Prop where
  known : ∀ key l, t.lookup? key = some l →
    t.answer (.create key) = (.given l, t) ∧ t.answer (.lookupOrCreate key) = (.told l false, t)
  fresh : ∀ key, t.lookup? key = none → n < 0xFFFE → ∃ l t', l.value.toNat = n + 1 ∧ t'.lookup? key = some l ∧
    t.answer (.create key) = (.given l, t') ∧ t.answer (.lookupOrCreate key) = (.told l true, t')
  exhausted : ∀ key, t.lookup? key = none → n = 0xFFFE →
    t.answer (.create key) = (.exhausted, t) ∧ t.answer (.lookupOrCreate key) = (.exhausted, t)

theorem answers_of_next {n : Nat} (valid : t.Valid) (next : t.next = n + 1) : t.Answers n where
  known := fun key l known => answer_of_known known
  fresh := fun key missing room => by
    have there : (t.added key).lookup? key = some ⟨UInt16.ofNat t.next⟩ := by rw [lookup?_added, if_pos rfl]
    exact ⟨_, _, (rank_fresh valid).trans next, there, answer_of_room missing (by omega)⟩
  exhausted := fun key missing full => answer_of_full missing (by omega)

/-- Whatever a table is asked, and however often it is cleared: the ids that flows without one are given are 1, 2, 3 and
so on up to 65534 at most. As long as the table is not cleared, a flow keeps its id, which no other flow has. A flow with
an id is told that one, and a flow without one is given the next, until all are used up: then it is refused, and the table
stays as it is. -/
theorem lcids_allocated (calls : List FlowCall) :
    let t := empty.after calls
    let given := empty.assigned calls
    given.map (·.value.toNat) = List.range' 1 given.length ∧ given.length ≤ 0xFFFE ∧
      (∀ before between, calls = before ++ between → .clear ∉ between → ∀ key l,
        (empty.after before).lookup? key = some l → t.lookup? key = some l) ∧
      (∀ key key' l, t.lookup? key = some l → t.lookup? key' = some l → key = key') ∧ t.Answers given.length := by
  intro t given
  have valid : t.Valid := valid_after valid_empty calls
  obtain ⟨inOrder, next⟩ := assigned_in_order valid_empty calls
  have count : t.next = given.length + 1 := next.trans (Nat.add_comm 1 _)
  refine ⟨inOrder, ?_, ?_, fun key key' l found found' => valid.apart found found', answers_of_next valid count⟩
  · have top := valid.next_le
    omega
  · intro before between split keeps key l known
    have reached : t = (empty.after before).after between := by
      rw [← after_append, ← split]
    rw [reached]
    exact lookup?_after keeps known

/-! ## A table that is used up -/

/-- As long as there is room, each new flow is given an id, and no other flow is. -/
theorem assigned_new {keys : List FlowKey} (distinct : keys.Nodup) (missing : ∀ key ∈ keys, t.lookup? key = none)
    (room : t.next + keys.length ≤ 65535) :
    (t.assigned (keys.map .create)).length = keys.length ∧
      ∀ key, key ∉ keys → t.lookup? key = none → (t.after (keys.map .create)).lookup? key = none := by
  induction keys generalizing t with
  | nil => exact ⟨rfl, fun key _ unknown => unknown⟩
  | cons key rest ih =>
    obtain ⟨apart, distinct⟩ := List.nodup_cons.1 distinct
    rw [List.length_cons] at room
    have unknown := missing key List.mem_cons_self
    have created := (answer_of_room unknown (show t.next < 65535 by omega)).1
    have others {key' : FlowKey} (other : key' ≠ key) (unknown' : t.lookup? key' = none) :
        (t.added key).lookup? key' = none := by
      rw [lookup?_added, if_neg (Ne.symm other), unknown']
    obtain ⟨length, rest_unknown⟩ := ih (t := t.added key) distinct
      (fun key' member => others (fun same => apart (same ▸ member)) (missing key' (List.mem_cons_of_mem _ member)))
      (by rw [show (t.added key).next = t.next + 1 from rfl]; omega)
    refine ⟨?_, fun key' outside unknown' => ?_⟩
    · simp only [List.map_cons, assigned, assignedAt, unknown, if_pos, created, FlowAnswer.lcid?, Option.toList_some,
        List.singleton_append, List.length_cons, length]
    · rw [List.mem_cons, not_or] at outside
      simp only [List.map_cons, after, created]
      exact rest_unknown key' outside.2 (others outside.1 unknown')

/-- A number of flows. -/
def crowd (n : Nat) : List FlowKey := (List.range n).map fun i => .token 0 (UInt32.ofNat i)

theorem length_crowd (n : Nat) : (crowd n).length = n := by
  rw [crowd, List.length_map, List.length_range]

theorem nodup_crowd {n : Nat} (few : n ≤ 0xFFFF) : (crowd n).Nodup := by
  refine List.nodup_range.map_on fun i small j small' same => ?_
  have below := List.mem_range.1 small
  have below' := List.mem_range.1 small'
  have values := congrArg UInt32.toNat (FlowKey.token.inj same).2
  rw [UInt32.toNat_ofNat', UInt32.toNat_ofNat'] at values
  omega

/-- A crowd is given all ids. The first flow keeps its id, and one more flow is refused. -/
theorem lcids_allocated_at_crowd :
    let calls := (crowd 0xFFFE).map FlowCall.create
    let t := empty.after calls
    (empty.assigned calls).length = 0xFFFE ∧ t.lookup? (.token 0 0) = some .first ∧
      t.answer (.lookupOrCreate (.token 0 0)) = (.told .first false, t) ∧ t.lookup? (.token 1 0) = none ∧
      t.answer (.create (.token 1 0)) = (.exhausted, t) := by
  intro calls t
  have nothing (key : FlowKey) : empty.lookup? key = none := by simp [lookup?, empty]
  obtain ⟨count, others⟩ := assigned_new (nodup_crowd (by decide)) (fun key _ => nothing key)
    (show empty.next + (crowd 0xFFFE).length ≤ 65535 by rw [length_crowd]; decide)
  rw [length_crowd] at count
  obtain ⟨-, -, keeps, -, answers⟩ := lcids_allocated calls
  have split : calls = [.create (.token 0 0)] ++ calls.tail := by
    have starts (n : Nat) : ((crowd (n + 1)).map FlowCall.create).head? = some (.create (.token 0 0)) := by
      rw [crowd, List.range_succ_eq_map]
      rfl
    exact List.eq_cons_of_mem_head? (starts 0xFFFD)
  have later : .clear ∉ calls.tail := fun member => by
    obtain ⟨key, -, same⟩ := List.mem_map.1 (List.mem_of_mem_tail member)
    cases same
  have first : t.lookup? (.token 0 0) = some .first := by
    refine keeps _ _ split later _ _ ?_
    have opened : empty.after [.create (.token 0 0)] = empty.added (.token 0 0) :=
      congrArg Prod.snd (answer_of_room (nothing _) (by decide)).1
    rw [opened, lookup?_added, if_pos rfl]
    rfl
  have stranger : t.lookup? (.token 1 0) = none := by
    refine others _ (fun member => ?_) (nothing _)
    obtain ⟨i, -, same⟩ := List.mem_map.1 member
    cases (FlowKey.token.inj same).1
  exact ⟨count, first, (answers.known _ _ first).2, stranger, (answers.exhausted _ stranger count).1⟩

end FlowTable
end Sidelink
