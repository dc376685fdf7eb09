import Sidelink.Proofs.Connections
import Sidelink.Proofs.Gates

/-!
Packets that are refused for a fault. A packet whose hint stands for no delivery mode is refused before anything else is
looked at, and one that has a route but no connection is refused when all connection ids are used up
(`DataPlane.Verdict`). An id is used up with the first packet of its connection, so all are used up when all were given
to packets (`DataPlane.used_up_iff`). A refused packet moves the clock and is counted, and leaves no other trace
(`DataPlane.refused_iff`).
-/
namespace Sidelink

namespace DeliveryMode

theorem ofCode?_eq_none_iff (code : Nat) : ofCode? code = none ↔ 2 < code := by
  match code with
  | 0 | 1 | 2 => simp [ofCode?]
  | code + 3 => simp [ofCode?]

end DeliveryMode

namespace FlowTable
variable {t : FlowTable} {key : FlowKey}

theorem lookupOrCreate_eq_none_iff : t.lookupOrCreate key = none ↔ t.lookup? key = none ∧ 65535 ≤ t.next := by
  unfold lookupOrCreate
  cases t.lookup? key with
  | some l => simp
  | none => simp

end FlowTable

/-! ## Ids that are used up -/

namespace Connections
variable {c c' : Connections} {settings : CompressionSettings} {answers : List (FlowKey × Lcid × Option UInt32)}

/-- A step that uses an id up gives it to a packet, together with a number. -/
theorem next_step (valid : c.flows.Valid) (step : c.Step settings answers c') :
    c'.flows.next = c.flows.next ∨ c'.flows.next = c.flows.next + 1 ∧
      ∃ key l sn, (key, l, some sn) ∈ answers ∧ rank l = c.flows.next := by
  cases step with
  | same | routeless | control => exact Or.inl rfl
  | issue created numbered =>
    rcases FlowTable.create_cases created with ⟨-, rfl⟩ | ⟨-, -, rfl, rfl⟩
    · exact Or.inl rfl
    · exact Or.inr ⟨rfl, _, _, _, List.mem_cons_self, FlowTable.rank_fresh valid⟩

end Connections

namespace DataPlane
variable {node : NodeId} {role : Role} {settings : PlaneSettings} {p : DataPlane} {ms : List Moment}

/-- Whether a connection was given to a packet of a run, with a number. -/
def Given (p : DataPlane) (ms : List Moment) (l : Lcid) : Prop :=
  ∃ x ∈ p.dispatched ms, x.2.lcid = l ∧ x.2.sn ≠ none

/-- All ids below the next one were given to packets, or were used up before the run. -/
theorem given_of_lt (consistent : p.connections.Consistent) {l : Lcid} (above : p.flows.next ≤ rank l)
    (below : rank l < (p.after ms).flows.next) : p.Given ms l := by
  induction ms generalizing p with
  | nil => exact absurd below (Nat.not_lt.2 above)
  | cons m rest ih =>
    have later (consistent' : (p.react m).plane.connections.Consistent)
        (above' : (p.react m).plane.flows.next ≤ rank l) : p.Given (m :: rest) l := by
      obtain ⟨x, member, own⟩ := ih consistent' above' below
      exact ⟨x, List.mem_append_right _ member, own⟩
    by_cases leaves : m.stimulus = .departed
    · obtain ⟨directory, timers, stimulus⟩ := m
      subst leaves
      exact later (connections_departed p ▸ .of_clear consistent.valid) above
    · have step := connections_react p leaves
      rcases Connections.next_step consistent.valid step with same | ⟨next, key, l', sn, member, first⟩
      · exact later (consistent.step step) (Nat.le_trans (Nat.le_of_eq same) above)
      · by_cases own : rank l = p.flows.next
        · obtain ⟨x, dispatched, answered⟩ := List.mem_map.1 member
          obtain ⟨-, lcid, number⟩ : _ ∧ x.2.lcid = l' ∧ x.2.sn = some sn := by
            simpa only [answer, Prod.mk.injEq] using answered
          refine ⟨x, List.mem_append_left _ dispatched, ?_, by rw [number]; exact Option.some_ne_none _⟩
          exact lcid.trans (Ranked.rank_inj (first.trans own.symm))
        · refine later (consistent.step step) ?_
          change (p.react m).plane.flows.next = p.flows.next + 1 at next
          omega

/-- A connection that was given to a packet has an id below the next one. -/
theorem Given.lt (made : new node role settings = .ok p) {l : Lcid} (given : p.Given ms l) :
    rank l < (p.after ms).flows.next := by
  obtain ⟨x, dispatched, rfl, numbered⟩ := given
  obtain ⟨sn, number⟩ := Option.ne_none_iff_exists'.1 numbered
  obtain ⟨effects, ⟨issued, -, -⟩, sound⟩ := sound_run made ms
  have told : (x.1, x.2.lcid, sn) ∈ issuedOf effects := by
    rw [issued]
    exact List.mem_filterMap.2 ⟨x, dispatched, by rw [Dispatch.numbered?, number]; rfl⟩
  exact (sound.accounts.issued told).2.1

/-- No id is left exactly if all that there are were given to packets. -/
theorem used_up_iff (made : new node role settings = .ok p) (ms : List Moment) :
    65535 ≤ (p.after ms).flows.next ↔ ∀ l : Lcid, l ≠ .control → l ≠ .notFound → p.Given ms l := by
  constructor
  · intro full l traffic known
    have first : p.flows.next = 1 := by
      obtain ⟨-, rfl⟩ := eq_of_new made
      rfl
    have positive : rank l ≠ 0 := fun zero => traffic (Ranked.rank_inj zero)
    have top : rank l ≠ 65535 := fun last => known (Ranked.rank_inj last)
    have bound := l.rank_lt
    exact given_of_lt (consistent_new made) (by omega) (by omega)
  · intro all
    have last := (all ⟨0xFFFE⟩ (by decide) (by decide)).lt made
    exact last

/-! ## Packets that are refused -/

variable {directory : Directory} {timers : Timers} {packet : Packet} {hint : String}

/-- The code that a hint stands for. -/
def hintCode (p : DataPlane) (hint : String) : UInt8 := (p.settings.profiles.classify hint).modeCode

/-- What becomes of a packet, as far as faults go. -/
inductive Verdict (p : DataPlane) (directory : Directory) (timers : Timers) (packet : Packet) (hint : String) :
    Submission → Prop
  | unknownMode (high : 2 < (p.hintCode hint).toNat) :
      Verdict p directory timers packet hint
        ⟨.error (.fault (.unknownMode (p.hintCode hint) hint)), p.noted timers.now, timers⟩
  | exhausted (low : ¬ 2 < (p.hintCode hint).toNat)
      (routed : ∃ route, (p.view directory).route p.role packet = .ok route)
      (full : p.flows.lookupOrCreate (p.flowKey directory packet) = none) :
      Verdict p directory timers packet hint ⟨.error (.fault .lcidsExhausted), p.noted timers.now, timers⟩
  | taken {s : Submission} (low : ¬ 2 < (p.hintCode hint).toNat)
      (open_ : (∃ route, (p.view directory).route p.role packet = .ok route) →
        p.flows.lookupOrCreate (p.flowKey directory packet) ≠ none)
      (sound : ∀ fault, s.result ≠ .error (.fault fault)) : Verdict p directory timers packet hint s

theorem verdict_submit (p : DataPlane) (directory : Directory) (timers : Timers) (packet : Packet) (hint : String) :
    p.Verdict directory timers packet hint (p.submit directory timers packet hint) := by
  have low {mode : DeliveryMode} (known : DeliveryMode.ofCode? (p.hintCode hint).toNat = some mode) :
      ¬ 2 < (p.hintCode hint).toNat := fun high =>
    Option.some_ne_none mode (known.symm.trans ((DeliveryMode.ofCode?_eq_none_iff _).2 high))
  have open_ {given : Lcid × Bool × FlowTable}
      (created : p.flows.lookupOrCreate (p.flowKey directory packet) = some given) :
      p.flows.lookupOrCreate (p.flowKey directory packet) ≠ none := fun full =>
    Option.some_ne_none given (created.symm.trans full)
  rcases submit_spec p directory timers packet hint with ⟨missing, -⟩ | ⟨q, route, unit, found, -, sent⟩
  · have rejection := rejection_of_unnumbered missing
    generalize p.submit directory timers packet hint = submission at rejection ⊢
    cases rejection with
    | unknownMode unknown => exact .unknownMode ((DeliveryMode.ofCode?_eq_none_iff _).1 unknown)
    | routeless known unrouted =>
      refine .taken (low known) ?_ fun fault refused => by cases refused
      rintro ⟨route, routed⟩
      rw [unrouted] at routed
      cases routed
    | exhausted known routed full => exact .exhausted (low known) ⟨_, routed⟩ full
    | numberless known routed created =>
      exact .taken (low known) (fun _ => open_ created) fun fault refused => by cases refused
  · obtain ⟨known, routed, anew, flows, entity, created, -⟩ := numbered?_eq_some found
    rw [sent]
    exact .taken (low known) (fun _ => open_ created) fun fault refused => by cases refused

/-- The packets that are refused, the fault of each, and what is left of one: the clock moves and the packet is counted.
A packet is refused for its hint whatever else there is to say about it. It is refused for want of an id if it has a
route, its flow has no connection, and all ids were given to packets before. -/
theorem refused_iff (made : new node role settings = .ok p) (ms : List Moment) (directory : Directory) (timers : Timers)
    (packet : Packet) (hint : String) :
    let q := p.after ms
    let s := q.submit directory timers packet hint
    let code := (settings.profiles.classify hint).modeCode
    (∀ fault, s.result = .error (.fault fault) →
      s.plane =
          { q with now := max q.now timers.now, counters := { q.counters with submitted := q.counters.submitted + 1 } } ∧
        s.timers = timers ∧ (q.react ⟨directory, timers, .packet packet hint⟩).sent = []) ∧
      ∀ fault, s.result = .error (.fault fault) ↔
        2 < code.toNat ∧ fault = .unknownMode code hint ∨
          ¬ 2 < code.toNat ∧ fault = .lcidsExhausted ∧ (∃ route, (q.view directory).route role packet = .ok route) ∧
            q.flows.lookup? (q.flowKey directory packet) = none ∧
            ∀ l : Lcid, l ≠ .control → l ≠ .notFound → ∃ x ∈ p.dispatched ms, x.2.lcid = l ∧ x.2.sn ≠ none := by
  intro q s code
  have codeIs : q.hintCode hint = code := by
    obtain ⟨effects, -, sound⟩ := sound_run made ms
    rw [hintCode, sound.served.settings_eq]
  have roleIs : q.role = role := (role_after p ms).trans (role_new made)
  have full : q.flows.lookupOrCreate (q.flowKey directory packet) = none ↔ _ :=
    FlowTable.lookupOrCreate_eq_none_iff.trans (and_congr_right fun _ => used_up_iff made ms)
  have verdict : q.Verdict directory timers packet hint s := verdict_submit q directory timers packet hint
  rw [← codeIs, ← roleIs]
  refine ⟨fun fault refused => ?_, fun fault => ?_⟩
  · generalize s = s at verdict refused
    cases verdict with
    | unknownMode high => exact ⟨rfl, rfl, rfl⟩
    | exhausted low routed none_left => exact ⟨rfl, rfl, rfl⟩
    | taken low open_ sound => exact absurd refused (sound fault)
  · generalize s = s at verdict
    cases verdict with
    | unknownMode high =>
      simp only [high, not_true_eq_false, false_and, or_false, true_and, Except.error.injEq, SubmitError.fault.injEq]
      exact eq_comm
    | exhausted low routed none_left =>
      have told := full.1 none_left
      simp only [low, false_and, false_or, not_false_eq_true, true_and, Except.error.injEq, SubmitError.fault.injEq]
      exact ⟨fun own => ⟨own.symm, routed, told⟩, fun own => own.1.symm⟩
    | taken low open_ sound =>
      refine iff_of_false (sound fault) ?_
      rintro (⟨high, -⟩ | ⟨-, -, routed, unknown⟩)
      · exact low high
      · exact open_ routed (full.2 unknown)

/-- Packets with the hint "odd" are to be sent in a mode that does not exist. -/
def oddModes : PlaneSettings :=
  { PlaneSettings.default with profiles := ⟨[("odd", ⟨.vod, .streaming, 7, 2⟩)], ProfileTable.defaultFallback⟩ }

def odd : DataPlane := ((new ⟨1⟩ .peerDirect oddModes).toOption).getD default

theorem new_odd : new ⟨1⟩ .peerDirect oddModes = .ok odd := rfl

/-- The packet is refused while the path of its peer is switched and other packets wait. -/
theorem refused_iff_at_odd :
    let q := odd.after switchover
    let s := q.submit .pair ⟨5, 0, []⟩ .hello "odd"
    new ⟨1⟩ .peerDirect oddModes = .ok odd ∧ s.result = .error (.fault (.unknownMode 7 "odd")) ∧
      s.plane = { q with now := 5, counters := { q.counters with submitted := 4 } } ∧ s.timers = ⟨5, 0, []⟩ := by
  intro q s
  have code : (oddModes.profiles.classify "odd").modeCode = 7 := by decide +kernel
  obtain ⟨atomic, exact_⟩ := refused_iff new_odd switchover .pair ⟨5, 0, []⟩ .hello "odd"
  rw [code] at exact_
  have refused : s.result = .error (.fault (.unknownMode 7 "odd")) := (exact_ _).2 (Or.inl ⟨by decide, rfl⟩)
  obtain ⟨plane, timers, -⟩ := atomic _ refused
  have now : max q.now 5 = 5 := by decide +kernel
  have submitted : q.counters.submitted + 1 = 4 := by decide +kernel
  refine ⟨new_odd, refused, plane.trans ?_, timers⟩
  rw [now, submitted]

end DataPlane
end Sidelink
