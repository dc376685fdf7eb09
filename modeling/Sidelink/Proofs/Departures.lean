import Sidelink.Proofs.Connections
import Sidelink.Proofs.Origins

/-!
What a terminal still sends once a peer has departed. Its buffers are gone then, except those on the multicast path.
Whatever happens next, the frames that it sends are those that waited in these buffers and those of units that buffers
take later (`Chain.conserves`). A number that was given before is never given again, so a packet that was submitted
before is taken later only if it waits for a switch of its peer (`DataPlane.departed_unsent`).
-/
namespace Sidelink

/-- Whatever a buffer sends, it held before or took on the way, and so it is with what it holds in the end. -/
theorem Chain.conserves {allowed : Directory → Prop} {a b : Stage} {es : List Effect} (chain : Chain allowed a es b)
    (cuts : a.plane.Cuts) (key : EntityKey) :
    (sentAt key es ++ b.plane.waiting key).Sublist
      (a.plane.waiting key ++ admittedAt a.plane.node a.plane.settings.link key es) := by
  induction chain with
  | refl s => simp [sentAt, admittedAt]
  | @step a b c es fs directory ok change rest ih =>
    obtain ⟨node, -, settings⟩ := change.fixed
    have later := ih (change.cuts cuts)
    rw [node, settings] at later
    rw [sentAt_append, admittedAt_append, List.append_assoc, ← List.append_assoc (a.plane.waiting key)]
    rcases change.conserves cuts key with kept | ⟨rfl, gone⟩
    · rw [kept, List.append_assoc]
      exact (List.Sublist.refl _).append later
    · rw [gone] at later
      exact later.trans (List.sublist_append_right _ _)

namespace DataPlane
variable {p : DataPlane} {node : NodeId} {role : Role} {settings : PlaneSettings}

/-- The frames that wait in a buffer on the multicast path. -/
def groupWaiting (p : DataPlane) (key : EntityKey) : List Frame :=
  if (p.buffers.get? key).any (·.path = .multicast) then p.waiting key else []

theorem waiting_peerDeparted (terminal : p.role ≠ .baseStation) (peer : NodeId) (key : EntityKey) :
    (p.peerDeparted peer).waiting key = p.groupWaiting key := by
  have found : (p.peerDeparted peer).buffers.get? key = (p.buffers.get? key).filter (·.path = .multicast) := by
    simp [peerDeparted, SortedMap.get?_filter, concerns, terminal]
  unfold groupWaiting waiting
  rw [found]
  cases p.buffers.get? key with
  | none => rfl
  | some b =>
    rw [Option.filter_some]
    by_cases group : b.path = .multicast
    · simp [group, peerDeparted]
    · simp [group]

/-! ## Numbers given before -/

theorem traffic_of_dispatched (made : new node role settings = .ok p) {ms : List Moment} {x : Packet × Dispatch}
    (member : x ∈ p.dispatched ms) {sn : UInt32} (number : x.2.sn = some sn) : x.2.lcid ≠ .control := by
  obtain ⟨effects, ⟨issued, -, -⟩, sound⟩ := sound_run made ms
  have given : (x.1, x.2.lcid, sn) ∈ issuedOf effects := (mem_issued issued).2 ⟨x, member, rfl, rfl, number⟩
  exact (sound.accounts.issued given).1

/-- A packet that is numbered after a peer departed shares its connection and number with none that was submitted
before. -/
theorem numbered_anew (made : new node role settings = .ok p) {ms ns : List Moment} {peer : NodeId} {n : Numbering}
    (later : n ∈ ((p.after ms).peerDeparted peer).numberings ns) {x : Packet × Dispatch} (before : x ∈ p.dispatched ms)
    {sn : UInt32} (number : x.2.sn = some sn) : n.unit.label ≠ (x.2.lcid, sn) := by
  obtain ⟨effects, ⟨issued, -, -⟩, sound⟩ := sound_run made ms
  obtain ⟨effects', chain, ⟨issued', -, -⟩, -⟩ := ((p.after ms).peerDeparted peer).run_chain ns
  have departs : Change .empty ⟨p.after ms, []⟩ [.dropped] ⟨(p.after ms).peerDeparted peer, []⟩ := .leave peer
  have both := (chain.invariant (fun _ change sound => sound_change change sound) (sound_change departs sound)).accounts
  intro same
  obtain ⟨lcid, rfl⟩ := Prod.mk.inj same
  have first : (x.1, x.2.lcid, n.unit.sn) ∈ issuedOf effects := (mem_issued issued).2 ⟨x, before, rfl, rfl, number⟩
  have second : (n.packet, n.unit.lcid, n.unit.sn) ∈ issuedOf effects' := by
    rw [issued', ← numbered_numberings]
    exact List.mem_map_of_mem later
  have increasing := both.increasing
  rw [issuedOf_append, issuedOf_append, List.pairwise_append] at increasing
  exact absurd (increasing.2.2 _ (List.mem_append_left _ first) _ second lcid.symm) (UInt32.lt_irrefl _)

/-! ## Terminals that reach no peer -/

theorem way_mobile {directory : Directory} {endpoints : Endpoints} {way : Way}
    (goes : directory.way? node .mobile endpoints = some way) : ∃ hop, way = .toHop hop .infrastructure := by
  obtain ⟨serving, -, rfl⟩ := Option.map_eq_some_iff.1 goes
  exact ⟨serving, rfl⟩

/-- A mobile node sends all on the path of the infrastructure, and lets nothing wait. -/
theorem mobile_after (made : new node .mobile settings = .ok p) (ms : List Moment) :
    (∀ key, (p.after ms).groupWaiting key = []) ∧ ∀ peer, (p.after ms).switches.deferred peer = [] := by
  have ways {n : Numbering} (numbered : n ∈ p.numberings ms) : ∃ hop, n.route.way = .toHop hop .infrastructure := by
    obtain ⟨⟨m, -, goes⟩, -⟩ := mem_numberings numbered
    exact way_mobile (role_new made ▸ goes)
  constructor
  · intro key
    unfold groupWaiting
    cases found : (p.after ms).buffers.get? key with
    | none => rfl
    | some b =>
      have known : (p.after ms).nature key = some (b.mode, b.path) := by
        rw [nature, found]
        rfl
      rcases founder_run known with before | ⟨x, member, -, -, same⟩
      · rw [nature_new made] at before
        cases before
      · obtain ⟨⟨m, -, led⟩, origin⟩ := origin_run member
        have infrastructure : ∃ hop, x.way = .toHop hop .infrastructure := by
          cases origin with
          | waited way waits =>
            rw [idle_new made] at waits
            cases waits
          | packet numbered unit way => exact way ▸ ways numbered
          | control there submitted unit way => exact ⟨_, way⟩
        obtain ⟨hop, way⟩ := infrastructure
        have leads := led.leads
        rw [way] at leads
        have path : b.path = .infrastructure := (congrArg Prod.snd same).symm.trans leads.2.symm
        simp [path]
  · intro peer
    refine List.eq_nil_iff_forall_not_mem.2 fun unit waits => ?_
    rcases waiting_run waits with before | ⟨n, numbered, -, way⟩
    · rw [idle_new made] at before
      cases before
    · obtain ⟨hop, other⟩ := ways numbered
      cases way.symm.trans other

/-! ## What is sent later -/

/-- A terminal whose peer departed sends, of the units that it made before, those that wait for a group and no others,
those aside that wait for a switch of their peer: each frame that it sends later waited in a buffer on the multicast
path, or is of a unit that a buffer takes later, and no buffer takes one later that was made before and does not wait for
a switch. At a mobile node no unit waits for a group or for a switch. -/
theorem departed_unsent (made : new node role settings = .ok p) (terminal : role ≠ .baseStation) (ms ns : List Moment)
    (peer : NodeId) :
    let q := p.after ms
    let later := q.peerDeparted peer
    (∀ key, ((later.sent ns).filter (·.key = key)).Sublist
      (q.groupWaiting key ++
        ((later.admitted ns).filter (·.key = key)).flatMap (Admission.frames node settings.link))) ∧
      (∀ x ∈ p.dispatched ms, ∀ sn, x.2.sn = some sn →
        (∀ other, ∀ unit ∈ q.switches.deferred other, unit.label ≠ (x.2.lcid, sn)) →
        ∀ a ∈ later.admitted ns, a.label ≠ (x.2.lcid, sn)) ∧
      (∀ a ∈ later.admitted ns, a.key.lcid = .control → ∃ m ∈ ns, ∃ payload, m.stimulus = .control payload ∧
        a.sdu = (ConvergencePdu.mk a.sn .bare none payload).encode) ∧
      (role = .mobile → (∀ key, q.groupWaiting key = []) ∧ ∀ other, q.switches.deferred other = []) := by
  intro q later
  obtain ⟨effects, -, sound⟩ := sound_run made ms
  have departs : Change .empty ⟨q, []⟩ [.dropped] ⟨later, []⟩ := .leave peer
  obtain ⟨nodeIs, -, settingsIs⟩ := departs.fixed
  have taken {a : Admission} (member : a ∈ later.admitted ns) :
      ∃ x ∈ later.boardings ns, a.label = x.unit.label ∧ a.sdu = x.unit.sdu := by
    rw [admitted_eq] at member
    obtain ⟨x, boards, here⟩ := List.mem_flatMap.1 member
    obtain rfl := mem_offered here
    exact ⟨x, boards, rfl, rfl⟩
  refine ⟨fun key => ?_, fun x before sn number unmoved a member same => ?_, fun a member control => ?_, ?_⟩
  · have roleIs : q.role = role := (role_after p ms).trans (role_new made)
    obtain ⟨effects', chain, ⟨-, admitted, sent⟩, -⟩ := later.run_chain ns
    have flow := chain.conserves (departs.cuts sound.served.cuts) key
    rw [sentAt, admittedAt, sent, admitted, waiting_peerDeparted (roleIs ▸ terminal), nodeIs, settingsIs,
      sound.served.node_eq, sound.served.settings_eq] at flow
    exact (List.sublist_append_left _ _).trans flow
  · obtain ⟨y, boards, label, -⟩ := taken member
    have unit : y.unit.label = (x.2.lcid, sn) := label.symm.trans same
    cases (origin_run boards).2 with
    | waited way waits => exact unmoved _ y.unit waits unit
    | packet numbered own way => exact numbered_anew made numbered before number (own ▸ unit)
    | control there submitted own way =>
      exact traffic_of_dispatched made before number ((congrArg Prod.fst unit).symm.trans own.lcid)
  · obtain ⟨y, boards, label, sdu⟩ := taken member
    obtain ⟨lcid, sn⟩ := Prod.mk.inj label
    have own := lcid.symm.trans control
    cases (origin_run boards).2 with
    | waited way waits =>
      obtain ⟨key, found⟩ := (filed_after made ms).waiting _ y.unit waits
      exact absurd own (FlowTable.not_control_of_lookup? sound.accounts.flows found)
    | packet numbered unit way => exact absurd (unit ▸ own) (traffic_of_numberings (sound_change departs sound) numbered)
    | control there submitted unit way => exact ⟨_, there, _, submitted, by rw [sdu, sn, unit.sdu]⟩
  · rintro rfl
    exact mobile_after made ms

/-- The first node sends one packet, and another one waits in the buffer when the second node departs. -/
def farewell : List Moment :=
  [.packet .hello "voice", .packet .hello "voice", .opportunity 1].map Stimulus.inPair

/-- The first node sends a packet again. -/
def reunion : List Moment := [.packet .hello "voice", .opportunity 4].map Stimulus.inPair

/-- The packet that waits is not sent any more, the one that is submitted later is. -/
theorem departed_unsent_at_farewell :
    let q := (fresh 1).after farewell
    let later := q.peerDeparted ⟨2⟩
    new ⟨1⟩ .peerDirect .default = .ok (fresh 1) ∧ Role.peerDirect ≠ .baseStation ∧
      ((fresh 1).dispatched farewell).map (fun x => x.2) = [⟨.first, some 0, .queued⟩, ⟨.first, some 1, .queued⟩] ∧
      (q.waiting ⟨⟨2⟩, .first⟩).length = 1 ∧ q.groupWaiting ⟨⟨2⟩, .first⟩ = [] ∧
      (later.sent reunion).map (·.bytes) =
        PlaneSettings.default.link.pdus .unacknowledged 2 (Packet.hello.unit .default 2) ∧
      (later.admitted reunion).map (·.sn) = [2] ∧
      ∀ a ∈ later.admitted reunion, a.label ≠ (.first, 1) := by
  intro q later
  have dispatched : (Packet.hello, ⟨.first, some 1, .queued⟩) ∈ (fresh 1).dispatched farewell := by decide +kernel
  have terminal : Role.peerDirect ≠ .baseStation := by decide
  have nobody : q.switches.peers.keys = [] := by decide +kernel
  have unmoved : ∀ other, ∀ unit ∈ q.switches.deferred other, unit.label ≠ (.first, 1) := by
    intro other unit waits
    unfold PathSwitches.deferred at waits
    cases found : q.switches.peers.get? other with
    | none =>
      rw [found] at waits
      cases waits
    | some state =>
      have member := (SortedMap.mem_keys_iff _ _).2 ((SortedMap.contains_eq_true_iff _ _).2 ⟨state, found⟩)
      rw [nobody] at member
      cases member
  exact ⟨new_fresh.1, terminal, by decide +kernel, by decide +kernel, by decide +kernel, by decide +kernel,
    by decide +kernel,
    (departed_unsent new_fresh.1 terminal farewell reunion ⟨2⟩).2.1 _ dispatched 1 rfl unmoved⟩

/-- A packet for the second node waits on the multicast path, or waits for a switch, when that node departs. It is sent
afterwards. -/
theorem sent_after_departure :
    let group := (fresh 1).after ([.pathSwitch ⟨2⟩ .multicast false, .packet .hello "voice"].map Stimulus.inPair)
    let switching := (fresh 1).after
      ([.packet .hello "voice", .pathSwitch ⟨2⟩ .direct false, .packet .hello "voice"].map Stimulus.inPair)
    let chances := [.opportunity 4, .opportunity 4].map Stimulus.inPair
    new ⟨1⟩ .peerDirect .default = .ok (fresh 1) ∧
      (group.waiting ⟨⟨2⟩, .first⟩).map (·.bytes) =
        PlaneSettings.default.link.pdus .unacknowledged 0 (Packet.hello.unit .default 0) ∧
      ((group.peerDeparted ⟨2⟩).sent chances).map (·.bytes) =
        PlaneSettings.default.link.pdus .unacknowledged 0 (Packet.hello.unit .default 0) ∧
      (switching.switches.deferred ⟨2⟩).map (·.sn) = [1] ∧
      ((switching.peerDeparted ⟨2⟩).sent chances).map (·.bytes) =
        PlaneSettings.default.link.pdus .unacknowledged 1 (Packet.hello.unit .default 1) := by
  intro group switching chances
  exact ⟨new_fresh.1, by decide +kernel, by decide +kernel, by decide +kernel, by decide +kernel⟩

end DataPlane
end Sidelink
