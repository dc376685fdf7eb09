import Sidelink.Proofs.Gathering
import Sidelink.Proofs.Units

/-!
What two nodes do together. Whatever frames of a sender reach a receiver, in any order, with any repetitions and
losses, and whatever switches happen at either end: what the receiver hands up are packets that were submitted to the
sender under the same connection and number, and no packet that travels in segments is handed up twice
(`DataPlane.delivered_intact_and_once`).
-/
namespace Sidelink

/-- Of two members of a list whose members are related in order, either is related to the other. -/
theorem eq_or_related_of_pairwise {α : Type} {r : α → α → Prop} {l : List α} (related : l.Pairwise r) {x y : α}
    (hx : x ∈ l) (hy : y ∈ l) : x = y ∨ r x y ∨ r y x := by
  induction related with
  | nil => cases hx
  | cons first _ ih =>
    rcases List.mem_cons.1 hx with rfl | laterX
    · rcases List.mem_cons.1 hy with rfl | laterY
      · exact Or.inl rfl
      · exact Or.inr (Or.inl (first y laterY))
    · rcases List.mem_cons.1 hy with rfl | laterY
      · exact Or.inr (Or.inr (first x laterX))
      · exact ih laterX laterY

namespace Sound
variable {node : NodeId} {settings : PlaneSettings} {hs : List Effect} {s : Stage}

/-! ## The units of a connection -/

/-- The unit that a connection sends under a number. -/
def Unit (settings : PlaneSettings) (hs : List Effect) (l : Lcid) (sn : UInt32) (sdu : Bytes) : Prop :=
  ∃ packet, (packet, l, sn) ∈ issuedOf hs ∧ sdu = packet.unit settings.compression sn

/-- A connection and a number stand for one packet. -/
theorem packet_unique (sound : Sound node settings hs s) {packet packet' : Packet} {l : Lcid} {sn : UInt32}
    (one : (packet, l, sn) ∈ issuedOf hs) (other : (packet', l, sn) ∈ issuedOf hs) : packet = packet' := by
  rcases eq_or_related_of_pairwise sound.accounts.increasing one other with same | less | less
  · exact congrArg Prod.fst same
  · exact absurd (less rfl) (UInt32.lt_irrefl sn)
  · exact absurd (less rfl) (UInt32.lt_irrefl sn)

/-- Whether the lengths of all units fit into 32 bits. -/
def Short (settings : PlaneSettings) (hs : List Effect) : Prop :=
  ∀ packet l sn, (packet, l, sn) ∈ issuedOf hs → (packet.unit settings.compression sn).length < 4294967296

theorem catalogue (sound : Sound node settings hs s) (short : Short settings hs) (l : Lcid) :
    Catalogue (Unit settings hs l) where
  unique := by
    rintro sn _ _ ⟨packet, issued, rfl⟩ ⟨packet', issued', rfl⟩
    rw [sound.packet_unique issued issued']
  named := by
    rintro sn _ ⟨packet, -, rfl⟩
    exact ⟨_, packet.read?_unit _ _, rfl⟩
  below := by
    rintro sn _ ⟨packet, issued, rfl⟩
    exact (sound.accounts.issued issued).2.2.1
  short := by
    rintro sn _ ⟨packet, issued, rfl⟩
    exact short packet l sn issued

/-- Every frame that is sent carries the unit of a packet, in the one mode that the unit was taken in. -/
theorem carries (sound : Sound node settings hs s) (valid : settings.link.fault? = none) (short : Short settings hs)
    {f : Frame} (sent : f ∈ sentOf hs) (traffic : f.envelope.lcid ≠ .control) :
    ∃ x ∈ admittedOf hs, x.key.lcid = f.envelope.lcid ∧ x.mode = f.envelope.mode ∧
      f.Carries (Unit settings hs f.envelope.lcid) x.sn := by
  obtain ⟨x, taken, member⟩ := sound.served.exists_admission sent
  obtain ⟨bytes, cut, rfl⟩ := List.mem_map.1 member
  refine ⟨x, taken, rfl, rfl, x.sdu, ?_⟩
  rcases sound.sourced.admitted x taken with control | ⟨packet, issued, sdu⟩
  · exact absurd control traffic
  · refine ⟨⟨packet, issued, sdu⟩, LinkSettings.segmentOf_of_mem_pdus valid ?_ cut⟩
    rw [sdu]
    exact short packet _ _ issued

/-- No two buffers take the same unit, and none takes it twice. -/
theorem admission_unique (sound : Sound node settings hs s) {x y : Admission} (hx : x ∈ admittedOf hs)
    (hy : y ∈ admittedOf hs) (same : x.label = y.label) (traffic : x.key.lcid ≠ .control) : x = y := by
  have apart : (admittedOf hs).Pairwise fun x y => Apart x.label y.label := by
    have line := sound.ordered.line default
    rw [List.append_assoc, List.pairwise_append] at line
    exact List.pairwise_map.1 line.1
  rcases eq_or_related_of_pairwise apart hx hy with equal | told | told
  · exact equal
  · rcases told with control | different
    · exact absurd control traffic
    · exact absurd same different
  · rcases told with control | different
    · exact absurd ((congrArg Prod.fst same).trans control) traffic
    · exact absurd same.symm different

end Sound

/-- The one member of a list with a property that no two members share. -/
theorem filter_eq_singleton {α : Type} {keep : α → Bool} {l : List α} {x : α}
    (single : l.Pairwise fun y z => ¬ (keep y = true ∧ keep z = true)) (member : x ∈ l) (kept : keep x = true) :
    l.filter keep = [x] := by
  induction single with
  | nil => cases member
  | @cons y rest alone _ ih =>
    rcases List.mem_cons.1 member with rfl | later
    · have nothing : rest.filter keep = [] :=
        List.filter_eq_nil_iff.2 fun z hz both => alone z hz ⟨kept, both⟩
      rw [List.filter_cons_of_pos kept, nothing]
    · rw [List.filter_cons_of_neg fun here => alone x later ⟨here, kept⟩]
      exact ih later

namespace DataPlane
variable {nodeA nodeB : NodeId} {roleA roleB : Role} {settingsA settingsB : PlaneSettings} {a b : DataPlane}
  {sending receiving : List Moment}

/-! ## What reaches a receiver -/

/-- Whether the frames of a node that reach another one in a run were sent. -/
def Reached (node : NodeId) (sent : List Frame) (receiving : List Moment) : Prop :=
  ∀ m ∈ receiving, ∀ f, m.stimulus = .arrival f → f.envelope.origin = node → f ∈ sent

theorem mem_heard {key : EntityKey} {ms : List Moment} {f : Frame} (member : .frame f ∈ ms.flatMap (·.heard key)) :
    f.source = key ∧ ∃ m ∈ ms, m.stimulus = .arrival f := by
  obtain ⟨m, inRun, heard⟩ := List.mem_flatMap.1 member
  simp only [Moment.heard] at heard
  split at heard
  · rename_i frame arrival
    split at heard
    · rename_i source
      obtain rfl : f = frame := by simpa using heard
      exact ⟨source, m, inRun, arrival⟩
    · cases heard
  · split at heard
    · simp at heard
    · cases heard
  · cases heard

/-- Whether a unit, or a part of it, was sent in one of the modes that cut units into segments. -/
def SentInSegments (sent : List Frame) (l : Lcid) (sn : UInt32) : Prop :=
  ∃ f ∈ sent, f.envelope.lcid = l ∧ f.envelope.mode ≠ .transparent ∧
    ∃ header data, SegmentHeader.parse f.bytes = .ok (header, data) ∧ header.sn = sn

/-- A frame that carries part of a unit in segments does not carry any other unit. -/
theorem sn_of_carries {unit : UInt32 → Bytes → Prop} {f : Frame} {sn : UInt32} (carries : f.Carries unit sn)
    (segmented : f.envelope.mode ≠ .transparent) {header : SegmentHeader} {data : Bytes}
    (parsed : SegmentHeader.parse f.bytes = .ok (header, data)) : header.sn = sn := by
  obtain ⟨sdu, -, carried⟩ := carries
  rw [if_neg segmented] at carried
  obtain ⟨header', data', same, number, -⟩ := carried
  rw [same, SegmentHeader.parse_encode] at parsed
  cases parsed
  exact number

/-- A frame that carries a whole unit carries no other. -/
theorem sn_unique {unit : UInt32 → Bytes → Prop} (catalogue : Catalogue unit) {f : Frame} {sn sn' : UInt32}
    (whole : f.envelope.mode = .transparent) (one : f.Carries unit sn) (other : f.Carries unit sn') : sn = sn' := by
  obtain ⟨sdu, listed, same⟩ := one
  obtain ⟨sdu', listed', same'⟩ := other
  rw [if_pos whole] at same same'
  obtain ⟨pdu, read, named⟩ := catalogue.named listed
  obtain ⟨pdu', read', named'⟩ := catalogue.named listed'
  rw [← same, same', read'] at read
  rw [← named, ← named', Option.some.inj read]

theorem mem_handedUp (made : new nodeB roleB settingsB = .ok b) (stays : ∀ m ∈ receiving, m.stimulus.Stays)
    {d : DeliveredSdu} (member : d ∈ b.handedUp receiving) :
    ∃ sdu ∈ ReceiveState.new.units settingsB.link.window (receiving.flatMap (·.heard d.source)),
      ConvergencePdu.read? sdu = some d.pdu := by
  have here : d.pdu ∈ ((b.handedUp receiving).filter (·.source = d.source)).map DeliveredSdu.pdu :=
    List.mem_map_of_mem (List.mem_filter.2 ⟨member, decide_eq_true rfl⟩)
  rw [handedUp_eq made stays] at here
  exact List.mem_filterMap.1 here

/-- What a node hands up under a number of a connection, as the units that its receiver hands out. -/
theorem length_handedUp (made : new nodeB roleB settingsB = .ok b) (stays : ∀ m ∈ receiving, m.stimulus.Stays)
    (node : NodeId) (l : Lcid) (sn : UInt32) :
    ((b.handedUp receiving).filter fun d => d.origin = node ∧ d.lcid = l ∧ d.sn = sn).length =
      (ReceiveState.numbered sn
        (ReceiveState.new.units settingsB.link.window (receiving.flatMap (·.heard ⟨node, l⟩)))).length := by
  rw [ReceiveState.numbered, ← handedUp_eq made stays, List.filter_map, List.length_map, List.filter_filter]
  refine congrArg List.length (List.filter_congr fun d _ => ?_)
  simp only [DeliveredSdu.source, DeliveredSdu.pdu, EntityKey.mk.injEq, Function.comp_apply, Bool.decide_and]
  exact (Bool.and_assoc _ _ _).symm.trans (Bool.and_comm _ _)

section
variable {effects : List Effect} {stage : Stage} (sound : Sound nodeA settingsA effects stage)
include sound

/-- One packet only is submitted under a connection and a number. -/
theorem dispatch_unique {dispatched : List (Packet × Dispatch)}
    (issued : issuedOf effects = dispatched.filterMap Dispatch.numbered?) {packet : Packet} {l : Lcid} {sn : UInt32}
    (given : (packet, l, sn) ∈ issuedOf effects) :
    ∃ x, dispatched.filter (fun y => y.2.lcid = l ∧ y.2.sn = some sn) = [x] ∧ x.1 = packet := by
  obtain ⟨x, here, rfl, lcid, number⟩ := (mem_issued issued).1 given
  refine ⟨x, filter_eq_singleton ?_ here (by simp [lcid, number]), rfl⟩
  have increasing := sound.accounts.increasing
  rw [issued, List.pairwise_filterMap] at increasing
  refine increasing.imp fun {y z} less both => ?_
  simp only [decide_eq_true_eq] at both
  obtain ⟨⟨lcidY, numberY⟩, lcidZ, numberZ⟩ := both
  exact absurd (less (y.1, y.2.lcid, sn) (by rw [Dispatch.numbered?, numberY]; rfl) (z.1, z.2.lcid, sn)
    (by rw [Dispatch.numbered?, numberZ]; rfl) (lcidY.trans lcidZ.symm)) (UInt32.lt_irrefl _)

variable (valid : settingsA.link.fault? = none) (short : Sound.Short settingsA effects)
  (reached : Reached nodeA (sentOf effects) receiving)
include valid short reached

/-- A frame that is heard carries the unit of a packet, in the one mode that the unit was taken in. -/
theorem carries_of_heard {l : Lcid} (traffic : l ≠ .control) {f : Frame}
    (heard : .frame f ∈ receiving.flatMap (·.heard ⟨nodeA, l⟩)) :
    ∃ x ∈ admittedOf effects, x.key.lcid = l ∧ x.mode = f.envelope.mode ∧
      f.Carries (Sound.Unit settingsA effects l) x.sn := by
  obtain ⟨source, m, inRun, arrival⟩ := mem_heard heard
  obtain ⟨origin, rfl⟩ := EntityKey.mk.inj source
  exact sound.carries valid short (reached m inRun f arrival origin) traffic

theorem genuine_of_heard {l : Lcid} (traffic : l ≠ .control) :
    ∀ h ∈ receiving.flatMap (·.heard ⟨nodeA, l⟩), h.Genuine (Sound.Unit settingsA effects l) := by
  intro h member
  cases h with
  | cleared => exact trivial
  | frame f =>
    obtain ⟨x, -, -, -, carries⟩ := carries_of_heard sound valid short reached traffic member
    exact ⟨x.sn, carries⟩

variable (made : new nodeB roleB settingsB = .ok b) (stays : ∀ m ∈ receiving, m.stimulus.Stays)
include made stays

/-- What is handed up is a packet that was given the connection and the number. -/
theorem handedUp_issued {d : DeliveredSdu} (member : d ∈ b.handedUp receiving) (origin : d.origin = nodeA)
    (traffic : d.lcid ≠ .control) :
    ∃ packet, (packet, d.lcid, d.sn) ∈ issuedOf effects ∧ d.headers = packet.headers ∧
      d.payload = packet.payload := by
  obtain ⟨sdu, handed, read⟩ := mem_handedUp made stays member
  have source : d.source = ⟨nodeA, d.lcid⟩ := by rw [DeliveredSdu.source, origin]
  rw [source] at handed
  obtain ⟨sn, packet, given, rfl⟩ := ReceiveState.units_genuine (sound.catalogue short d.lcid)
    (ReceiveState.gathers_new _) (genuine_of_heard sound valid short reached traffic) sdu handed
  have same := Option.some.inj ((packet.read?_unit _ sn).symm.trans read)
  simp only [DeliveredSdu.pdu, ConvergencePdu.mk.injEq, true_and] at same
  obtain ⟨rfl, headers, payload⟩ := same
  exact ⟨packet, given, headers.symm, payload.symm⟩

/-- What was sent in segments is handed up once at most: no frame carries it whole, and the receiver hands out no
number twice that comes in segments. -/
theorem handedUp_once {l : Lcid} {sn : UInt32} (traffic : l ≠ .control)
    (segments : SentInSegments (sentOf effects) l sn) :
    ((b.handedUp receiving).filter fun d => d.origin = nodeA ∧ d.lcid = l ∧ d.sn = sn).length ≤ 1 := by
  obtain ⟨f, sentF, rfl, segmented, header, data, parsed, rfl⟩ := segments
  obtain ⟨x, takenX, lcidX, modeX, carriesX⟩ := sound.carries valid short sentF traffic
  have snX := sn_of_carries carriesX segmented parsed
  have catalogue := sound.catalogue short f.envelope.lcid
  have positive := (LinkSettings.of_fault?_eq_none (link_fault?_of_new made)).2.2
  rw [length_handedUp made stays]
  refine ReceiveState.units_once catalogue positive (ReceiveState.gathers_new _)
    (genuine_of_heard sound valid short reached traffic) ?_
  intro g heard whole carriesG
  obtain ⟨y, takenY, lcidY, modeY, carriesY⟩ := carries_of_heard sound valid short reached traffic heard
  have snY := sn_unique catalogue whole carriesG carriesY
  have equal := sound.admission_unique takenX takenY (Prod.ext (lcidX.trans lcidY.symm) (snX.symm.trans snY))
    (lcidX ▸ traffic)
  exact segmented (modeX.symm.trans ((congrArg Admission.mode equal).trans (modeY.trans whole)))

end

/-- A receiver that hears frames of a sender, in any order, with any repetitions and omissions, hands up packets that
were submitted to the sender, each with the connection and the number that it was given there; and no packet that was
sent in segments is handed up twice. -/
theorem delivered_intact_and_once (madeA : new nodeA roleA settingsA = .ok a)
    (madeB : new nodeB roleB settingsB = .ok b)
    (short : ShortUnits settingsA.compression (a.dispatched sending)) (stays : ∀ m ∈ receiving, m.stimulus.Stays)
    (reached : Reached nodeA (a.sent sending) receiving) :
    (∀ d ∈ b.handedUp receiving, d.origin = nodeA → d.lcid ≠ .control →
      ∃ x, (a.dispatched sending).filter (fun y => y.2.lcid = d.lcid ∧ y.2.sn = some d.sn) = [x] ∧
        d.headers = x.1.headers ∧ d.payload = x.1.payload) ∧
      ∀ l sn, l ≠ .control → SentInSegments (a.sent sending) l sn →
        ((b.handedUp receiving).filter fun d => d.origin = nodeA ∧ d.lcid = l ∧ d.sn = sn).length ≤ 1 := by
  obtain ⟨effects, ⟨issued, -, sent⟩, sound⟩ := sound_run madeA sending
  rw [← sent] at reached ⊢
  have valid := link_fault?_of_new madeA
  have fits : Sound.Short settingsA effects := by
    intro packet l sn member
    obtain ⟨x, here, rfl, -, number⟩ := (mem_issued issued).1 member
    exact short x here sn number
  constructor
  · intro d member origin traffic
    obtain ⟨packet, given, headers, payload⟩ :=
      handedUp_issued sound valid fits reached madeB stays member origin traffic
    obtain ⟨x, only, rfl⟩ := dispatch_unique sound issued given
    exact ⟨x, only, headers, payload⟩
  · intro l sn traffic segments
    exact handedUp_once sound valid fits reached madeB stays traffic segments

/-- All frames arrive twice, with a switch in between that clears the receivers of the first node. -/
def twice (frames : List Frame) : List Moment :=
  frames.map (fun f => (Stimulus.arrival f).inPair) ++ (Stimulus.pathSwitch ⟨1⟩ .infrastructure true).inPair ::
    frames.map (fun f => (Stimulus.arrival f).inPair)

theorem reached_twice (node : NodeId) (frames : List Frame) : Reached node frames (twice frames) := by
  intro m member f arrival _
  simp only [twice, List.mem_append, List.mem_cons, List.mem_map] at member
  rcases member with ⟨g, sent, rfl⟩ | rfl | ⟨g, sent, rfl⟩
  · cases arrival
    exact sent
  · cases arrival
  · cases arrival
    exact sent

theorem delivered_intact_and_once_at_greeting :
    ShortUnits PlaneSettings.default.compression ((fresh 1).dispatched greeting) ∧
      (∀ m ∈ twice ((fresh 1).sent greeting), m.stimulus.Stays) ∧
      Reached ⟨1⟩ ((fresh 1).sent greeting) (twice ((fresh 1).sent greeting)) ∧
      SentInSegments ((fresh 1).sent greeting) .first 0 ∧
      (fresh 2).handedUp (twice ((fresh 1).sent greeting)) = [⟨⟨1⟩, .first, 0, .direct, .udp, [0xab, 0xcd]⟩] ∧
      (∀ d ∈ (fresh 2).handedUp (twice ((fresh 1).sent greeting)), d.origin = ⟨1⟩ → d.lcid ≠ .control →
        ∃ x, ((fresh 1).dispatched greeting).filter (fun y => y.2.lcid = d.lcid ∧ y.2.sn = some d.sn) = [x] ∧
          d.headers = x.1.headers ∧ d.payload = x.1.payload) ∧
      ∀ l sn, l ≠ .control → SentInSegments ((fresh 1).sent greeting) l sn →
        (((fresh 2).handedUp (twice ((fresh 1).sent greeting))).filter
          fun d => d.origin = ⟨1⟩ ∧ d.lcid = l ∧ d.sn = sn).length ≤ 1 := by
  have short : ShortUnits PlaneSettings.default.compression ((fresh 1).dispatched greeting) := by
    have dispatched : (fresh 1).dispatched greeting = [(.hello, ⟨.first, some 0, .queued⟩)] := rfl
    intro x member sn number
    rw [dispatched, List.mem_singleton] at member
    subst member
    cases number
    decide
  have stays : ∀ m ∈ twice ((fresh 1).sent greeting), m.stimulus.Stays := by
    intro m member
    simp only [twice, List.mem_append, List.mem_cons, List.mem_map] at member
    rcases member with ⟨g, -, rfl⟩ | rfl | ⟨g, -, rfl⟩ <;> trivial
  have segments : SentInSegments ((fresh 1).sent greeting) .first 0 :=
    ⟨_, List.mem_cons_self, rfl, by decide, ⟨⟨true, true, false⟩, 0, 0⟩, Packet.hello.unit .default 0, rfl, rfl⟩
  exact ⟨short, stays, reached_twice _ _, segments, by decide,
    delivered_intact_and_once new_fresh.1 new_fresh.2 short stays (reached_twice _ _)⟩

end DataPlane
end Sidelink
