import Sidelink.Proofs.Descriptors

/-!
The modes of connections. The descriptor of a connection keeps the mode code that the hint of its first packet stands
for (`DataPlane.modeCode?_after`), but every packet is given the mode of its own hint, and a buffer keeps the mode of the
unit that it was made for. So buffers and descriptors agree exactly if all units that buffers are made for are in the
mode of the first packet of their connection (`DataPlane.modes_agree_iff`).
-/
namespace Sidelink

/-! ## Mode codes in descriptors -/

def FlowTable.modeCode? (t : FlowTable) (l : Lcid) : Option UInt8 := (t.descriptor? l).map (·.modeCode)

namespace Numbering
variable {ns : List Numbering} {l : Lcid}

/-- The mode of a connection is that of its first packet. -/
def mode? (ns : List Numbering) (l : Lcid) : Option DeliveryMode := (first? ns l).map (·.unit.mode)

theorem mode?_append {mode : DeliveryMode} (known : mode? ns l = some mode) (more : List Numbering) :
    mode? (ns ++ more) l = some mode := by
  obtain ⟨n, found, rfl⟩ := Option.map_eq_some_iff.1 known
  rw [mode?, first?_append, found]
  rfl

end Numbering

namespace DataPlane
variable {p : DataPlane}

/-- The code that the hint of a packet stands for. -/
def codeOf (p : DataPlane) (n : Numbering) : UInt8 := (p.settings.profiles.classify n.hint).modeCode

section
variable {node : NodeId} {role : Role} {settings : PlaneSettings}

/-- The code in a descriptor is that of the first packet of the connection. -/
theorem modeCode?_after (made : new node role settings = .ok p) (ms : List Moment) {l : Lcid} {code : UInt8}
    (known : (p.after ms).flows.modeCode? l = some code) :
    (Numbering.first? (p.numberings ms) l).map p.codeOf = some code := by
  obtain ⟨d, found, rfl⟩ := Option.map_eq_some_iff.1 known
  obtain ⟨n, direction, first, same⟩ := founded_after made ms found
  rw [first, Option.map_some, show d.modeCode = p.codeOf n from congrArg Descriptor.modeCode same]

/-- The descriptor of a connection tells its mode. -/
theorem decode_descriptor (made : new node role settings = .ok p) (ms : List Moment) {l : Lcid} {d : Descriptor}
    (found : (p.after ms).flows.descriptor? l = some d) :
    ∃ mode, DeliveryMode.ofCode? d.modeCode.toNat = some mode ∧ Numbering.mode? (p.numberings ms) l = some mode := by
  have known : (p.after ms).flows.modeCode? l = some d.modeCode := by rw [FlowTable.modeCode?, found]; rfl
  obtain ⟨n, first, code⟩ := Option.map_eq_some_iff.1 (modeCode?_after made ms known)
  refine ⟨n.unit.mode, ?_, by rw [Numbering.mode?, first]; rfl⟩
  rw [← code]
  exact (mem_numberings (Numbering.of_first? first).1).2

/-- Whether every buffer of a connection is in the mode that the descriptor of the connection tells. -/
def ModesAgree (p : DataPlane) : Prop :=
  ∀ key b, p.buffers.get? key = some b → key.lcid ≠ .control →
    ∃ d, p.flows.descriptor? key.lcid = some d ∧ DeliveryMode.ofCode? d.modeCode.toNat = some b.mode

/-- Whether all units that buffers are made for in a run are in the modes of their connections. -/
def FoundedInMode (p : DataPlane) (ms : List Moment) : Prop :=
  ∀ x ∈ p.boardings ms, x.Founds → x.unit.lcid ≠ .control →
    Numbering.mode? (p.numberings ms) x.unit.lcid = some x.unit.mode

theorem foundedInMode_of_agree (made : new node role settings = .ok p) {ms : List Moment}
    (agree : ∀ before later, ms = before ++ later → (p.after before).ModesAgree) : p.FoundedInMode ms := by
  intro x member founds traffic
  obtain ⟨before, m, later, rfl, here⟩ := mem_collect member
  have spares : m.stimulus.Spares := Classical.byContradiction fun goes => by
    rw [(nature_react_of_not_spares goes).1] at here
    cases here
  have there : (p.after (before ++ [m])).nature x.key = some x.nature := by
    have nature := (boards_react (p.after before) spares).nature_of_mem here
    rw [founds] at nature
    rw [after_append]
    exact nature
  obtain ⟨b, found, own⟩ := Option.map_eq_some_iff.1 there
  obtain ⟨d, described, decoded⟩ := agree (before ++ [m]) later (List.append_cons _ _ _) x.key b found traffic
  obtain ⟨mode, decoded', first⟩ := decode_descriptor made _ described
  have same : mode = x.unit.mode :=
    Option.some.inj (decoded'.symm.trans (decoded.trans (congrArg (some ∘ Prod.fst) own)))
  rw [List.append_cons, numberings_append]
  exact Numbering.mode?_append (same ▸ first) _

theorem agree_of_foundedInMode (made : new node role settings = .ok p) {before later : List Moment}
    (founded : p.FoundedInMode (before ++ later)) : (p.after before).ModesAgree := by
  intro key b found traffic
  have there : key.lcid ∈ (p.after before).flows.descriptors.keys :=
    (tables_agree made before).buffers key ((SortedMap.mem_keys_iff _ _).2
      ((SortedMap.contains_eq_true_iff _ _).2 ⟨b, found⟩)) traffic
  obtain ⟨d, described⟩ := (SortedMap.contains_eq_true_iff _ _).1 ((SortedMap.mem_keys_iff _ _).1 there)
  obtain ⟨mode, decoded, first⟩ := decode_descriptor made before described
  have known : (p.after before).nature key = some (b.mode, b.path) := by rw [nature, found]; rfl
  obtain ⟨x, member, rfl, founds, own⟩ := (founder_run known).resolve_left (by simp [nature_new made])
  have inMode := founded x (by rw [boardings_append]; exact List.mem_append_left _ member) founds traffic
  have first' := Numbering.mode?_append first ((p.after before).numberings later)
  rw [← numberings_append] at first'
  refine ⟨d, described, ?_⟩
  rw [decoded, Option.some.inj (first'.symm.trans inMode), ← show x.unit.mode = b.mode from congrArg Prod.fst own]

/-- Units are taken in the modes of their connections if buffers are made in these modes. -/
theorem admitted_in_mode (made : new node role settings = .ok p) {ms : List Moment} (founded : p.FoundedInMode ms)
    {a : Admission} (member : a ∈ p.admitted ms) (traffic : a.key.lcid ≠ .control) :
    Numbering.mode? (p.numberings ms) a.key.lcid = some a.mode := by
  rw [admitted_eq] at member
  obtain ⟨x, boards, here⟩ := List.mem_flatMap.1 member
  obtain ⟨keyIs, y, there, makes, -⟩ := maker_of_admitted made boards here
  have lcid : y.unit.lcid = a.key.lcid := congrArg EntityKey.lcid (makes.key.trans keyIs.symm)
  have inMode := founded y there makes.founds (lcid ▸ traffic)
  rw [lcid, show y.unit.mode = a.mode from congrArg Prod.fst makes.nature] at inMode
  exact inMode

/-- At any time the descriptors tell the modes of the connections, and the buffers agree with them exactly if each buffer
is made for a unit in the mode of its connection. All frames are then sent in these modes. So it is if the packets of one
connection have hints of one mode. -/
theorem modes_agree_iff (made : new node role settings = .ok p) (ms : List Moment) :
    (∀ before later, ms = before ++ later → ∀ l d, (p.after before).flows.descriptor? l = some d →
      ∃ mode, DeliveryMode.ofCode? d.modeCode.toNat = some mode ∧ Numbering.mode? (p.numberings before) l = some mode) ∧
      ((∀ before later, ms = before ++ later → (p.after before).ModesAgree) ↔ p.FoundedInMode ms) ∧
      (p.FoundedInMode ms → ∀ f ∈ p.sent ms, f.envelope.lcid ≠ .control →
        Numbering.mode? (p.numberings ms) f.envelope.lcid = some f.envelope.mode) ∧
      ((∀ n ∈ p.numberings ms, ∀ n' ∈ p.numberings ms, n.unit.lcid = n'.unit.lcid → n.unit.mode = n'.unit.mode) →
        p.FoundedInMode ms) := by
  refine ⟨fun before later _ l d found => decode_descriptor made before found,
    ⟨foundedInMode_of_agree made, ?_⟩, fun founded f member traffic => ?_, fun uniform x boards _ traffic => ?_⟩
  · rintro founded before later rfl
    exact agree_of_foundedInMode made founded
  · obtain ⟨effects, ⟨-, admitted, sent⟩, sound⟩ := sound_run made ms
    obtain ⟨a, taken, cut⟩ := sound.served.exists_admission (sent ▸ member)
    obtain ⟨bytes, -, rfl⟩ := List.mem_map.1 cut
    exact admitted_in_mode made founded (admitted ▸ taken) traffic
  · obtain ⟨n, numbered, unit, -⟩ := numbered_of_boarding made boards traffic
    obtain ⟨first, found⟩ := Numbering.exists_first? numbered
    obtain ⟨member, same⟩ := Numbering.of_first? found
    rw [← unit, Numbering.mode?, found, Option.map_some, uniform first member n numbered same]

end

/-- Packets with the hint "bulk" are acknowledged, all others are not. -/
def mixedModes : PlaneSettings :=
  { PlaneSettings.default with profiles := ⟨[("bulk", ⟨.vod, .streaming, 2, 2⟩)], ProfileTable.defaultFallback⟩ }

def mixed : DataPlane := ((new ⟨1⟩ .peerDirect mixedModes).toOption).getD default

theorem new_mixed : new ⟨1⟩ .peerDirect mixedModes = .ok mixed := rfl

/-- A packet of another mode is sent in the mode of its connection, since it finds a buffer. -/
theorem modes_agree_iff_at_shared :
    let ms := [.packet .hello "voice", .packet .hello "bulk", .opportunity 4].map Stimulus.inPair
    new ⟨1⟩ .peerDirect mixedModes = .ok mixed ∧
      (mixed.numberings ms).map (·.unit.mode) = [.unacknowledged, .acknowledged] ∧
      (mixed.sent ms).map (·.envelope.mode) = [.unacknowledged, .unacknowledged] ∧
      ∀ before later, ms = before ++ later → (mixed.after before).ModesAgree := by
  intro ms
  have opening : Numbering.mode? (mixed.numberings ms) .first = some .unacknowledged := by decide +kernel
  let told (x : Boarding) := (x.unit.lcid, x.unit.mode, (x.plane.nature x.key).isNone)
  have listed : (mixed.boardings ms).map told =
      [(.first, .unacknowledged, true), (.first, .acknowledged, false)] := by decide +kernel
  have founded : mixed.FoundedInMode ms := by
    intro x member founds _
    have here : told x ∈ (mixed.boardings ms).map told := List.mem_map_of_mem member
    rw [listed, show told x = (x.unit.lcid, x.unit.mode, true) by simp only [told, show _ = _ from founds]; rfl] at here
    obtain ⟨lcid, mode⟩ : x.unit.lcid = .first ∧ x.unit.mode = .unacknowledged := by simpa using here
    rw [lcid, mode, opening]
  exact ⟨new_mixed, by decide +kernel, by decide +kernel, (modes_agree_iff new_mixed ms).2.1.2 founded⟩

/-- The second node takes another path between two packets of different modes: the buffer of the new path is in the
mode of the second packet, which the descriptor does not tell, and the packet is sent in it. -/
theorem modes_apart_at_reroute :
    let ms := (Stimulus.packet .hello "voice").inPair :: [.opportunity 4, .pathSwitch ⟨2⟩ .infrastructure false,
      .packet .hello "bulk", .opportunity 4].map fun stimulus => ⟨laterDirectory, ⟨0, 0, []⟩, stimulus⟩
    let q := mixed.after ms
    new ⟨1⟩ .peerDirect mixedModes = .ok mixed ∧
      (mixed.dispatched ms).map (fun x => x.2) = [⟨.first, some 0, .queued⟩, ⟨.first, some 1, .queued⟩] ∧
      (q.flows.descriptor? .first).map (fun d => DeliveryMode.ofCode? d.modeCode.toNat) = some (some .unacknowledged) ∧
      (q.buffers.get? ⟨⟨3⟩, .first⟩).map (·.mode) = some .acknowledged ∧
      (mixed.sent ms).map (·.envelope.mode) = [.unacknowledged, .acknowledged] ∧ ¬ q.ModesAgree := by
  intro ms q
  have described : (q.flows.descriptor? .first).map (fun d => DeliveryMode.ofCode? d.modeCode.toNat) =
      some (some .unacknowledged) := by decide +kernel
  have buffer : (q.buffers.get? ⟨⟨3⟩, .first⟩).map (·.mode) = some .acknowledged := by decide +kernel
  refine ⟨new_mixed, by decide +kernel, described, buffer, by decide +kernel, fun agree => ?_⟩
  obtain ⟨b, found, mode⟩ := Option.map_eq_some_iff.1 buffer
  obtain ⟨d, known, decoded⟩ := agree ⟨⟨3⟩, .first⟩ b found (by decide)
  rw [show q.flows.descriptor? .first = some d from known, Option.map_some, decoded, mode] at described
  cases described

end DataPlane

end Sidelink
