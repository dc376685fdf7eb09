import Sidelink.Flow.Key
import Sidelink.Proofs.Numerals
import Sidelink.Scenario.Flow

/-!
Where the flows of a scenario go. The text of a destination is the word for everybody, a token by its numeral, or an
address (`Destination.Spells`), and reading accepts exactly these texts (`Destination.read_eq_ok_iff`). Flows that are
alike but for their destinations have different endpoints, and so they are never one flow to a node. Only everybody has
two names: the word, and the token that packets for everybody carry (`TrafficFlow.apart_unless_everybody`).
-/
namespace Sidelink

/-! ## Texts of destinations -/

theorem Ipv4.text_begins_with_digit (ip : Ipv4) : ∃ c rest, ip.text.toList = c :: rest ∧ c.isDigit = true := by
  obtain ⟨a, rest, are⟩ : ∃ a rest, ip.octets = a :: rest := ⟨_, _, rfl⟩
  have others : rest.map (Nat.toDigits 10) ≠ [] := by
    obtain rfl := (List.cons.inj are).2
    simp
  rw [toList_text, are, List.map_cons, List.intercalate_cons_of_ne_nil others, List.append_assoc]
  cases digits : Nat.toDigits 10 a with
  | nil => exact absurd digits Nat.toDigits_ne_nil
  | cons c rest =>
    exact ⟨c, _, rfl, Nat.isDigit_of_mem_toDigits (by decide) (by decide) (digits ▸ List.mem_cons_self)⟩

namespace Destination

/-- Whether a text without blanks around it stands for a destination. -/
inductive Spells : List Char → Destination → Prop
  | broadcast : Spells "broadcast".toList .broadcast
  | token {digits : List Char} {value : UInt32} (spells : Numeral.Spells digits value.toNat) :
      Spells ("token:".toList ++ digits) (.token value)
  | ip (host : Ipv4) : Spells host.text.toList (.ip host)

theorem read_eq_ok_iff {text : String} {d : Destination} : read text = .ok d ↔ Spells (Blank.strip text.toList) d := by
  unfold read
  generalize Blank.strip text.toList = word
  constructor
  · intro found
    dsimp only at found
    split at found
    · rename_i same
      obtain rfl := Except.ok.inj found
      exact same ▸ .broadcast
    · split at found
      · rename_i marked
        obtain ⟨digits, rfl⟩ := List.isPrefixOf_iff_prefix.1 marked
        rw [List.drop_left] at found
        split at found
        · rename_i value numeral
          obtain rfl := Except.ok.inj found
          obtain ⟨spells, small⟩ := Numeral.read_eq_ok_iff.1 numeral
          refine .token ?_
          rwa [UInt32.toNat_ofNat_of_lt' (Nat.lt_succ_of_le small)]
        · cases found
      · split at found
        · rename_i host address
          obtain rfl := Except.ok.inj found
          exact Ipv4.read_eq_some_iff.1 address ▸ .ip host
        · cases found
  · intro spells
    cases spells with
    | broadcast => rfl
    | @token digits value spells =>
      have other : "token:".toList ++ digits ≠ "broadcast".toList := by simp
      have marked : "token:".toList.isPrefixOf ("token:".toList ++ digits) = true :=
        List.isPrefixOf_iff_prefix.2 (List.prefix_append _ _)
      have numeral := Numeral.read_eq_ok_iff.2 ⟨spells, Nat.le_of_lt_succ value.toNat_lt⟩
      simp only [if_neg other, if_pos marked, List.drop_left, numeral, UInt32.ofNat_toNat]
    | ip host =>
      -- Neither of the two words begins with a digit.
      obtain ⟨c, rest, begins, digit⟩ := host.text_begins_with_digit
      have other : host.text.toList ≠ "broadcast".toList := fun same => by
        rw [begins] at same
        obtain rfl : c = 'b' := (List.cons.inj same).1
        exact absurd digit (by decide)
      have unmarked : ¬ "token:".toList.isPrefixOf host.text.toList = true := fun marked => by
        rw [begins] at marked
        obtain ⟨rfl, -⟩ : 't' = c ∧ _ := List.cons_prefix_cons.1 (List.isPrefixOf_iff_prefix.1 marked)
        exact absurd digit (by decide)
      simp only [if_neg other, if_neg unmarked, Ipv4.read_eq_some_iff.2 rfl]

end Destination

/-! ## Endpoints of flows -/

/-- Whether a destination is everybody: the word for it, or the token of everybody. -/
def Destination.IsEverybody (d : Destination) : Prop := d = .broadcast ∨ d = .token Endpoints.broadcast

instance (d : Destination) : Decidable d.IsEverybody := inferInstanceAs (Decidable (_ ∨ _))

/-- The destination that packets with some endpoints are for. -/
def Endpoints.destination : Endpoints → Destination
  | .ip _ socket => .ip socket.host
  | .token _ value => if value = broadcast then .broadcast else .token value

namespace TrafficFlow
variable {f g : TrafficFlow} {address : Option Ipv4} {a b : Destination} {e e' : Endpoints}

/-- The endpoints of a flow's packets, by its destination. A flow to an address needs one to send from. -/
def endpointsTo? (f : TrafficFlow) (address : Option Ipv4) : Destination → Option Endpoints
  | .ip host => address.map fun source => .ip ⟨source, f.sourcePort⟩ ⟨host, f.destinationPort⟩
  | .token value => some (.token (UInt32.ofNat f.source.value.toNat) value)
  | .broadcast => some (.token (UInt32.ofNat f.source.value.toNat) Endpoints.broadcast)

theorem endpoints_eq_ok_iff (reads : Destination.read f.destination = .ok a) :
    f.endpoints address = .ok e ↔ f.endpointsTo? address a = some e := by
  simp only [endpoints, reads]
  cases a with
  | ip host => cases address <;> simp [endpointsTo?]
  | token value => simp [endpointsTo?]
  | broadcast => simp [endpointsTo?]

theorem endpointsTo?_eq_none_iff : f.endpointsTo? address a = none ↔ address = none ∧ ∃ host, a = .ip host := by
  cases a <;> simp [endpointsTo?]

theorem endpointsTo?_of_isEverybody (everybody : a.IsEverybody) :
    f.endpointsTo? address a = some (.token (UInt32.ofNat f.source.value.toNat) Endpoints.broadcast) := by
  rcases everybody with rfl | rfl <;> rfl

/-- The endpoints tell the destination, but for the name of everybody. -/
theorem destination_of_endpointsTo? (goes : f.endpointsTo? address a = some e) :
    e.destination = if a.IsEverybody then .broadcast else a := by
  cases a with
  | ip host =>
    obtain ⟨source, -, rfl⟩ := Option.map_eq_some_iff.1 goes
    simp [Endpoints.destination, Destination.IsEverybody]
  | token value =>
    obtain rfl := Option.some.inj goes
    simp [Endpoints.destination, Destination.IsEverybody]
  | broadcast =>
    obtain rfl := Option.some.inj goes
    simp [Endpoints.destination, Destination.IsEverybody]

/-- Two destinations of a flow have the same endpoints exactly if they are the same, or both are everybody. -/
theorem endpointsTo?_eq_iff (goes : f.endpointsTo? address a = some e) (goes' : f.endpointsTo? address b = some e') :
    e = e' ↔ a = b ∨ a.IsEverybody ∧ b.IsEverybody := by
  constructor
  · rintro rfl
    have told := (destination_of_endpointsTo? goes).symm.trans (destination_of_endpointsTo? goes')
    split at told
    · rename_i one
      split at told
      · rename_i other
        exact Or.inr ⟨one, other⟩
      · rename_i other
        exact absurd (Or.inl told.symm) other
    · rename_i one
      split at told
      · exact absurd (Or.inl told) one
      · exact Or.inl told
  · rintro (rfl | ⟨one, other⟩)
    · exact Option.some.inj (goes.symm.trans goes')
    · rw [endpointsTo?_of_isEverybody one] at goes
      rw [endpointsTo?_of_isEverybody other] at goes'
      exact Option.some.inj (goes.symm.trans goes')

theorem endpointsTo?_congr (source : g.source = f.source) (sourcePort : g.sourcePort = f.sourcePort)
    (destinationPort : g.destinationPort = f.destinationPort) :
    g.endpointsTo? address = f.endpointsTo? address := by
  funext d
  cases d <;> simp only [endpointsTo?, source, sourcePort, destinationPort]

/-- Flows of one node that are alike but for what their destinations stand for have different endpoints, and no key in
common whichever directions their packets have, unless both destinations are everybody. A flow to an address has
endpoints if the node has an address, any other has them in any case. Packets to a token are for a group exactly if it
is the token of everybody. -/
theorem apart_unless_everybody (source : g.source = f.source) (sourcePort : g.sourcePort = f.sourcePort)
    (destinationPort : g.destinationPort = f.destinationPort) (reads : Destination.read f.destination = .ok a)
    (reads' : Destination.read g.destination = .ok b) (distinct : a ≠ b) :
    (Destination.Spells (Blank.strip f.destination.toList) a ∧
        Destination.Spells (Blank.strip g.destination.toList) b) ∧
      ((∃ e, f.endpoints address = .ok e) ↔ (address = none → ∀ host, a ≠ .ip host)) ∧
      ∀ {e e'}, f.endpoints address = .ok e → g.endpoints address = .ok e' →
        (e = e' ↔ a.IsEverybody ∧ b.IsEverybody) ∧
        (∀ direction direction', FlowKey.ofEndpoints e direction = .ofEndpoints e' direction' ↔
          a.IsEverybody ∧ b.IsEverybody) ∧
        ∀ value, a = .token value → (e.isGroup = true ↔ value = Endpoints.broadcast) := by
  refine ⟨⟨Destination.read_eq_ok_iff.1 reads, Destination.read_eq_ok_iff.1 reads'⟩, ?_, fun {e e'} made made' => ?_⟩
  · simp only [endpoints_eq_ok_iff reads, ← Option.ne_none_iff_exists', ne_eq, endpointsTo?_eq_none_iff, not_and,
      not_exists]
  · have goes := (endpoints_eq_ok_iff reads).1 made
    have goes' := (endpoints_eq_ok_iff reads').1 made'
    rw [endpointsTo?_congr source sourcePort destinationPort] at goes'
    have same : e = e' ↔ a.IsEverybody ∧ b.IsEverybody := by
      rw [endpointsTo?_eq_iff goes goes', or_iff_right distinct]
    refine ⟨same, fun direction direction' => ⟨fun keys => same.1 (FlowKey.endpoints_inj keys), fun everybody => ?_⟩, ?_⟩
    · -- Keys between tokens have no direction.
      obtain rfl := same.2 everybody
      rw [endpointsTo?_of_isEverybody everybody.1] at goes
      obtain rfl := Option.some.inj goes
      rfl
    · rintro value rfl
      obtain rfl := Option.some.inj goes
      exact beq_iff_eq

/-- Packets of the third node, for a destination that is written in some way. -/
def reports (destination : String) : TrafficFlow :=
  ⟨⟨3⟩, destination, "safety-beacon", 100, 40, 5000, 6000, some 5, none⟩

/-- Packets for the ninth node are not for everybody, and are another flow. -/
theorem apart_unless_everybody_at_ninth :
    Destination.read (reports "token:9").destination = .ok (.token 9) ∧
      Destination.read (reports " broadcast ").destination = .ok .broadcast ∧
      (reports "token:9").endpoints none = .ok (.token 3 9) ∧
      (reports " broadcast ").endpoints none = .ok (.token 3 Endpoints.broadcast) ∧
      (Endpoints.token 3 9).isGroup = false ∧
      ∀ direction direction',
        FlowKey.ofEndpoints (.token 3 9) direction ≠ .ofEndpoints (.token 3 Endpoints.broadcast) direction' := by
  have source : (reports " broadcast ").source = (reports "token:9").source := rfl
  have reads : Destination.read (reports "token:9").destination = .ok (.token 9) := rfl
  have reads' : Destination.read (reports " broadcast ").destination = .ok .broadcast := rfl
  have made : (reports "token:9").endpoints none = .ok (.token 3 9) := rfl
  have made' : (reports " broadcast ").endpoints none = .ok (.token 3 Endpoints.broadcast) := rfl
  obtain ⟨-, -, apart⟩ := apart_unless_everybody source rfl rfl reads reads' (by decide)
  obtain ⟨-, keys, group⟩ := apart made made'
  have other : ¬ (Destination.token 9).IsEverybody := by decide
  refine ⟨reads, reads', made, made', Bool.eq_false_iff.2 fun many => ?_, fun direction direction' same => ?_⟩
  · exact absurd ((group 9 rfl).1 many) (by decide)
  · exact other ((keys direction direction').1 same).1

/-- Everybody is reached by the word and by the token: two destinations, but one flow. -/
theorem everybody_by_two_names :
    Destination.read (reports "token:4294967295").destination = .ok (.token 4294967295) ∧
      Destination.read (reports "broadcast").destination = .ok .broadcast ∧
      Destination.token 4294967295 ≠ .broadcast ∧
      (reports "token:4294967295").endpoints none = .ok (.token 3 4294967295) ∧
      (reports "broadcast").endpoints none = .ok (.token 3 4294967295) ∧
      (Endpoints.token 3 4294967295).isGroup = true :=
  ⟨rfl, rfl, nofun, rfl, rfl, rfl⟩

end TrafficFlow
end Sidelink
