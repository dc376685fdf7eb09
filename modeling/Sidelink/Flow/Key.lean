import Sidelink.Address
import Sidelink.Traffic

/-!
What tells one flow of packets from another: the two sockets and the direction, or the two tokens. Keys are ranked
so that they can be kept in order.
-/
namespace Sidelink

inductive FlowKey where
  | ip (source destination : Socket) (direction : Direction)
  | token (source destination : UInt32)
  deriving DecidableEq, Inhabited

namespace FlowKey

/-- The flow of a packet. The direction tells flows between sockets apart, not flows between tokens. -/
def ofEndpoints (endpoints : Endpoints) (direction : Direction) : FlowKey :=
  match endpoints with
  | .ip source destination => .ip source destination direction
  | .token source destination => .token source destination

theorem endpoints_inj {e e' : Endpoints} {d d' : Direction} (same : ofEndpoints e d = ofEndpoints e' d') : e = e' := by
  cases e <;> cases e' <;> simp_all [ofEndpoints]

def text : FlowKey → String
  | .ip source destination direction => s!"{source.text} -> {destination.text} ({direction.label})"
  | .token source destination => s!"token {source} -> token {destination}"

/-! ## Order -/

def directionIndex : Direction → Nat
  | .uplink => 0
  | .downlink => 1
  | .sidelink => 2
  | .groupcast => 3

def socketIndex (s : Socket) : Nat := s.host.bits.toNat * 65536 + s.port.toNat

/-- Flows between tokens have even ranks, flows between sockets odd ones. -/
def index : FlowKey → Nat
  | .token source destination => (source.toNat * 4294967296 + destination.toNat) * 2
  | .ip source destination direction =>
    ((socketIndex source * 281474976710656 + socketIndex destination) * 4 + directionIndex direction) * 2 + 1

theorem directionIndex_lt (d : Direction) : directionIndex d < 4 := by cases d <;> decide

theorem directionIndex_inj {d e : Direction} (h : directionIndex d = directionIndex e) : d = e := by
  cases d <;> cases e <;> simp_all [directionIndex]

theorem socketIndex_lt (s : Socket) : socketIndex s < 281474976710656 := by
  have := s.host.bits.toNat_lt
  have := s.port.toNat_lt
  simp only [socketIndex]
  omega

theorem socketIndex_inj {s t : Socket} (h : socketIndex s = socketIndex t) : s = t := by
  obtain ⟨⟨sh⟩, sp⟩ := s
  obtain ⟨⟨th⟩, tp⟩ := t
  have := sp.toNat_lt
  have := tp.toNat_lt
  simp only [socketIndex] at h
  obtain rfl : sh = th := UInt32.toNat_inj.1 (by omega)
  obtain rfl : sp = tp := UInt16.toNat_inj.1 (by omega)
  rfl

theorem index_inj {a b : FlowKey} (h : index a = index b) : a = b := by
  cases a with
  | token s d =>
    cases b with
    | token s' d' =>
      have := d.toNat_lt
      have := d'.toNat_lt
      simp only [index] at h
      obtain rfl : s = s' := UInt32.toNat_inj.1 (by omega)
      obtain rfl : d = d' := UInt32.toNat_inj.1 (by omega)
      rfl
    | ip => simp only [index] at h; omega
  | ip s d e =>
    cases b with
    | token => simp only [index] at h; omega
    | ip s' d' e' =>
      have := socketIndex_lt d
      have := socketIndex_lt d'
      have := directionIndex_lt e
      have := directionIndex_lt e'
      simp only [index] at h
      obtain rfl := socketIndex_inj (s := s) (t := s') (by omega)
      obtain rfl := socketIndex_inj (s := d) (t := d') (by omega)
      obtain rfl := directionIndex_inj (d := e) (e := e') (by omega)
      rfl

/-- Compares two keys by their ranks. -/
def order : FlowKey → FlowKey → Ordering := compareOn index

instance : Std.TransCmp order := inferInstanceAs (Std.TransCmp (compareOn index))

instance : Std.LawfulEqCmp order where
  eq_of_compare h := index_inj (Nat.compare_eq_eq.1 h)

end FlowKey
end Sidelink
