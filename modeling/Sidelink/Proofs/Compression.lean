import Sidelink.Plane.Events
import Sidelink.Proofs.Codec

/-!
What compression does to a data unit. At the receiver nothing is to be seen of it: the octets tell how to undo it, so
that every node restores the data unit, whatever the two nodes are configured to (`ConvergenceEntity.compress_unseen`).
On the air a data unit gains the configured size and loses the headers that this size stands for. The threshold looks at
all headers, and not at the configured size, so that a data unit can take more room than before; it does exactly if the
size exceeds the headers that it stands for (`ConvergenceEntity.costs_iff`).
-/
namespace Sidelink

/-- How many octets of headers a compression replaces. The transport header of an unknown protocol is none of them. -/
def Headers.replaced (h : Headers) : Nat :=
  match h.protocol with
  | .tcp | .udp => h.total
  | .other => h.network.toNat

namespace CompressionSettings

theorem minimum_le_of_faultless {s : CompressionSettings} (faultless : s.fault? = none) {size : UInt16}
    (configured : s.compressedSize = some size) : minimumSize ≤ size.toNat := by
  simp only [fault?, configured] at faultless
  split at faultless
  · cases faultless
  · rename_i large
    exact Nat.not_lt.1 large

end CompressionSettings

namespace ConvergenceEntity
variable {e : ConvergenceEntity} {pdu : ConvergencePdu} {size : UInt16}

/-! ## At the receiver -/

/-- A data unit without a context is restored from its octets as it was before the compression, and any node hands it up
as it was. -/
theorem compress_unseen (e : ConvergenceEntity) (sn : UInt32) (headers : Headers) (payload : Bytes) (p : DataPlane)
    (key : EntityKey) (path : Path) :
    let sent := (e.compress ⟨sn, headers, none, payload⟩).encode
    (ConvergencePdu.parse sent).map ConvergencePdu.decompress = .ok ⟨sn, headers, none, payload⟩ ∧
      (p.handUp key path sent).1 = .ok ⟨key.node, key.lcid, sn, path, headers, payload⟩ := by
  intro sent
  have parsed : ConvergencePdu.parse sent = .ok (e.compress ⟨sn, headers, none, payload⟩) :=
    ConvergencePdu.parse_encode _
  have restored := e.decompress_compress sn headers payload
  constructor
  · rw [parsed, Except.map, restored]
  · simp only [DataPlane.handUp, parsed, restored]

/-! ## On the air -/

/-- Whether an entity compresses the headers of a data unit, to some size. -/
structure Compresses (e : ConvergenceEntity) (pdu : ConvergencePdu) (size : UInt16) : Prop where
  configured : e.settings.compressedSize = some size
  plain : pdu.context = none
  large : e.settings.threshold.toNat ≤ pdu.headers.total

theorem compress_eq_self (leaves : ∀ size, ¬ e.Compresses pdu size) : e.compress pdu = pdu := by
  rw [compress]
  split
  · rename_i size configured plain
    exact if_pos (Nat.not_le.1 fun large => leaves size ⟨configured, plain, large⟩)
  · rfl

/-- A compressed data unit has the configured size in place of the headers that it stands for. -/
theorem modeledLength_of_compresses (faultless : e.settings.fault? = none) (compresses : e.Compresses pdu size)
    (mode : DeliveryMode) :
    (e.compress pdu).modeledLength mode + pdu.headers.replaced = pdu.modeledLength mode + size.toNat := by
  obtain ⟨configured, plain, large⟩ := compresses
  have minimum : 3 ≤ size.toNat := CompressionSettings.minimum_le_of_faultless faultless configured
  have below := size.toNat_lt
  obtain ⟨sn, ⟨network, protocol, transport⟩, context, payload⟩ := pdu
  obtain rfl : context = none := plain
  simp only [compress, configured, if_neg (Nat.not_lt.2 large)]
  cases protocol with
  | tcp | udp =>
    simp only [ConvergencePdu.modeledLength, Headers.replaced, Headers.total, UInt16.toNat_ofNat', UInt16.toNat_one]
    omega
  | other =>
    simp only [ConvergencePdu.modeledLength, Headers.replaced, Headers.total, UInt16.toNat_ofNat', UInt16.toNat_one]
    omega

/-- A data unit takes more room once it went through compression exactly if it is compressed, and to a size that exceeds
the headers that the size stands for. What it gains or loses is the difference of the two. -/
theorem costs_iff (faultless : e.settings.fault? = none) (pdu : ConvergencePdu) (mode : DeliveryMode) :
    (pdu.modeledLength mode < (e.compress pdu).modeledLength mode ↔
        ∃ size, e.Compresses pdu size ∧ pdu.headers.replaced < size.toNat) ∧
      ∀ size, e.Compresses pdu size →
        (e.compress pdu).modeledLength mode + pdu.headers.replaced = pdu.modeledLength mode + size.toNat := by
  have exchanged (size : UInt16) (compresses : e.Compresses pdu size) :=
    modeledLength_of_compresses faultless compresses mode
  refine ⟨⟨fun longer => ?_, fun ⟨size, compresses, exceeds⟩ => ?_⟩, exchanged⟩
  · by_cases some_size : ∃ size, e.Compresses pdu size
    · obtain ⟨size, compresses⟩ := some_size
      have balance := exchanged size compresses
      exact ⟨size, compresses, by omega⟩
    · rw [compress_eq_self (not_exists.1 some_size)] at longer
      exact absurd longer (Nat.lt_irrefl _)
  · have balance := exchanged size compresses
    omega

/-- A packet behind IPv4 and UDP is compressed to fewer octets than it has headers. -/
theorem costs_iff_at_four :
    let e := new .first ⟨some 4, 20⟩
    let pdu : ConvergencePdu := ⟨0, .udp, none, [0xaa]⟩
    e.settings.fault? = none ∧ e.Compresses pdu 4 ∧
      (pdu.modeledLength .acknowledged < (e.compress pdu).modeledLength .acknowledged ↔
        ∃ size, e.Compresses pdu size ∧ pdu.headers.replaced < size.toNat) ∧
      (e.compress pdu).modeledLength .acknowledged + 28 = pdu.modeledLength .acknowledged + 4 := by
  intro e pdu
  have compresses : e.Compresses pdu 4 := ⟨rfl, rfl, by decide⟩
  obtain ⟨costs, exchanged⟩ := costs_iff (e := e) (by rfl) pdu .acknowledged
  exact ⟨rfl, compresses, costs, exchanged 4 compresses⟩

/-- With sizes and thresholds that are accepted, packets take more room than before: behind IPv4 and UDP where the size
exceeds the threshold, and behind a transport header that stays as it is even with the smallest size. -/
theorem longer_when_compressed :
    (let e := new .first ⟨some 40, 20⟩
      let pdu : ConvergencePdu := ⟨0, .udp, none, []⟩
      e.settings.fault? = none ∧ pdu.modeledLength .unacknowledged = 29 ∧
        (e.compress pdu).modeledLength .unacknowledged = 41) ∧
      let e := new .first ⟨some 3, 20⟩
      let pdu : ConvergencePdu := ⟨0, ⟨0, .other, 20⟩, none, []⟩
      e.settings.fault? = none ∧ pdu.modeledLength .unacknowledged = 21 ∧
        (e.compress pdu).modeledLength .unacknowledged = 24 := by
  decide

end ConvergenceEntity
end Sidelink
