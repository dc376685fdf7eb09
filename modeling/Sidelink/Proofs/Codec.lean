import Sidelink.Convergence.Entity
import Sidelink.Link.Segment

/-!
Every data unit is read back as it was written, whatever octets its payload has. For segments this is
`SegmentHeader.parse_encode`, for the convergence layer `ConvergencePdu.parse_encode`; and what a receiver restores
from a compressed data unit has the header sizes that the packet had before (`ConvergenceEntity.decompress_compress`).
The two layers meet in `Packet.unit`, the unit that a packet travels as.
-/
namespace Sidelink

/-! ## Words -/

namespace Bytes

theorem readOctet_cons (b : UInt8) (rest : Bytes) : readOctet (b :: rest) = .ok (b, rest) := rfl

theorem readWord16_ofWord16 (w : UInt16) (rest : Bytes) : readWord16 (ofWord16 w ++ rest) = .ok (w, rest) := by
  have below := w.toNat_lt
  have same : UInt16.ofNat ((UInt8.ofNat (w.toNat / 256)).toNat * 256 + (UInt8.ofNat w.toNat).toNat) = w := by
    apply UInt16.toNat_inj.1
    simp only [UInt16.toNat_ofNat', UInt8.toNat_ofNat']
    omega
  show Except.ok (UInt16.ofNat _, rest) = _
  rw [same]

theorem readWord32_ofWord32 (w : UInt32) (rest : Bytes) : readWord32 (ofWord32 w ++ rest) = .ok (w, rest) := by
  have below := w.toNat_lt
  have same : UInt32.ofNat ((((UInt8.ofNat (w.toNat / 16777216)).toNat * 256
      + (UInt8.ofNat (w.toNat / 65536)).toNat) * 256 + (UInt8.ofNat (w.toNat / 256)).toNat) * 256
      + (UInt8.ofNat w.toNat).toNat) = w := by
    apply UInt32.toNat_inj.1
    simp only [UInt32.toNat_ofNat', UInt8.toNat_ofNat']
    omega
  show Except.ok (UInt32.ofNat _, rest) = _
  rw [same]

end Bytes

/-! ## Segments -/

theorem SegmentFlags.ofOctet?_toOctet (f : SegmentFlags) : ofOctet? f.toOctet = some f := by
  obtain ⟨first, last, poll⟩ := f
  cases first <;> cases last <;> cases poll <;> decide

namespace SegmentHeader

/-- A segment is read back as its header and its data. -/
theorem parse_encode (h : SegmentHeader) (data : Bytes) : parse (h.encode data) = .ok (h, data) := by
  have fields : readFields (h.encode data) = .ok (h.flags.toOctet, h.sn, h.offset, data) := by
    simp only [readFields, encode, List.cons_append, List.append_assoc, Bytes.readOctet_cons,
      Bytes.readWord32_ofWord32, bind, Except.bind, pure, Except.pure]
  have read : (readFields (h.encode data)).mapError (MalformedPdu.truncated .segment) =
      .ok (h.flags.toOctet, h.sn, h.offset, data) := congrArg (Except.mapError _) fields
  simp only [parse, read, bind, Except.bind, SegmentFlags.ofOctet?_toOctet]
  rfl

end SegmentHeader

/-! ## Data units of the convergence layer -/

theorem Transport.ofCode_code (t : Transport) : ofCode t.code = t := by
  cases t <;> decide

namespace ConvergencePdu

theorem readContext_encodeContext (c : CompressionContext) (rest : Bytes) :
    readContext (encodeContext (some c) ++ rest) = .ok (c, rest) := by
  simp only [readContext, encodeContext, List.append_assoc, Bytes.readWord16_ofWord16, bind, Except.bind, pure,
    Except.pure]

theorem readHeader_encode (pdu : ConvergencePdu) :
    readHeader pdu.encode =
      .ok (pdu.sn, if pdu.context.isSome then 1 else 0, pdu.headers, encodeContext pdu.context ++ pdu.payload) := by
  simp only [readHeader, encode, List.append_assoc, List.cons_append, Bytes.readWord32_ofWord32,
    Bytes.readOctet_cons, Bytes.readWord16_ofWord16, Transport.ofCode_code, bind, Except.bind, pure, Except.pure]

/-- A data unit is read back as it was written. -/
theorem parse_encode (pdu : ConvergencePdu) : parse pdu.encode = .ok pdu := by
  obtain ⟨sn, headers, context, payload⟩ := pdu
  have header : (readHeader (encode ⟨sn, headers, context, payload⟩)).mapError (MalformedPdu.truncated .convergence) =
      .ok (sn, if context.isSome then 1 else 0, headers, encodeContext context ++ payload) :=
    congrArg (Except.mapError _) (readHeader_encode _)
  simp only [parse, header, bind, Except.bind]
  cases context with
  | none => rfl
  | some c =>
    have fields : (readContext (encodeContext (some c) ++ payload)).mapError (MalformedPdu.truncated .compression) =
        .ok (c, payload) := congrArg (Except.mapError _) (readContext_encodeContext c payload)
    simp only [Option.isSome_some, if_true, fields]
    rfl

end ConvergencePdu

namespace ConvergenceEntity

/-- Compression changes nothing of a data unit but its headers, and those come back at the receiver. -/
theorem decompress_compress (e : ConvergenceEntity) (sn : UInt32) (headers : Headers) (payload : Bytes) :
    (e.compress ⟨sn, headers, none, payload⟩).decompress = ⟨sn, headers, none, payload⟩ := by
  obtain ⟨network, protocol, transport⟩ := headers
  simp only [compress]
  cases e.settings.compressedSize with
  | none => rfl
  | some size =>
    simp only
    split
    · rfl
    · cases protocol <;> rfl

theorem compress_eq_of_settings {a b : ConvergenceEntity} (same : a.settings = b.settings) (pdu : ConvergencePdu) :
    a.compress pdu = b.compress pdu := by
  simp only [compress, same]

end ConvergenceEntity

/-! ## Units -/

namespace Packet

/-- The unit that a packet travels as under a sequence number. -/
def unit (packet : Packet) (settings : CompressionSettings) (sn : UInt32) : Bytes :=
  ((ConvergenceEntity.new .control settings).compress ⟨sn, packet.headers, none, packet.payload⟩).encode

/-- A receiver restores a packet from its unit. -/
theorem parse_unit (packet : Packet) (settings : CompressionSettings) (sn : UInt32) :
    ∃ pdu, ConvergencePdu.parse (packet.unit settings sn) = .ok pdu ∧
      pdu.decompress = ⟨sn, packet.headers, none, packet.payload⟩ :=
  ⟨_, ConvergencePdu.parse_encode _, ConvergenceEntity.decompress_compress _ _ _ _⟩

end Packet
end Sidelink
