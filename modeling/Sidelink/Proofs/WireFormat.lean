import Sidelink.Proofs.Codec

/-!
The octets of segments and of data units of the convergence layer. Octets are a segment exactly if it is written as
these octets (`SegmentHeader.parse_eq_ok_iff`), so their number and the first of them tell whether they are one, and
each segment has one form (`SegmentHeader.segment_format`).

In the convergence layer, too, what is read was written: the octets of a data unit are those that `encode` writes, but
for the flags, of which the lowest bit alone counts, and for the code of the protocol, since all codes without a
protocol stand for the same one (`ConvergencePdu.parse_eq_ok_iff`). So the length and the lowest bit of the flags tell
whether octets are a data unit, and a data unit that is written again differs in two octets at most
(`ConvergencePdu.wire_format`).
-/
namespace Sidelink

theorem bind_eq_ok_iff {α β ε : Type} {x : Except ε α} {f : α → Except ε β} {b : β} :
    x >>= f = .ok b ↔ ∃ a, x = .ok a ∧ f a = .ok b := by
  cases x <;> simp [bind, Except.bind]

theorem mapError_eq_ok_iff {α ε ε' : Type} {x : Except ε α} {f : ε → ε'} {a : α} :
    x.mapError f = .ok a ↔ x = .ok a := by
  cases x with
  | error e => exact ⟨(nomatch ·), (nomatch ·)⟩
  | ok b =>
    show Except.ok b = Except.ok a ↔ Except.ok b = Except.ok a
    rw [Except.ok.injEq, Except.ok.injEq]

/-! ## Words -/

namespace Bytes
variable {data rest : Bytes}

theorem readOctet_eq_ok_iff {b : UInt8} : readOctet data = .ok (b, rest) ↔ data = b :: rest := by
  cases data <;> simp [readOctet]

theorem ofWord16_join (a b : UInt8) : ofWord16 (UInt16.ofNat (a.toNat * 256 + b.toNat)) = [a, b] := by
  have high := a.toNat_lt
  have low := b.toNat_lt
  simp only [ofWord16, List.cons.injEq, and_true, ← UInt8.toNat_inj, UInt8.toNat_ofNat', UInt16.toNat_ofNat']
  omega

theorem ofWord32_join (a b c d : UInt8) :
    ofWord32 (UInt32.ofNat (((a.toNat * 256 + b.toNat) * 256 + c.toNat) * 256 + d.toNat)) = [a, b, c, d] := by
  have first := a.toNat_lt
  have second := b.toNat_lt
  have third := c.toNat_lt
  have fourth := d.toNat_lt
  simp only [ofWord32, List.cons.injEq, and_true, ← UInt8.toNat_inj, UInt8.toNat_ofNat', UInt32.toNat_ofNat']
  omega

theorem length_ofWord16 (w : UInt16) : (ofWord16 w).length = 2 := rfl

theorem length_ofWord32 (w : UInt32) : (ofWord32 w).length = 4 := rfl

theorem exists_ofWord16 (data : Bytes) (enough : 2 ≤ data.length) : ∃ w rest, data = ofWord16 w ++ rest :=
  match data, enough with
  | a :: b :: rest, _ => ⟨_, rest, congrArg (· ++ rest) (ofWord16_join a b).symm⟩

theorem exists_ofWord32 (data : Bytes) (enough : 4 ≤ data.length) : ∃ w rest, data = ofWord32 w ++ rest :=
  match data, enough with
  | a :: b :: c :: d :: rest, _ => ⟨_, rest, congrArg (· ++ rest) (ofWord32_join a b c d).symm⟩

theorem readWord16_eq_ok_iff {w : UInt16} : readWord16 data = .ok (w, rest) ↔ data = ofWord16 w ++ rest := by
  constructor
  · intro read
    rw [readWord16.eq_def] at read
    split at read
    · rename_i a b tail
      obtain ⟨rfl, rfl⟩ := Prod.mk.inj (Except.ok.inj read)
      rw [ofWord16_join]
      rfl
    · cases read
  · rintro rfl
    exact readWord16_ofWord16 w rest

theorem readWord32_eq_ok_iff {w : UInt32} : readWord32 data = .ok (w, rest) ↔ data = ofWord32 w ++ rest := by
  constructor
  · intro read
    rw [readWord32.eq_def] at read
    split at read
    · rename_i a b c d tail
      obtain ⟨rfl, rfl⟩ := Prod.mk.inj (Except.ok.inj read)
      rw [ofWord32_join]
      rfl
    · cases read
  · rintro rfl
    exact readWord32_ofWord32 w rest

end Bytes

/-! ## Segments -/

namespace SegmentFlags

/-- An octet without other bits than flags is the octet of its flags. -/
theorem toOctet_of_lt (b : UInt8) (known : b.toNat < 8) :
    toOctet ⟨b.toNat % 2 = 1, b.toNat / 2 % 2 = 1, b.toNat / 4 = 1⟩ = b := by
  have all : ∀ n < 8, toOctet ⟨n % 2 = 1, n / 2 % 2 = 1, n / 4 = 1⟩ = UInt8.ofNat n := by decide
  rw [all _ known, UInt8.ofNat_toNat]

theorem toOctet_le (f : SegmentFlags) : f.toOctet ≤ 7 := by
  obtain ⟨first, last, poll⟩ := f
  cases first <;> cases last <;> cases poll <;> decide

theorem ofOctet?_eq_some_iff {b : UInt8} {f : SegmentFlags} : ofOctet? b = some f ↔ b = f.toOctet := by
  constructor
  · intro read
    simp only [ofOctet?] at read
    split at read
    · rename_i known
      rw [← Option.some.inj read, toOctet_of_lt b known]
    · cases read
  · rintro rfl
    exact ofOctet?_toOctet f

end SegmentFlags

namespace SegmentHeader
variable {octets data : Bytes}

theorem readFields_eq_ok_iff {flags : UInt8} {sn offset : UInt32} :
    readFields octets = .ok (flags, sn, offset, data) ↔
      octets = flags :: Bytes.ofWord32 sn ++ Bytes.ofWord32 offset ++ data := by
  simp only [readFields, bind_eq_ok_iff, Prod.exists, Bytes.readOctet_eq_ok_iff, Bytes.readWord32_eq_ok_iff, pure,
    Except.pure, Except.ok.injEq, Prod.mk.injEq]
  constructor
  · rintro ⟨_, _, rfl, _, _, rfl, _, _, rfl, rfl, rfl, rfl, rfl⟩
    simp only [List.cons_append, List.append_assoc]
  · rintro rfl
    exact ⟨_, _, rfl, _, _, List.append_assoc .., _, _, rfl, rfl, rfl, rfl, rfl⟩

/-- Octets are read as a segment exactly if the segment is written as these octets. -/
theorem parse_eq_ok_iff {h : SegmentHeader} : parse octets = .ok (h, data) ↔ h.encode data = octets := by
  constructor
  · intro read
    simp only [parse, bind_eq_ok_iff, mapError_eq_ok_iff, Prod.exists, readFields_eq_ok_iff] at read
    obtain ⟨octet, sn, offset, rest, rfl, read⟩ := read
    split at read
    · rename_i flags known
      obtain ⟨rfl, rfl⟩ := Prod.mk.inj (Except.ok.inj read)
      rw [SegmentFlags.ofOctet?_eq_some_iff.1 known]
      rfl
    · cases read
  · rintro rfl
    exact parse_encode h data

/-- Nine octets of which the first has no other bits than flags begin with a header. -/
theorem exists_encode (enough : 9 ≤ octets.length) (known : octets.getD 0 0 ≤ 7) :
    ∃ h data, encode h data = octets := by
  obtain ⟨octet, rest, rfl⟩ := List.exists_cons_of_length_pos (l := octets) (by omega)
  obtain ⟨flags, rfl⟩ : ∃ flags : SegmentFlags, flags.toOctet = octet :=
    ⟨_, SegmentFlags.toOctet_of_lt octet (Nat.lt_succ_of_le (UInt8.le_iff_toNat_le.1 known))⟩
  rw [List.length_cons] at enough
  obtain ⟨sn, rest, rfl⟩ := Bytes.exists_ofWord32 rest (by omega)
  rw [List.length_append, Bytes.length_ofWord32] at enough
  obtain ⟨offset, data, rfl⟩ := Bytes.exists_ofWord32 rest (by omega)
  exact ⟨⟨flags, sn, offset⟩, data, by simp only [encode, List.cons_append, List.append_assoc]⟩

/-- A segment is read back as its header and its data. Octets are a segment exactly if there are nine of them at least
and the first is at most seven. What was read of such octets is written as these octets again. -/
theorem segment_format (h : SegmentHeader) (data octets : Bytes) :
    parse (h.encode data) = .ok (h, data) ∧
      ((∃ segment, parse octets = .ok segment) ↔ 9 ≤ octets.length ∧ octets.getD 0 0 ≤ 7) ∧
      ∀ header rest, parse octets = .ok (header, rest) → header.encode rest = octets := by
  refine ⟨parse_encode h data, ?_, fun header rest => parse_eq_ok_iff.1⟩
  constructor
  · rintro ⟨⟨header, rest⟩, read⟩
    obtain rfl := parse_eq_ok_iff.1 read
    refine ⟨?_, header.flags.toOctet_le⟩
    show 9 ≤ rest.length + 9
    exact Nat.le_add_left 9 _
  · rintro ⟨enough, known⟩
    obtain ⟨header, rest, written⟩ := exists_encode enough known
    exact ⟨(header, rest), parse_eq_ok_iff.2 written⟩

/-- The octets of the last segment of a unit, which asks for a report and begins 65536 octets into the unit. -/
def distant : Bytes := [6, 0xff, 0xff, 0xff, 0xff, 0, 1, 0, 0, 0xaa]

theorem segment_format_at_distant :
    let header : SegmentHeader := ⟨⟨false, true, true⟩, 4294967295, 65536⟩
    parse distant = .ok (header, [0xaa]) ∧ parse (header.encode [0xaa]) = .ok (header, [0xaa]) ∧
      (∃ segment, parse distant = .ok segment) ∧ header.encode [0xaa] = distant := by
  intro header
  have read : parse distant = .ok (header, [0xaa]) := rfl
  obtain ⟨back, accepted, again⟩ := segment_format header [0xaa] distant
  exact ⟨read, back, accepted.2 (by decide), again header [0xaa] read⟩

/-- An octet with a bit of no meaning is refused, and so are eight octets. -/
example : parse (8 :: distant.tail) = .error (.unknownFlags 8) ∧
    parse (distant.take 8) = .error (.truncated .segment 3) := ⟨rfl, rfl⟩

end SegmentHeader

/-! ## Codes of protocols -/

namespace Transport

/-- The codes of protocols are those that their protocol is written with. -/
theorem code_ofCode_eq_iff (c : UInt8) : (ofCode c).code = c ↔ c = 0 ∨ c = 6 ∨ c = 17 := by
  simp only [ofCode]
  split
  · rename_i tcp
    simp [tcp, code]
  · split
    · rename_i udp
      simp [udp, code]
    · rename_i notTcp notUdp
      simp [notTcp, notUdp, code, eq_comm]

end Transport

namespace ConvergencePdu

/-! ## The layout of a data unit -/

/-- The octets of a data unit, with some flags and some code of the protocol. -/
def layout (pdu : ConvergencePdu) (flags code : UInt8) : Bytes :=
  Bytes.ofWord32 pdu.sn ++ flags :: Bytes.ofWord16 pdu.headers.network ++
    code :: Bytes.ofWord16 pdu.headers.transport ++ encodeContext pdu.context ++ pdu.payload

/-- Whether flags tell if a data unit has a context, and a code what its protocol is. -/
structure Tells (flags code : UInt8) (pdu : ConvergencePdu) : Prop where
  context : flags.toNat % 2 = 1 ↔ pdu.context.isSome = true
  protocol : Transport.ofCode code = pdu.headers.protocol

/-- The flags that a data unit is written with. -/
def flags (pdu : ConvergencePdu) : UInt8 := if pdu.context.isSome then 1 else 0

variable {pdu : ConvergencePdu} {data : Bytes} {flags code flags' code' : UInt8}

theorem encode_eq_layout (pdu : ConvergencePdu) : pdu.encode = pdu.layout pdu.flags pdu.headers.protocol.code := rfl

theorem length_encodeContext (c : Option CompressionContext) :
    (encodeContext c).length = if c.isSome then 6 else 0 := by
  cases c <;> rfl

theorem length_layout (pdu : ConvergencePdu) (flags code : UInt8) :
    (pdu.layout flags code).length = 10 + (if pdu.context.isSome then 6 else 0) + pdu.payload.length := by
  rw [layout, List.length_append, List.length_append, length_encodeContext]
  rfl

theorem layout_eq_set (pdu : ConvergencePdu) (flags code flags' code' : UInt8) :
    pdu.layout flags code = ((pdu.layout flags' code').set 4 flags).set 7 code := rfl

theorem flags_of_layout (pdu : ConvergencePdu) (flags code : UInt8) : (pdu.layout flags code)[4]? = some flags := rfl

theorem code_of_layout (pdu : ConvergencePdu) (flags code : UInt8) : (pdu.layout flags code)[7]? = some code := rfl

theorem layout_eq_layout_iff :
    pdu.layout flags code = pdu.layout flags' code' ↔ flags = flags' ∧ code = code' := by
  constructor
  · intro same
    have fourth := congrArg (·[4]?) same
    have seventh := congrArg (·[7]?) same
    exact ⟨Option.some.inj fourth, Option.some.inj seventh⟩
  · rintro ⟨rfl, rfl⟩
    rfl

/-! ## Reading -/

theorem readHeader_eq_ok_iff {sn : UInt32} {headers : Headers} {rest : Bytes} :
    readHeader data = .ok (sn, flags, headers, rest) ↔
      ∃ code, data = Bytes.ofWord32 sn ++ flags :: Bytes.ofWord16 headers.network ++
          code :: Bytes.ofWord16 headers.transport ++ rest ∧ Transport.ofCode code = headers.protocol := by
  obtain ⟨network, protocol, transport⟩ := headers
  simp only [readHeader, bind_eq_ok_iff, Prod.exists, Bytes.readWord32_eq_ok_iff, Bytes.readOctet_eq_ok_iff,
    Bytes.readWord16_eq_ok_iff, pure, Except.pure, Except.ok.injEq, Prod.mk.injEq, Headers.mk.injEq]
  constructor
  · rintro ⟨_, _, rfl, _, _, rfl, _, _, rfl, code, _, rfl, _, _, rfl, rfl, rfl, ⟨rfl, rfl, rfl⟩, rfl⟩
    exact ⟨code, by simp only [List.append_assoc, List.cons_append], rfl⟩
  · rintro ⟨code, rfl, rfl⟩
    exact ⟨_, _, rfl, _, _, rfl, _, _, rfl, code, _, rfl, _, _, rfl, rfl, rfl, ⟨rfl, rfl, rfl⟩, rfl⟩

theorem readContext_eq_ok_iff {c : CompressionContext} {rest : Bytes} :
    readContext data = .ok (c, rest) ↔ data = encodeContext (some c) ++ rest := by
  constructor
  · intro read
    obtain ⟨network, transport, header⟩ := c
    simp only [readContext, bind_eq_ok_iff, Prod.exists, Bytes.readWord16_eq_ok_iff, pure, Except.pure,
      Except.ok.injEq, Prod.mk.injEq, CompressionContext.mk.injEq] at read
    obtain ⟨_, _, rfl, _, _, rfl, _, _, rfl, ⟨rfl, rfl, rfl⟩, rfl⟩ := read
    simp only [encodeContext, List.append_assoc]
  · rintro rfl
    exact readContext_encodeContext c rest

/-- Octets are read as a data unit exactly if they are laid out as it is, behind flags and a code that tell of it. -/
theorem parse_eq_ok_iff :
    parse data = .ok pdu ↔ ∃ flags code, data = pdu.layout flags code ∧ Tells flags code pdu := by
  obtain ⟨sn, headers, context, payload⟩ := pdu
  simp only [parse, bind_eq_ok_iff, mapError_eq_ok_iff, Prod.exists, readHeader_eq_ok_iff]
  constructor
  · rintro ⟨sn', flags, headers', rest, ⟨code, rfl, protocol⟩, read⟩
    split at read
    · rename_i compressed
      simp only [bind_eq_ok_iff, mapError_eq_ok_iff, Prod.exists, readContext_eq_ok_iff, pure, Except.pure,
        Except.ok.injEq, ConvergencePdu.mk.injEq] at read
      obtain ⟨c, payload', rfl, rfl, rfl, rfl, rfl⟩ := read
      refine ⟨flags, code, ?_, ⟨by simp [compressed], protocol⟩⟩
      simp only [layout, List.append_assoc, List.cons_append]
    · rename_i plain
      simp only [pure, Except.pure, Except.ok.injEq, ConvergencePdu.mk.injEq] at read
      obtain ⟨rfl, rfl, rfl, rfl⟩ := read
      exact ⟨flags, code, by simp only [layout, encodeContext, List.append_nil], ⟨by simp [plain], protocol⟩⟩
  · rintro ⟨flags, code, rfl, tells⟩
    refine ⟨sn, flags, headers, encodeContext context ++ payload, ⟨code, ?_, tells.protocol⟩, ?_⟩
    · simp only [layout, List.append_assoc, List.cons_append]
    · cases context with
      | none =>
        rw [if_neg (fun odd => by cases tells.context.1 odd)]
        rfl
      | some c =>
        rw [if_pos (tells.context.2 rfl)]
        simp only [bind_eq_ok_iff, mapError_eq_ok_iff, Prod.exists, readContext_eq_ok_iff]
        exact ⟨c, payload, rfl, rfl⟩

theorem exists_fields (enough : 10 ≤ data.length) :
    ∃ sn flags network code transport rest, data = Bytes.ofWord32 sn ++ flags :: Bytes.ofWord16 network ++
      code :: Bytes.ofWord16 transport ++ rest := by
  obtain ⟨sn, data, rfl⟩ := Bytes.exists_ofWord32 data (by omega)
  rw [List.length_append, Bytes.length_ofWord32] at enough
  obtain ⟨flags, data, rfl⟩ := List.exists_cons_of_length_pos (l := data) (by omega)
  rw [List.length_cons] at enough
  obtain ⟨network, data, rfl⟩ := Bytes.exists_ofWord16 data (by omega)
  rw [List.length_append, Bytes.length_ofWord16] at enough
  obtain ⟨code, data, rfl⟩ := List.exists_cons_of_length_pos (l := data) (by omega)
  rw [List.length_cons] at enough
  obtain ⟨transport, rest, rfl⟩ := Bytes.exists_ofWord16 data (by omega)
  exact ⟨sn, flags, network, code, transport, rest, by simp only [List.append_assoc, List.cons_append]⟩

theorem exists_context (data : Bytes) (enough : 6 ≤ data.length) : ∃ c rest, data = encodeContext (some c) ++ rest := by
  obtain ⟨network, data, rfl⟩ := Bytes.exists_ofWord16 data (by omega)
  rw [List.length_append, Bytes.length_ofWord16] at enough
  obtain ⟨transport, data, rfl⟩ := Bytes.exists_ofWord16 data (by omega)
  rw [List.length_append, Bytes.length_ofWord16] at enough
  obtain ⟨header, rest, rfl⟩ := Bytes.exists_ofWord16 data (by omega)
  exact ⟨⟨network, transport, header⟩, rest, by simp only [encodeContext, List.append_assoc]⟩

/-- Octets are a data unit exactly if there are enough of them: ten, and six more behind flags that tell of a
context. -/
theorem exists_parse_iff (data : Bytes) :
    (∃ pdu, parse data = .ok pdu) ↔
      10 ≤ data.length ∧ ((data.getD 4 0).toNat.testBit 0 = true → 16 ≤ data.length) := by
  simp only [parse_eq_ok_iff, Nat.testBit_zero, decide_eq_true_eq, List.getD_eq_getElem?_getD]
  constructor
  · rintro ⟨pdu, flags, code, rfl, tells⟩
    rw [length_layout, flags_of_layout, Option.getD_some]
    refine ⟨by omega, fun odd => ?_⟩
    rw [if_pos (tells.context.1 odd)]
    omega
  · rintro ⟨fixed, compressed⟩
    obtain ⟨sn, flags, network, code, transport, rest, rfl⟩ := exists_fields fixed
    by_cases odd : flags.toNat % 2 = 1
    · have enough := compressed odd
      simp only [List.length_append, List.length_cons, Bytes.length_ofWord32, Bytes.length_ofWord16] at enough
      obtain ⟨c, payload, rfl⟩ := exists_context rest (by omega)
      refine ⟨⟨sn, ⟨network, .ofCode code, transport⟩, some c, payload⟩, flags, code, ?_, ?_, rfl⟩
      · simp only [layout, List.append_assoc, List.cons_append]
      · simp [odd]
    · refine ⟨⟨sn, ⟨network, .ofCode code, transport⟩, none, rest⟩, flags, code, ?_, ?_, rfl⟩
      · simp only [layout, encodeContext, List.append_nil]
      · simp [odd]

/-! ## Writing again what was read -/

theorem Tells.flags_eq_iff (tells : Tells flags code pdu) : pdu.flags = flags ↔ flags = 0 ∨ flags = 1 := by
  have parity := tells.context
  rw [ConvergencePdu.flags]
  constructor
  · rintro rfl
    split
    · exact Or.inr rfl
    · exact Or.inl rfl
  · rintro (rfl | rfl)
    · exact if_neg fun compressed => by cases parity.2 compressed
    · exact if_pos (parity.1 rfl)

/-- A data unit is read back as it was written. Octets are a data unit exactly if there are ten of them at least, and
sixteen where the lowest bit of the fifth is set. Written again, what was read of such octets is as long as they are and
differs from them in the fifth and the eighth at most: it is the same exactly if the fifth is 0 or 1 and the eighth is
the code that some protocol is written with. -/
theorem wire_format (pdu : ConvergencePdu) (data : Bytes) :
    parse pdu.encode = .ok pdu ∧
      ((∃ read, parse data = .ok read) ↔
        10 ≤ data.length ∧ ((data.getD 4 0).toNat.testBit 0 = true → 16 ≤ data.length)) ∧
      ∀ read, parse data = .ok read →
        read.encode.length = data.length ∧
          (read.encode = data ↔ (data[4]? = some 0 ∨ data[4]? = some 1) ∧
            (data[7]? = some 0 ∨ data[7]? = some 6 ∨ data[7]? = some 17)) ∧
          ∀ i, i ≠ 4 → i ≠ 7 → read.encode[i]? = data[i]? := by
  refine ⟨parse_encode pdu, exists_parse_iff data, fun read parsed => ?_⟩
  obtain ⟨flags, code, rfl, tells⟩ := parse_eq_ok_iff.1 parsed
  have canonical : read.headers.protocol.code = code ↔ code = 0 ∨ code = 6 ∨ code = 17 := by
    rw [← tells.protocol]
    exact Transport.code_ofCode_eq_iff code
  simp only [encode_eq_layout, flags_of_layout, code_of_layout, Option.some.injEq]
  refine ⟨by rw [length_layout, length_layout], ?_, fun i notFlags notCode => ?_⟩
  · rw [layout_eq_layout_iff, tells.flags_eq_iff, canonical]
  · rw [layout_eq_set read read.flags _ flags code, List.getElem?_set_ne (Ne.symm notCode),
      List.getElem?_set_ne (Ne.symm notFlags)]

/-- A data unit with a context, behind flags with a bit of no meaning and a code without a protocol. -/
def unfamiliar : Bytes := [0, 0, 0, 7, 3, 0, 1, 99, 0, 12, 0, 24, 0, 0, 0, 2, 0xaa]

/-- What it is read as. -/
def familiar : ConvergencePdu := ⟨7, ⟨1, .other, 12⟩, some ⟨24, 0, 2⟩, [0xaa]⟩

theorem wire_format_at_unfamiliar :
    parse unfamiliar = .ok familiar ∧
      familiar.encode = [0, 0, 0, 7, 1, 0, 1, 0, 0, 12, 0, 24, 0, 0, 0, 2, 0xaa] ∧
      parse familiar.encode = .ok familiar ∧
      (∃ read, parse unfamiliar = .ok read) ∧
      familiar.encode.length = unfamiliar.length ∧ familiar.encode ≠ unfamiliar ∧
      ∀ i, i ≠ 4 → i ≠ 7 → familiar.encode[i]? = unfamiliar[i]? := by
  obtain ⟨back, accepted, again⟩ := wire_format familiar unfamiliar
  have read : parse unfamiliar = .ok familiar := rfl
  obtain ⟨length, same, elsewhere⟩ := again familiar read
  exact ⟨read, by decide, back, accepted.2 (by decide), length, mt same.1 (by decide), elsewhere⟩

end ConvergencePdu
end Sidelink
