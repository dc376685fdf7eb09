import Sidelink.Address

/-!
The texts of numerals and of addresses. A numeral is written with digits, any number of zeros in front of the others, and
at most one plus sign before them (`Numeral.Spells`); reading accepts exactly these texts, up to the bound
(`Numeral.read_eq_ok_iff`). An octet of an address has one text only, the shortest, and so an address is read from one
text only, the one that is written for it (`Ipv4.read_eq_some_iff`).
-/
namespace Sidelink

/-! ## Numerals -/

namespace Numeral

/-- Whether a text is a numeral of a value. -/
def Spells (cs : List Char) (n : Nat) : Prop :=
  ∃ digits, (cs = digits ∨ cs = '+' :: digits) ∧ digits ≠ [] ∧ (∀ c ∈ digits, c.isDigit = true) ∧
    Nat.ofDigitChars 10 digits 0 = n

theorem digit?_eq_some_iff {c : Char} {d : Nat} : digit? c = some d ↔ c.isDigit = true ∧ c.toNat - 48 = d := by
  simp only [digit?, Char.isDigit, Bool.and_eq_true, decide_eq_true_eq]
  constructor
  · intro found
    split at found
    · rename_i digit
      exact ⟨digit, Option.some.inj found⟩
    · cases found
  · rintro ⟨digit, rfl⟩
    exact if_pos digit

theorem le_ofDigitChars (cs : List Char) (value : Nat) : value ≤ Nat.ofDigitChars 10 cs value := by
  induction cs generalizing value with
  | nil => exact Nat.le_refl value
  | cons c rest ih =>
    rw [Nat.ofDigitChars_cons]
    have := ih (10 * value + (c.toNat - '0'.toNat))
    omega

/-- Digits are read after a value exactly if they stay within the bound. -/
theorem scan_eq_ok_iff {bound value n : Nat} {cs : List Char} (within : value ≤ bound) :
    scan bound value cs = .ok n ↔
      (∀ c ∈ cs, c.isDigit = true) ∧ Nat.ofDigitChars 10 cs value = n ∧ n ≤ bound := by
  induction cs generalizing value with
  | nil =>
    simp only [scan, Except.ok.injEq, Nat.ofDigitChars_nil]
    constructor
    · rintro rfl
      exact ⟨by simp, rfl, within⟩
    · exact fun ⟨_, same, _⟩ => same
  | cons c rest ih =>
    rw [List.forall_mem_cons, Nat.ofDigitChars_cons]
    cases read : digit? c with
    | none =>
      have other : ¬ c.isDigit = true := fun digit => by
        rw [digit?_eq_some_iff.2 ⟨digit, rfl⟩] at read
        cases read
      simp [scan, read, other]
    | some d =>
      obtain ⟨digit, rfl⟩ := digit?_eq_some_iff.1 read
      have next : 10 * value + (c.toNat - '0'.toNat) = value * 10 + (c.toNat - 48) := by
        rw [Nat.mul_comm]
        rfl
      simp only [scan, read, next, digit, true_and]
      by_cases beyond : bound < value * 10 + (c.toNat - 48)
      · rw [if_pos beyond]
        refine iff_of_false (by simp) ?_
        rintro ⟨-, rfl, small⟩
        exact Nat.lt_irrefl _ (Nat.lt_of_lt_of_le beyond (Nat.le_trans (le_ofDigitChars rest _) small))
      · rw [if_neg beyond]
        exact ih (Nat.le_of_not_lt beyond)

/-- Exactly the numerals within the bound are read, each as its value. -/
theorem read_eq_ok_iff {bound n : Nat} {cs : List Char} : read bound cs = .ok n ↔ Spells cs n ∧ n ≤ bound := by
  have plus : ¬ '+'.isDigit = true := by decide
  have scanned {digits : List Char} (nonempty : digits ≠ []) : scan bound 0 digits = .ok n ↔
      (digits ≠ [] ∧ (∀ c ∈ digits, c.isDigit = true) ∧ Nat.ofDigitChars 10 digits 0 = n) ∧ n ≤ bound := by
    rw [scan_eq_ok_iff (Nat.zero_le bound), and_assoc, and_assoc, and_iff_right nonempty]
  unfold read Spells
  split
  · simp
  · simp [plus]
  · rename_i rest more
    rw [scanned fun empty => more (by rw [empty])]
    refine and_congr_left fun _ => ?_
    constructor
    · exact fun spelled => ⟨rest, Or.inr rfl, spelled⟩
    · rintro ⟨digits, rfl | same, spelled⟩
      · exact absurd (spelled.2.1 '+' List.mem_cons_self) plus
      · rwa [(List.cons.inj same).2]
  · rename_i nonempty _ unsigned
    rw [scanned nonempty]
    refine and_congr_left fun _ => ?_
    constructor
    · exact fun spelled => ⟨cs, Or.inl rfl, spelled⟩
    · rintro ⟨digits, rfl | same, spelled⟩
      · exact spelled
      · exact absurd same (unsigned digits)

/-! ### The shortest numeral of a value -/

theorem toNat_of_isDigit {c : Char} (digit : c.isDigit = true) : 48 ≤ c.toNat ∧ c.toNat ≤ 57 :=
  Char.isDigit_iff_toNat.1 digit

theorem toDigits_of_isDigit {c : Char} (digit : c.isDigit = true) : Nat.toDigits 10 (c.toNat - 48) = [c] := by
  obtain ⟨low, high⟩ := toNat_of_isDigit digit
  rw [Nat.toDigits_of_lt_base (by omega)]
  have same : (c.toNat - 48).digitChar = c := Char.toNat_inj.1 (by rw [Nat.toNat_digitChar_of_lt_ten (by omega)]; omega)
  rw [same]

/-- Digits behind a value other than zero are the last digits of the value that they lead to. -/
theorem toDigits_ofDigitChars {cs : List Char} (digits : ∀ c ∈ cs, c.isDigit = true) {value : Nat}
    (positive : 0 < value) : Nat.toDigits 10 (Nat.ofDigitChars 10 cs value) = Nat.toDigits 10 value ++ cs := by
  induction cs generalizing value with
  | nil => simp
  | cons c rest ih =>
    obtain ⟨digit, others⟩ := List.forall_mem_cons.1 digits
    obtain ⟨-, high⟩ := toNat_of_isDigit digit
    calc Nat.toDigits 10 (Nat.ofDigitChars 10 (c :: rest) value)
      _ = Nat.toDigits 10 (Nat.ofDigitChars 10 rest (10 * value + (c.toNat - 48))) := by
        rw [Nat.ofDigitChars_cons]
        rfl
      _ = Nat.toDigits 10 (10 * value + (c.toNat - 48)) ++ rest := ih others (by omega)
      _ = Nat.toDigits 10 value ++ Nat.toDigits 10 (c.toNat - 48) ++ rest := by
        rw [Nat.toDigits_append_toDigits (by decide) positive (by omega)]
      _ = Nat.toDigits 10 value ++ c :: rest := by
        rw [toDigits_of_isDigit digit, List.append_assoc, List.singleton_append]

/-- Digits that do not begin with a zero are the shortest numeral of their value. -/
theorem toDigits_value {c : Char} {rest : List Char} (digits : ∀ d ∈ c :: rest, d.isDigit = true) (lead : c ≠ '0') :
    Nat.toDigits 10 (Nat.ofDigitChars 10 (c :: rest) 0) = c :: rest := by
  obtain ⟨digit, others⟩ := List.forall_mem_cons.1 digits
  have positive : 0 < c.toNat - 48 := by
    obtain ⟨low, -⟩ := toNat_of_isDigit digit
    have : c.toNat ≠ '0'.toNat := fun same => lead (Char.toNat_inj.1 same)
    have : '0'.toNat = 48 := rfl
    omega
  have first : Nat.ofDigitChars 10 (c :: rest) 0 = Nat.ofDigitChars 10 rest (c.toNat - 48) := by
    rw [Nat.ofDigitChars_cons, Nat.mul_zero, Nat.zero_add]
    rfl
  rw [first, toDigits_ofDigitChars others positive, toDigits_of_isDigit digit]
  rfl

end Numeral

/-! ## Addresses -/

namespace Ipv4

theorem readOctet_toDigits : ∀ n < 256, readOctet (Nat.toDigits 10 n) = some n := by
  decide +kernel

/-- An octet is read from its shortest numeral only. -/
theorem readOctet_eq_some_iff {cs : List Char} {n : Nat} : readOctet cs = some n ↔ n < 256 ∧ cs = Nat.toDigits 10 n := by
  constructor
  · intro read
    unfold readOctet at read
    split at read
    · cases read
    · cases read
    · rename_i nonempty lead
      split at read
      · cases scanned : Numeral.scan 255 0 cs with
        | error cause => simp [scanned, Except.toOption] at read
        | ok m =>
          obtain rfl : m = n := by simpa [scanned, Except.toOption] using read
          obtain ⟨digits, rfl, small⟩ := (Numeral.scan_eq_ok_iff (Nat.zero_le 255)).1 scanned
          refine ⟨Nat.lt_succ_of_le small, ?_⟩
          match cs, lead with
          | c :: rest, lead =>
            by_cases zero : c = '0'
            · subst zero
              cases rest with
              | nil => rfl
              | cons d rest => exact absurd rfl (lead d rest)
            · exact (Numeral.toDigits_value digits zero).symm
      · cases read
  · rintro ⟨small, rfl⟩
    exact readOctet_toDigits n small

theorem parts_eq_splitOn (cs : List Char) : parts cs = cs.splitOn '.' := by
  induction cs with
  | nil => rfl
  | cons c rest ih =>
    rw [List.splitOn_eq_splitOnP, List.splitOnP_cons_eq_if_modifyHead, ← List.splitOn_eq_splitOnP, ← ih]
    by_cases dot : c = '.'
    · subst dot
      rfl
    · rw [if_neg (by simpa using dot)]
      cases split : parts rest with
      | nil => exact absurd (ih.symm.trans split) (List.splitOn_ne_nil '.' rest)
      | cons first others => simp [parts, split]

theorem toList_text (ip : Ipv4) : ip.text.toList = ['.'].intercalate (ip.octets.map (Nat.toDigits 10)) := by
  rw [text, String.toList_intercalate, List.map_map]
  congr 1
  refine List.map_congr_left fun n _ => ?_
  rw [Function.comp_apply, Nat.toString_eq_ofList_toDigits, String.toList_ofList]

theorem octet_lt {ip : Ipv4} {n : Nat} (octet : n ∈ ip.octets) : n < 256 := by
  have := ip.bits.toNat_lt
  simp only [octets, List.mem_cons, List.not_mem_nil, or_false] at octet
  omega

theorem octets_ofOctets {a b c d : Nat} (ha : a < 256) (hb : b < 256) (hc : c < 256) (hd : d < 256) :
    (ofOctets a b c d).octets = [a, b, c, d] := by
  have small : ((a * 256 + b) * 256 + c) * 256 + d < 4294967296 := by omega
  simp only [ofOctets, octets, UInt32.toNat_ofNat_of_lt' small, List.cons.injEq, and_true]
  refine ⟨?_, ?_, ?_, ?_⟩ <;> omega

theorem octets_inj {ip ip' : Ipv4} (same : ip.octets = ip'.octets) : ip = ip' := by
  obtain ⟨bits⟩ := ip
  obtain ⟨bits'⟩ := ip'
  simp only [octets, List.cons.injEq, and_true] at same
  exact congrArg Ipv4.mk (UInt32.toNat_inj.1 (by omega))

/-- The parts of the text of an address are the numerals of its octets. -/
theorem parts_text (ip : Ipv4) : parts ip.text.toList = ip.octets.map (Nat.toDigits 10) := by
  rw [parts_eq_splitOn, toList_text, List.splitOn_intercalate]
  · simp only [List.mem_map]
    rintro - ⟨n, -, rfl⟩ dot
    exact absurd (Nat.isDigit_of_mem_toDigits (by decide) (by decide) dot) (by decide)
  · simp [octets]

/-- An address is read from the text that is written for it, and from no other. -/
theorem read_eq_some_iff {cs : List Char} {ip : Ipv4} : read cs = some ip ↔ cs = ip.text.toList := by
  constructor
  · intro found
    unfold read at found
    split at found
    · rename_i a b c d split
      simp only [Option.bind_eq_bind, Option.bind_eq_some_iff, readOctet_eq_some_iff, Option.pure_def,
        Option.some.injEq] at found
      obtain ⟨a, ⟨ha, rfl⟩, b, ⟨hb, rfl⟩, c, ⟨hc, rfl⟩, d, ⟨hd, rfl⟩, rfl⟩ := found
      have joined : ['.'].intercalate (parts cs) = cs := by rw [parts_eq_splitOn, List.intercalate_splitOn]
      rw [toList_text, octets_ofOctets ha hb hc hd, ← joined, split]
      rfl
    · cases found
  · rintro rfl
    obtain ⟨a, b, c, d, are⟩ : ∃ a b c d, ip.octets = [a, b, c, d] := ⟨_, _, _, _, rfl⟩
    have small : ∀ n ∈ [a, b, c, d], n < 256 := fun n octet => octet_lt (are ▸ octet)
    simp only [List.forall_mem_cons] at small
    obtain ⟨ha, hb, hc, hd, -⟩ := small
    unfold read
    rw [parts_text, are]
    simp only [List.map_cons, List.map_nil, readOctet_toDigits _ ha, readOctet_toDigits _ hb, readOctet_toDigits _ hc,
      readOctet_toDigits _ hd, Option.bind_eq_bind, Option.bind_some, Option.pure_def, Option.some.injEq]
    exact octets_inj ((octets_ofOctets ha hb hc hd).trans are.symm)

end Ipv4
end Sidelink
