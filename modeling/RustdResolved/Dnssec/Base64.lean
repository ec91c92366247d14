import Mathlib.Data.List.GetD
import RustdResolved.Dnssec.TrustAnchors

/-! # Keys in base64

The manager of RFC 5011 writes the keys of its anchors in base64 and the reader of anchor files has
a decoder of its own. Both are stated in groups: three octets are four digits, each a number below
64, and a last group of one or two octets is padded. `decodeBase64_base64Encode` is the round
trip. -/

namespace RustdResolved.Dnssec.Base64

open List Wire Octets Presentation TrustAnchors Rfc5011.Runtime

/-! ### Digits -/

/-- The character of a number below 64. -/
def digitOf (n : Nat) : Char := base64Table.getD n '='

theorem base64Digit_eq (value shift : Nat) :
    base64Digit value shift = digitOf (value / 2 ^ shift % 64) :=
  rfl

/-- A digit is one octet, which is read as its number, and is not the padding. -/
theorem utf8EncodeChar_digitOf {n : Nat} (h : n < 64) :
    ∃ byte, String.utf8EncodeChar (digitOf n) = [byte] ∧ byte ≠ 61 ∧
      base64Value byte = some (UInt8.ofNat n) := by
  have hall : ∀ n : Fin 64, ∃ byte, String.utf8EncodeChar (digitOf n) = [byte] ∧ byte ≠ 61 ∧
      base64Value byte = some (UInt8.ofNat n) := fun n =>
    ⟨(String.utf8EncodeChar (digitOf n)).headD 0, by
      revert n
      set_option maxRecDepth 4000 in decide⟩
  exact hall ⟨n, h⟩

def isBase64Char (c : Char) : Bool := c == '=' || c ∈ base64Table

theorem isBase64Char_digitOf {n : Nat} : isBase64Char (digitOf n) = true := by
  unfold isBase64Char digitOf
  rcases lt_or_ge n base64Table.length with h | h
  · rw [getD_eq_getElem _ _ h]
    simp
  · rw [getD_eq_default _ _ h]
    simp

theorem isBase64Char_base64Encode {bytes : Bytes} {d : Char} (hd : d ∈ base64Encode bytes) :
    isBase64Char d = true := by
  induction bytes using base64Encode.induct with
  | case1 a b c rest ih =>
    simp only [base64Encode, mem_append, mem_cons, not_mem_nil, or_false] at hd
    rcases hd with hdigit | hrest
    · rcases hdigit with rfl | rfl | rfl | rfl <;> exact isBase64Char_digitOf
    · exact ih hrest
  | case2 a b =>
    simp only [base64Encode, mem_cons, not_mem_nil, or_false] at hd
    rcases hd with rfl | rfl | rfl | rfl
    iterate 3 exact isBase64Char_digitOf
    rfl
  | case3 a =>
    simp only [base64Encode, mem_cons, not_mem_nil, or_false] at hd
    rcases hd with rfl | rfl | rfl | rfl
    iterate 2 exact isBase64Char_digitOf
    all_goals rfl
  | case4 => cases hd

theorem base64Encode_ne_nil {bytes : Bytes} (h : bytes ≠ []) : base64Encode bytes ≠ [] := by
  rcases bytes with _ | ⟨a, _ | ⟨b, _ | ⟨c, rest⟩⟩⟩
  · exact absurd rfl h
  · simp [base64Encode]
  · simp [base64Encode]
  · simp [base64Encode]

/-! ### Octets from digits -/

/-- Bits that do not meet are added. -/
theorem ofNat_or {a b i : Nat} (hb : b < 2 ^ i) (h : a * 2 ^ i + b < 256) :
    UInt8.ofNat (a * 2 ^ i) ||| UInt8.ofNat b = UInt8.ofNat (a * 2 ^ i + b) := by
  apply UInt8.toNat_inj.mp
  rw [UInt8.toNat_or, UInt8.toNat_ofNat_of_lt' (Nat.lt_of_le_of_lt (Nat.le_add_right _ _) h),
    UInt8.toNat_ofNat_of_lt' (Nat.lt_of_le_of_lt (Nat.le_add_left _ _) h),
    UInt8.toNat_ofNat_of_lt' h, ← Nat.shiftLeft_eq, Nat.shiftLeft_add_eq_or_of_lt hb]

theorem firstOctet (x y : Fin 64) :
    UInt8.ofNat x <<< 2 ||| UInt8.ofNat y >>> 4 = UInt8.ofNat (x.val * 4 + y.val / 16) := by
  have hx : ∀ x : Fin 64, UInt8.ofNat x <<< 2 = UInt8.ofNat (x.val * 2 ^ 2) := by decide
  have hy : ∀ y : Fin 64, UInt8.ofNat y >>> 4 = UInt8.ofNat (y.val / 16) := by decide
  rw [hx, hy, ofNat_or (by omega) (by omega)]
  rfl

theorem secondOctet (y z : Fin 64) :
    UInt8.ofNat y <<< 4 ||| UInt8.ofNat z >>> 2 = UInt8.ofNat (y.val % 16 * 16 + z.val / 4) := by
  have hy : ∀ y : Fin 64, UInt8.ofNat y <<< 4 = UInt8.ofNat (y.val % 16 * 2 ^ 4) := by decide
  have hz : ∀ z : Fin 64, UInt8.ofNat z >>> 2 = UInt8.ofNat (z.val / 4) := by decide
  rw [hy, hz, ofNat_or (by omega) (by omega)]
  rfl

theorem thirdOctet (z w : Fin 64) :
    UInt8.ofNat z <<< 6 ||| UInt8.ofNat w = UInt8.ofNat (z.val % 4 * 64 + w.val) := by
  have hz : ∀ z : Fin 64, UInt8.ofNat z <<< 6 = UInt8.ofNat (z.val % 4 * 2 ^ 6) := by decide
  rw [hz, ofNat_or (by omega) (by omega)]
  rfl

theorem secondPadding : ∀ y : Fin 64, y.val % 16 = 0 → UInt8.ofNat y &&& 0x0f = 0 := by
  decide

theorem thirdPadding : ∀ z : Fin 64, z.val % 4 = 0 → UInt8.ofNat z &&& 0x03 = 0 := by
  decide

/-! ### Groups -/

section

variable {x y z w : Nat} (hx : x < 64) (hy : y < 64)
include hx hy

/-- A group of four digits is three octets. -/
theorem decodeBase64_group (hz : z < 64) (hw : w < 64) (rest : Text) :
    decodeBase64Groups (asBytes (digitOf x :: digitOf y :: digitOf z :: digitOf w :: rest)) =
      (decodeBase64Groups (asBytes rest)).map fun others =>
        UInt8.ofNat (x * 4 + y / 16) :: UInt8.ofNat (y % 16 * 16 + z / 4) ::
          UInt8.ofNat (z % 4 * 64 + w) :: others := by
  obtain ⟨a, ha, -, hvalueA⟩ := utf8EncodeChar_digitOf hx
  obtain ⟨b, hb, -, hvalueB⟩ := utf8EncodeChar_digitOf hy
  obtain ⟨c, hc, hpadC, hvalueC⟩ := utf8EncodeChar_digitOf hz
  obtain ⟨d, hd, hpadD, hvalueD⟩ := utf8EncodeChar_digitOf hw
  have hbytes : asBytes (digitOf x :: digitOf y :: digitOf z :: digitOf w :: rest) =
      a :: b :: c :: d :: asBytes rest := by
    simp [asBytes, ha, hb, hc, hd]
  have hfirst := firstOctet ⟨x, hx⟩ ⟨y, hy⟩
  have hsecond := secondOctet ⟨y, hy⟩ ⟨z, hz⟩
  have hthird := thirdOctet ⟨z, hz⟩ ⟨w, hw⟩
  simp only at hfirst hsecond hthird
  rw [hbytes, decodeBase64Groups]
  cases decodeBase64Groups (asBytes rest) <;>
    simp [hvalueA, hvalueB, hvalueC, hvalueD, base64Padded, hpadC, hpadD, base64Octets,
      hfirst, hsecond, hthird]

theorem decodeBase64_group_two (hz : z < 64) (hpadding : z % 4 = 0) :
    decodeBase64Groups (asBytes [digitOf x, digitOf y, digitOf z, '=']) =
      some [UInt8.ofNat (x * 4 + y / 16), UInt8.ofNat (y % 16 * 16 + z / 4)] := by
  obtain ⟨a, ha, -, hvalueA⟩ := utf8EncodeChar_digitOf hx
  obtain ⟨b, hb, -, hvalueB⟩ := utf8EncodeChar_digitOf hy
  obtain ⟨c, hc, hpadC, hvalueC⟩ := utf8EncodeChar_digitOf hz
  have hequals : String.utf8EncodeChar '=' = [61] := by decide
  have hbytes : asBytes [digitOf x, digitOf y, digitOf z, '='] = [a, b, c, 61] := by
    simp [asBytes, ha, hb, hc, hequals]
  have hfirst := firstOctet ⟨x, hx⟩ ⟨y, hy⟩
  have hsecond := secondOctet ⟨y, hy⟩ ⟨z, hz⟩
  have hzero := thirdPadding ⟨z, hz⟩ hpadding
  simp only at hfirst hsecond hzero
  rw [hbytes, decodeBase64Groups]
  simp [hvalueA, hvalueB, hvalueC, base64Padded, hpadC, hzero, base64Octets, decodeBase64Groups,
    hfirst, hsecond]

theorem decodeBase64_group_one (hpadding : y % 16 = 0) :
    decodeBase64Groups (asBytes [digitOf x, digitOf y, '=', '=']) =
      some [UInt8.ofNat (x * 4 + y / 16)] := by
  obtain ⟨a, ha, -, hvalueA⟩ := utf8EncodeChar_digitOf hx
  obtain ⟨b, hb, -, hvalueB⟩ := utf8EncodeChar_digitOf hy
  have hequals : String.utf8EncodeChar '=' = [61] := by decide
  have hbytes : asBytes [digitOf x, digitOf y, '=', '='] = [a, b, 61, 61] := by
    simp [asBytes, ha, hb, hequals]
  have hfirst := firstOctet ⟨x, hx⟩ ⟨y, hy⟩
  have hzero := secondPadding ⟨y, hy⟩ hpadding
  simp only at hfirst hzero
  rw [hbytes, decodeBase64Groups]
  simp [hvalueA, hvalueB, base64Padded, hzero, base64Octets, decodeBase64Groups, hfirst]

end

/-- **What is written is read back.** -/
theorem decodeBase64_base64Encode (bytes : Bytes) :
    decodeBase64 (base64Encode bytes) = some bytes := by
  unfold decodeBase64
  induction bytes using base64Encode.induct with
  | case1 a b c rest ih =>
    have ha := a.toNat_lt
    have hb := b.toNat_lt
    have hc := c.toNat_lt
    simp only [base64Encode, base64Digit_eq, cons_append, nil_append]
    rw [decodeBase64_group (by omega) (by omega) (by omega) (by omega), ih]
    have hfirst : (a.toNat * 65536 + b.toNat * 256 + c.toNat) / 2 ^ 18 % 64 * 4 +
        (a.toNat * 65536 + b.toNat * 256 + c.toNat) / 2 ^ 12 % 64 / 16 = a.toNat := by omega
    have hsecond : (a.toNat * 65536 + b.toNat * 256 + c.toNat) / 2 ^ 12 % 64 % 16 * 16 +
        (a.toNat * 65536 + b.toNat * 256 + c.toNat) / 2 ^ 6 % 64 / 4 = b.toNat := by omega
    have hthird : (a.toNat * 65536 + b.toNat * 256 + c.toNat) / 2 ^ 6 % 64 % 4 * 64 +
        (a.toNat * 65536 + b.toNat * 256 + c.toNat) / 2 ^ 0 % 64 = c.toNat := by omega
    rw [hfirst, hsecond, hthird]
    simp
  | case2 a b =>
    have ha := a.toNat_lt
    have hb := b.toNat_lt
    simp only [base64Encode, base64Digit_eq]
    rw [decodeBase64_group_two (by omega) (by omega) (by omega) (by omega)]
    have hfirst : (a.toNat * 65536 + b.toNat * 256) / 2 ^ 18 % 64 * 4 +
        (a.toNat * 65536 + b.toNat * 256) / 2 ^ 12 % 64 / 16 = a.toNat := by omega
    have hsecond : (a.toNat * 65536 + b.toNat * 256) / 2 ^ 12 % 64 % 16 * 16 +
        (a.toNat * 65536 + b.toNat * 256) / 2 ^ 6 % 64 / 4 = b.toNat := by omega
    rw [hfirst, hsecond]
    simp
  | case3 a =>
    have ha := a.toNat_lt
    simp only [base64Encode, base64Digit_eq]
    rw [decodeBase64_group_one (by omega) (by omega) (by omega)]
    have hfirst : a.toNat * 65536 / 2 ^ 18 % 64 * 4 + a.toNat * 65536 / 2 ^ 12 % 64 / 16 =
        a.toNat := by omega
    rw [hfirst]
    simp
  | case4 => rfl

end RustdResolved.Dnssec.Base64
