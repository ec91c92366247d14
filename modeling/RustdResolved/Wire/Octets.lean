import Mathlib.Algebra.Group.Int.Defs
import Mathlib.Algebra.GroupWithZero.Nat
import Mathlib.Data.Char
import Mathlib.Data.List.Lex
import RustdResolved.Lib.Result

/-! # Octets, text and the readers of a packet

A packet is a list of octets and a Rust `str` a list of characters. `u16` and `u32` values are
natural numbers, put together from their octets by `readU16` and `readU32`. An offset is a `usize`;
no offset into a packet comes near the end of that type, so the sums of `checkedEnd` are plain.

`WireError` has the source's errors and two marks of the model: `panic` where the source indexes a
slice without a check, and `outOfFuel` where a loop of the model runs out of its bound. -/

namespace RustdResolved.Wire.Octets

open List

variable {byte : UInt8} {start stop : Nat}

/-- A packet, or a part of one. -/
abbrev Bytes := List UInt8

/-- A Rust string. -/
abbrev Text := List Char

/-- Octets are ordered as numbers. -/
instance octetOrder : LinearOrder UInt8 where
  le_refl := UInt8.le_refl
  le_trans _ _ _ := UInt8.le_trans
  le_antisymm _ _ := UInt8.le_antisymm
  le_total := UInt8.le_total
  lt_iff_le_not_ge a b := by
    rw [UInt8.lt_iff_toNat_lt, UInt8.le_iff_toNat_le, UInt8.le_iff_toNat_le]
    omega
  toDecidableLE := inferInstance

/-- A property of the characters of a list is decided along the list. -/
instance (priority := 2000) decidableAlong {p : Char → Prop} [DecidablePred p] {text : Text} :
    Decidable (∀ c ∈ text, p c) :=
  List.decidableBAll p text

instance lawfulBytes : LawfulBEq Bytes := inferInstance

/-- What the parsers report. -/
inductive WireError
  | shortPacket
  | invalidLabel
  | compressionLoop
  | nameTooLong
  | trailingData
  | wrongDirection
  | unsupportedOpcode (opcode : Nat)
  | wrongQuestionCount (count : Nat)
  | noQuestion
  | questionMismatch
  | invalidName (name : Text)
  | invalidRecord
  | invalidQuestionType (rrType : Nat)
  | truncatedQuery
  | queryContainsAnswers (count : Nat)
  | cnameLoop
  | responseTooLarge
  | panic
  | outOfFuel
  deriving DecidableEq, Repr

def decimal (n : Nat) : Text := Nat.toDigits 10 n

/-- What holds of the ten digits holds of the characters of a number. -/
theorem forall_decimal {p : Char → Prop} {n : Nat} (h : ∀ d < 10, p (Char.ofNat (48 + d))) :
    ∀ c ∈ decimal n, p c := by
  intro c hc
  have hdigit : c.isDigit = true := Nat.isDigit_of_mem_toDigits (by decide) (by decide) hc
  obtain ⟨hlow, hhigh⟩ : 48 ≤ c.toNat ∧ c.toNat ≤ 57 := by
    simpa [Char.isDigit, UInt32.le_iff_toNat_le] using hdigit
  have hc := h (c.toNat - 48) (by omega)
  rwa [Nat.add_sub_cancel' hlow, Char.ofNat_toNat] at hc

/-- The value of the digits, read as `str::parse` reads them. -/
theorem foldl_decimal (n : Nat) :
    (decimal n).foldl (fun value c => value * 10 + (c.toNat - 48)) 0 = n := by
  have hfold := Nat.ofDigitChars_ten_toDigits (n := n)
  rw [Nat.ofDigitChars_eq_foldl] at hfold
  simpa [decimal, Nat.mul_comm] using hfold

/-- The text of an error; the marks of the model have none. -/
def WireError.toText : WireError → Text
  | .shortPacket => "short DNS packet".toList
  | .invalidLabel => "invalid DNS label".toList
  | .compressionLoop => "DNS compression loop".toList
  | .nameTooLong => "DNS name exceeds 255 wire octets".toList
  | .trailingData => "data follows the declared DNS sections".toList
  | .wrongDirection => "unexpected DNS packet direction".toList
  | .unsupportedOpcode opcode => "unsupported DNS opcode ".toList ++ decimal opcode
  | .wrongQuestionCount count =>
    "DNS packet contains ".toList ++ decimal count ++ " questions".toList
  | .noQuestion => "DNS packet has no question".toList
  | .questionMismatch => "DNS response question does not match the query".toList
  | .invalidName name => "invalid DNS name: ".toList ++ name
  | .invalidRecord => "invalid DNS resource record".toList
  | .invalidQuestionType rrType => "invalid DNS question type ".toList ++ decimal rrType
  | .truncatedQuery => "DNS query has the truncated flag set".toList
  | .queryContainsAnswers count =>
    "DNS query contains ".toList ++ decimal count ++ " answer records".toList
  | .cnameLoop => "CNAME or DNAME redirect loop or limit exceeded".toList
  | .responseTooLarge => "DNS response exceeds 65535 octets".toList
  | .panic | .outOfFuel => []

/-! ### Reading -/

/-- The end of a run of `length` octets from `offset`. -/
def checkedEnd (offset length : Nat) : Except WireError Nat := .ok (offset + length)

/-- `packet.get(start..stop)`. -/
def getRange (packet : Bytes) (start stop : Nat) : Option Bytes :=
  if start ≤ stop ∧ stop ≤ packet.length then
    some ((packet.drop start).take (stop - start)) else none

/-- `packet.get(offset).ok_or(error)`. -/
def getOr (error : WireError) (packet : Bytes) (offset : Nat) : Except WireError UInt8 :=
  match packet[offset]? with
  | some byte => .ok byte
  | none => .error error

/-- `packet[offset]`, an unchecked index. -/
def index (packet : Bytes) (offset : Nat) : Except WireError UInt8 := getOr .panic packet offset

/-- `packet[start..stop]`, an unchecked range. -/
def indexRange (packet : Bytes) (start stop : Nat) : Except WireError Bytes :=
  match getRange packet start stop with
  | some bytes => .ok bytes
  | none => .error .panic

/-- `packet.get(start..stop).ok_or(error)`. -/
def getRangeOr (error : WireError) (packet : Bytes) (start stop : Nat) : Except WireError Bytes :=
  match getRange packet start stop with
  | some bytes => .ok bytes
  | none => .error error

def u16FromBeBytes (a b : UInt8) : Nat := a.toNat * 256 + b.toNat

def u32FromBeBytes (a b c d : UInt8) : Nat := u16FromBeBytes a b * 65536 + u16FromBeBytes c d

def u16ToBeBytes (value : Nat) : Bytes := [UInt8.ofNat (value / 256), UInt8.ofNat value]

def u32ToBeBytes (value : Nat) : Bytes := u16ToBeBytes (value / 65536) ++ u16ToBeBytes value

def readU16 (packet : Bytes) (offset : Nat) : Except WireError Nat :=
  match packet.drop offset with
  | a :: b :: _ => .ok (u16FromBeBytes a b)
  | _ => .error .shortPacket

def readU32 (packet : Bytes) (offset : Nat) : Except WireError Nat :=
  match packet.drop offset with
  | a :: b :: c :: d :: _ => .ok (u32FromBeBytes a b c d)
  | _ => .error .shortPacket

/-- The packet with the octets from `offset` on replaced by `bytes`, when they fit. -/
def writeAt (packet : Bytes) (offset : Nat) (bytes : Bytes) : Except WireError Bytes :=
  if offset + bytes.length ≤ packet.length then
    .ok (packet.take offset ++ bytes ++ packet.drop (offset + bytes.length))
  else .error .shortPacket

def writeU16 (packet : Bytes) (offset value : Nat) : Except WireError Bytes :=
  writeAt packet offset (u16ToBeBytes value)

def writeU32 (packet : Bytes) (offset value : Nat) : Except WireError Bytes :=
  writeAt packet offset (u32ToBeBytes value)

theorem u16FromBeBytes_lt (a b : UInt8) : u16FromBeBytes a b < 65536 := by
  have ha := a.toNat_lt
  have hb := b.toNat_lt
  unfold u16FromBeBytes
  omega

theorem u16ToBeBytes_u16FromBeBytes (a b : UInt8) : u16ToBeBytes (u16FromBeBytes a b) = [a, b] := by
  have hb := b.toNat_lt
  have hhigh : (a.toNat * 256 + b.toNat) / 256 = a.toNat := by omega
  have hlow : UInt8.ofNat (a.toNat * 256 + b.toNat) = b := by
    rw [← UInt8.toNat_inj, UInt8.toNat_ofNat']
    omega
  rw [u16ToBeBytes, u16FromBeBytes, hhigh, hlow, UInt8.ofNat_toNat]

theorem u16FromBeBytes_ofNat {value : Nat} (h : value < 65536) :
    u16FromBeBytes (UInt8.ofNat (value / 256)) (UInt8.ofNat value) = value := by
  simp only [u16FromBeBytes, UInt8.toNat_ofNat']
  omega

theorem u32FromBeBytes_lt (a b c d : UInt8) : u32FromBeBytes a b c d < 2 ^ 32 := by
  have hhigh := u16FromBeBytes_lt a b
  have hlow := u16FromBeBytes_lt c d
  unfold u32FromBeBytes
  omega

variable {bytes packet rest : Bytes}

theorem getRange_eq_some :
    getRange packet start stop = some bytes ↔
      (start ≤ stop ∧ stop ≤ packet.length) ∧ bytes = (packet.drop start).take (stop - start) := by
  unfold getRange
  split_ifs with h
  · simp [h, eq_comm]
  · simp [h]

/-- What stands from an offset on. -/
theorem getRange_of_drop (hstart : start ≤ packet.length) (h : packet.drop start = bytes ++ rest) :
    getRange packet start (start + bytes.length) = some bytes := by
  have hlong := congrArg length h
  simp only [length_drop, length_append] at hlong
  rw [getRange_eq_some, Nat.add_sub_cancel_left, h, take_left]
  exact ⟨⟨Nat.le_add_right _ _, by omega⟩, rfl⟩

theorem getElem?_of_drop (h : packet.drop start = byte :: rest) : packet[start]? = some byte := by
  rw [← Nat.add_zero start, ← getElem?_drop, h]
  rfl

theorem drop_add_of_drop {b : Bytes}
    (h : packet.drop start = b ++ rest) : packet.drop (start + b.length) = rest := by
  rw [← drop_drop, h, drop_left]

theorem le_length_of_drop (h : packet.drop start = byte :: rest) : start < packet.length := by
  by_contra hle
  rw [drop_eq_nil_of_le (not_lt.mp hle)] at h
  cases h

variable {error : WireError}

theorem getRangeOr_eq_ok :
    getRangeOr error packet start stop = .ok bytes ↔ getRange packet start stop = some bytes := by
  unfold getRangeOr
  cases getRange packet start stop <;> simp

theorem getOr_eq_ok {offset : Nat} :
    getOr error packet offset = .ok byte ↔ packet[offset]? = some byte := by
  unfold getOr
  cases packet[offset]? <;> simp

theorem getRangeOr_ne_error {e : WireError} (h : error ≠ e) :
    getRangeOr error packet start stop ≠ .error e := by
  unfold getRangeOr
  cases getRange packet start stop <;> simp [h]

theorem length_of_getRange
    (h : getRange packet start stop = some bytes) : bytes.length = stop - start := by
  obtain ⟨⟨h1, h2⟩, rfl⟩ := getRange_eq_some.mp h
  rw [length_take, length_drop]
  omega

/-! ### Case -/

def toAsciiLowercase (byte : UInt8) : UInt8 := if 65 ≤ byte ∧ byte ≤ 90 then byte + 32 else byte

def isAsciiDigit (byte : UInt8) : Bool := 48 ≤ byte && byte ≤ 57

def isAsciiAlphanumeric (byte : UInt8) : Bool :=
  (48 ≤ byte && byte ≤ 57) || (65 ≤ byte && byte ≤ 90) || (97 ≤ byte && byte ≤ 122)

/-- A run of octets without its case. -/
def lowercase (bytes : Bytes) : Bytes := bytes.map toAsciiLowercase

/-- What holds for all numbers below 256 holds for all octets. -/
theorem forall_octet {p : UInt8 → Prop} (h : ∀ n : Fin 256, p (UInt8.ofNat n.val)) (byte : UInt8) :
    p byte := by
  have := h ⟨byte.toNat, byte.toNat_lt⟩
  simpa using this

@[simp] theorem toAsciiLowercase_idem (byte : UInt8) :
    toAsciiLowercase (toAsciiLowercase byte) = toAsciiLowercase byte :=
  forall_octet (p := fun b => toAsciiLowercase (toAsciiLowercase b) = toAsciiLowercase b)
    (by set_option maxRecDepth 4000 in decide) byte

@[simp] theorem length_lowercase (bytes : Bytes) : (lowercase bytes).length = bytes.length := by
  simp [lowercase]

@[simp] theorem lowercase_idem (bytes : Bytes) : lowercase (lowercase bytes) = lowercase bytes := by
  simp [lowercase]

@[simp] theorem lowercase_eq_nil : lowercase bytes = [] ↔ bytes = [] := by
  simp [lowercase]

end RustdResolved.Wire.Octets
