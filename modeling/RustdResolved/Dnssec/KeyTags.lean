import RustdResolved.Wire.DnssecRecords
import RustdResolved.Wire.Overwrite
import RustdResolved.Wire.RelocateRecord

/-! # Key tags

Appendix B of RFC 4034 gives a key a tag of sixteen bits. The packet reader computes it in
`dnskey_key_tag`, and `resolvectl`, in a function of the same name, that of the key without its
REVOKE flag. Both are right for the keys that a record can hold: their data has at least five octets
(`key_tags`). -/

namespace RustdResolved.Dnssec.KeyTags

open List Lib.Result Wire Octets Name PacketHeader Record DnssecRecords Overwrite
open RelocateRecord

/-! ### The reference -/

/-- What an octet adds. -/
def weight (place : UInt8 × Nat) : Nat :=
  if place.2 % 2 = 0 then place.1.toNat * 256 else place.1.toNat

def referenceSum (key : Bytes) : Nat := (key.zipIdx.map weight).sum

/-- The tag of a key. With algorithm 1 it is the upper sixteen of the last 24 bits. -/
def referenceTag (key : Bytes) : Nat :=
  if key[3]? = some 1 then
    key.foldl (fun number octet => number * 256 + octet.toNat) 0 % 2 ^ 24 / 2 ^ 8
  else (referenceSum key + referenceSum key / 2 ^ 16 % 2 ^ 16) % 2 ^ 16

/-! ### The tag that `resolvectl` prints -/

namespace Resolvectl

def dnskeyFlagRevoke : Nat := 1 <<< 7

def readRecordU16 (input : Bytes) (offset : Nat) : Except Text Nat :=
  match getRange input offset (offset + 2) with
  | some [a, b] => .ok (u16FromBeBytes a b)
  | _ => .error "resource record is truncated".toList

def getOctet (rdata : Bytes) (offset : Nat) : Except Text UInt8 :=
  match rdata[offset]? with
  | some octet => .ok octet
  | none => .error "truncated DNSKEY".toList

def dnskeyKeyTag (rdata : Bytes) : Except Text Nat := do
  let flags ← readRecordU16 rdata 0
  let flags := clearFlags flags dnskeyFlagRevoke
  let protocol ← getOctet rdata 2
  let algorithm ← getOctet rdata 3
  if algorithm = 1 then
    let a ← getOctet rdata (rdata.length - 3)
    let b ← getOctet rdata (rdata.length - 2)
    return u16FromBeBytes a b
  else
    let sum := (flags + protocol.toNat * 256 + algorithm.toNat + keyTagSum (rdata.drop 4)) % 2 ^ 32
    return (sum / 65536 + sum % 65536) % 65536

end Resolvectl

/-- The data of a key with its REVOKE flag cleared. -/
def unrevoked (rdata : Bytes) : Bytes := rdata.modify 1 (· &&& 0x7f)

/-! ### Sums -/

theorem keyTagSum_eq (key : Bytes) : keyTagSum key = referenceSum key := by
  induction key using keyTagSum.induct with
  | case1 a b rest ih =>
    -- two places on, an octet has the same weight
    have hrest : (rest.zipIdx 2).map weight = rest.zipIdx.map weight := by
      rw [← map_snd_add_zipIdx_eq_zipIdx (k := 0) (n := 2), map_map]
      exact map_congr_left fun place _ => by simp [weight]
    rw [keyTagSum, ih]
    simp [referenceSum, weight, hrest, Nat.add_assoc]
  | case2 a => simp [keyTagSum, referenceSum, weight]
  | case3 => rfl

theorem keyTagSum_le (key : Bytes) : keyTagSum key ≤ 32768 * (key.length + 1) := by
  induction key using keyTagSum.induct with
  | case1 a b rest ih =>
    have ha := a.toNat_lt
    have hb := b.toNat_lt
    simp only [keyTagSum, length_cons]
    omega
  | case2 a =>
    have ha := a.toNat_lt
    simp only [keyTagSum, length_singleton]
    omega
  | case3 => simp [keyTagSum]

/-- The last octets of a key but one, and the tag of algorithm 1. -/
theorem exists_last {key : Bytes} (h : 3 ≤ key.length) (halgorithm : key[3]? = some 1) :
    ∃ a b, key[key.length - 3]? = some a ∧ key[key.length - 2]? = some b ∧
      referenceTag key = u16FromBeBytes a b := by
  obtain ⟨a, b, c, hlast⟩ : ∃ a b c, key.drop (key.length - 3) = [a, b, c] :=
    length_eq_three.mp (by rw [length_drop]; omega)
  have hkey := take_append_drop (key.length - 3) key
  have ha := a.toNat_lt
  have hb := b.toNat_lt
  have hc := c.toNat_lt
  refine ⟨a, b, getElem?_of_drop hlast, ?_, ?_⟩
  · rw [show key.length - 2 = key.length - 3 + 1 by omega, ← getElem?_drop, hlast]
    rfl
  · rw [referenceTag, if_pos halgorithm, ← hkey, hlast, foldl_append]
    simp only [foldl_cons, foldl_nil, u16FromBeBytes]
    omega

theorem clearFlags_revoke (a b : UInt8) :
    clearFlags (u16FromBeBytes a b) Resolvectl.dnskeyFlagRevoke =
      u16FromBeBytes a (b &&& 0x7f) := by
  have hhigh : a.toNat <<< 8 &&& 0xff7f = a.toNat <<< 8 :=
    forall_octet (p := fun a => a.toNat <<< 8 &&& 0xff7f = a.toNat <<< 8) (by decide +kernel) a
  have hlow : b.toNat &&& 0xff7f = (b &&& 0x7f).toNat :=
    forall_octet (p := fun b => b.toNat &&& 0xff7f = (b &&& 0x7f).toNat) (by decide +kernel) b
  have hsplit : ∀ c : UInt8, u16FromBeBytes a c = a.toNat <<< 8 ||| c.toNat := fun c => by
    rw [← Nat.shiftLeft_add_eq_or_of_lt c.toNat_lt, Nat.shiftLeft_eq]
    rfl
  change u16FromBeBytes a b &&& 0xff7f = _
  rw [hsplit, hsplit, Nat.and_or_distrib_right, hhigh, hlow]

theorem Resolvectl.dnskeyKeyTag_iff {a b protocol algorithm : UInt8} {key : Bytes}
    (hmax : key.length ≤ 65531) :
    Resolvectl.dnskeyKeyTag (a :: b :: protocol :: algorithm :: key) =
        .ok (referenceTag (a :: (b &&& 0x7f) :: protocol :: algorithm :: key)) ↔
      ¬ (key = [] ∧ algorithm = 1 ∧ b &&& 0x7f ≠ b) := by
  by_cases halgorithm : algorithm = 1
  · subst halgorithm
    obtain ⟨x, y, hx, hy, -⟩ := @exists_last (a :: b :: protocol :: 1 :: key) (by simp) rfl
    obtain ⟨x', y', hx', hy', htag⟩ :=
      @exists_last (a :: (b &&& 0x7f) :: protocol :: 1 :: key) (by simp) rfl
    have hprints : Resolvectl.dnskeyKeyTag (a :: b :: protocol :: 1 :: key) =
        .ok (u16FromBeBytes x y) := by
      simp only [Resolvectl.dnskeyKeyTag, Resolvectl.getOctet, hx, hy]
      simp [Resolvectl.readRecordU16, getRange]
    rw [hprints, htag, Except.ok.injEq]
    cases key with
    | nil =>
      cases hx
      cases hy
      cases hx'
      cases hy'
      simp only [u16FromBeBytes, ne_eq, ← UInt8.toNat_inj, true_and]
      omega
    | cons k key =>
      obtain rfl := Option.some.inj (hx.symm.trans hx')
      obtain rfl := Option.some.inj (hy.symm.trans hy')
      simp
  · have hsum := keyTagSum_le (a :: (b &&& 0x7f) :: protocol :: algorithm :: key)
    rw [referenceTag, if_neg (by simpa using halgorithm), ← keyTagSum_eq]
    have hflags : Resolvectl.readRecordU16 (a :: b :: protocol :: algorithm :: key) 0 =
        .ok (u16FromBeBytes a b) := by simp [Resolvectl.readRecordU16, getRange]
    rw [Resolvectl.dnskeyKeyTag, hflags, ok_bind, clearFlags_revoke]
    generalize b &&& 0x7f = c at hsum ⊢
    simp only [keyTagSum, length_cons] at hsum ⊢
    simp [Resolvectl.getOctet, halgorithm, u16FromBeBytes]
    omega

/-- The tags of a key, from a bare header on. -/
theorem key_tags_iff {record : ResourceRecord} (htype : record.rrType = typeDnskey)
    (hmin : 4 ≤ record.rdata.length) (hmax : record.rdata.length ≤ 65535) :
    referenceSum record.rdata + 0xffff < 2 ^ 32 ∧
      dnskeyKeyTag record = .ok (referenceTag record.rdata) ∧
      (Resolvectl.dnskeyKeyTag record.rdata = .ok (referenceTag (unrevoked record.rdata)) ↔
        ¬ (record.rdata.length = 4 ∧ record.rdata[3]? = some 1 ∧
          unrevoked record.rdata ≠ record.rdata)) := by
  have hsum := keyTagSum_le record.rdata
  rw [dnskeyKeyTag, if_neg (by simp [htype]; omega)]
  match hrdata : record.rdata, hmin with
  | a :: b :: protocol :: algorithm :: key, _ =>
    rw [hrdata] at hmax hsum
    refine ⟨by rw [← keyTagSum_eq]; omega, ?_, ?_⟩
    · by_cases halgorithm : algorithm = 1
      · subst halgorithm
        obtain ⟨x, y, hx, hy, htag⟩ := @exists_last (a :: b :: protocol :: 1 :: key) (by simp) rfl
        simp only [index, getOr, hx, hy, htag]
        rfl
      · rw [referenceTag, if_neg (by simpa using halgorithm), ← keyTagSum_eq]
        simp [index, getOr, halgorithm]
        omega
    · rw [show unrevoked (a :: b :: protocol :: algorithm :: key) =
        a :: (b &&& 0x7f) :: protocol :: algorithm :: key from rfl,
        Resolvectl.dnskeyKeyTag_iff (by simp only [length_cons] at hmax; omega)]
      simp

/-- A key that is received has one octet at least after its header. -/
theorem received_key_length {packet : Bytes} {offset : Nat} {record : ResourceRecord}
    (h : parseUncompressedRecord packet offset = .ok record) (htype : record.rrType = typeDnskey) :
    5 ≤ record.rdata.length ∧ record.rdata.length ≤ 65535 := by
  obtain ⟨_, -, h⟩ := of_bind h
  obtain ⟨parsed, hparsed, h⟩ := of_bind h
  obtain ⟨_, -, hrecord⟩ := of_bind h
  cases hrecord
  obtain ⟨nameEnd, rawTtl, hat⟩ := parseRecord_eq_ok.mp hparsed
  have hvalid := hat.valid
  simp only [validateRecordRdata, htype, typeDnskey, requireMinimumRdataLength] at hvalid
  refine ⟨?_, Nat.le_of_lt_succ (readU16_lt_65536 hat.rdataLength)⟩
  by_contra hshort
  rw [if_neg hshort] at hvalid
  cases hvalid

/-- **Key tags are those of the reference**: every key that is received has 5 to 65535 octets, and
for these the sum stays below 32 bits, the packet reader has the tag of the reference, and
`resolvectl` that of the key without REVOKE. -/
theorem key_tags (record : ResourceRecord) (htype : record.rrType = typeDnskey) :
    (∀ packet offset, parseUncompressedRecord packet offset = .ok record →
      5 ≤ record.rdata.length ∧ record.rdata.length ≤ 65535) ∧
    (5 ≤ record.rdata.length ∧ record.rdata.length ≤ 65535 →
      referenceSum record.rdata + 0xffff < 2 ^ 32 ∧
      dnskeyKeyTag record = .ok (referenceTag record.rdata) ∧
      Resolvectl.dnskeyKeyTag record.rdata = .ok (referenceTag (unrevoked record.rdata))) := by
  refine ⟨fun _ _ h => received_key_length h htype, fun ⟨hmin, hmax⟩ => ?_⟩
  obtain ⟨hsum, htag, hprinted⟩ := key_tags_iff htype (by omega) hmax
  exact ⟨hsum, htag, hprinted.mpr fun hbare => by omega⟩

def keyRecord (rdata : Bytes) : ResourceRecord :=
  ⟨DnsName.ofLabels [], typeDnskey, classIn, 3600, 0, 0, rdata, 0⟩

theorem key_tags_revoked :
    Resolvectl.dnskeyKeyTag [1, 0x81, 3, 8, 7] = .ok (referenceTag [1, 1, 3, 8, 7]) :=
  ((key_tags (keyRecord [1, 0x81, 3, 8, 7]) rfl).2 ⟨by decide, by decide⟩).2.2

/-- A header of algorithm 1 without a key has its own REVOKE flag in the tag that is printed. -/
theorem bare_header_keeps_revoke :
    Resolvectl.dnskeyKeyTag [1, 0x80, 3, 1] = .ok 0x8003 ∧
      referenceTag (unrevoked [1, 0x80, 3, 1]) = 3 := by
  decide

end RustdResolved.Dnssec.KeyTags
