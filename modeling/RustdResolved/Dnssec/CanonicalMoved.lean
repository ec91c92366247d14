import RustdResolved.Dnssec.Canonical
import RustdResolved.Wire.RelocateRecord

/-! # The canonical data of a record that moves

The canonical form of the data of a record has its names written out, so it is the same at every
place where the record reads the same. -/

namespace RustdResolved.Dnssec.CanonicalMoved

open Lib.Result Wire Octets Name Record Relocate RelocateRecord Canonical

variable {offset start stop : Nat} {packet : Bytes} {record : ResourceRecord}

/-! ### Names that are not compressed -/

theorem uncompressed_of_readBoundedName {limit result : Nat}
    (h : readBoundedName packet offset limit false = .ok result) : followed packet offset = [] := by
  unfold readBoundedName at h
  obtain ⟨_, hplain, -⟩ := of_bind h
  exact followed_of_uncompressed hplain

theorem uncompressed_of_validateRrsig
    (h : validateRrsig packet start stop = .ok ()) : followed packet (start + 18) = [] := by
  obtain ⟨nameOffset, hoffset, h⟩ := of_bind h
  obtain ⟨signatureOffset, hname, -⟩ := of_bind h
  obtain ⟨-, rfl⟩ := requireOffset_eq_ok.mp hoffset
  exact uncompressed_of_readBoundedName hname

theorem uncompressed_of_validateNsec
    (h : validateNsec packet start stop = .ok ()) : followed packet start = [] := by
  obtain ⟨bitmapOffset, hname, -⟩ := of_bind h
  exact uncompressed_of_readBoundedName hname

theorem uncompressed_of_validateSvcb
    (h : validateSvcb packet start stop = .ok ()) : followed packet (start + 2) = [] := by
  obtain ⟨targetOffset, hoffset, h⟩ := of_bind h
  obtain ⟨offset, hname, -⟩ := of_bind h
  obtain ⟨-, rfl⟩ := requireOffset_eq_ok.mp hoffset
  exact uncompressed_of_readBoundedName hname

theorem skipStrings_of_readCharacterString {limit next count : Nat} {text : Bool}
    (h : readCharacterString packet offset limit text = .ok next)
    (hskip : skipStrings packet record (count + 1) offset = .ok stop) :
    skipStrings packet record count next = .ok stop := by
  obtain ⟨length, hlength, h⟩ := of_bind h
  obtain ⟨content, hcontent, h⟩ := of_bind h
  obtain ⟨contentEnd, hend, h⟩ := of_bind h
  obtain ⟨-, rfl⟩ := requireOffset_eq_ok.mp hcontent
  obtain ⟨-, rfl⟩ := requireOffset_eq_ok.mp hend
  obtain ⟨length', hlength', hskip⟩ := of_bind hskip
  split_ifs at hskip
  rw [getOr_eq_ok] at hlength hlength'
  cases hlength.symm.trans hlength'
  have hnext : next = offset + (1 + length.toNat) := by
    split_ifs at h
    · obtain ⟨bytes, -, h⟩ := of_bind h
      split_ifs at h
      cases h
      omega
    · cases h
      omega
  rw [hnext]
  exact hskip

theorem uncompressed_of_validateNaptr (h : validateNaptr packet start stop = .ok ())
    (hskip : skipStrings packet record 3 (start + 4) = .ok offset) :
    followed packet offset = [] := by
  obtain ⟨strings, hstrings, h⟩ := of_bind h
  obtain ⟨second, hsecond, h⟩ := of_bind h
  obtain ⟨third, hthird, h⟩ := of_bind h
  obtain ⟨replacement, hreplacement, h⟩ := of_bind h
  obtain ⟨_, hname, -⟩ := of_bind h
  obtain ⟨-, rfl⟩ := requireOffset_eq_ok.mp hstrings
  have hskip := skipStrings_of_readCharacterString hreplacement
    (skipStrings_of_readCharacterString hthird (skipStrings_of_readCharacterString hsecond hskip))
  cases hskip
  exact uncompressed_of_readBoundedName hname

/-! ### The forms of data with names -/

section

variable {packet' data : Bytes} {record' : ResourceRecord}
  (hsame : SameData packet packet' record record')

include hsame

theorem readName_sameData {k : Nat} {name : DnsName}
    (h : readName packet (record.rdataOffset + k) = .ok (name, stop))
    (hstop : stop ≤ record.nextOffset)
    (hsteady : Steady packet packet' record.rdataOffset record'.rdataOffset
      (followed packet (record.rdataOffset + k))) :
    ∃ j, k < j ∧ j ≤ record.rdata.length ∧ stop = record.rdataOffset + j ∧
      readName packet' (record'.rdataOffset + k) = .ok (name, record'.rdataOffset + j) := by
  rw [hsame.nextOffset] at hstop
  exact readName_within hsame.moved h hstop hsteady

theorem canonicalSingleName_moved {skip : Nat}
    (hsteady : Steady packet packet' record.rdataOffset record'.rdataOffset
      (followed packet (record.rdataOffset + skip)))
    (h : canonicalSingleName packet record skip = .ok data) :
    canonicalSingleName packet' record' skip = .ok data := by
  unfold canonicalSingleName at h ⊢
  split_ifs at h with hshort
  obtain ⟨⟨name, next⟩, hname, h⟩ := of_bind h
  dsimp only at h
  split_ifs at h with hlong
  obtain ⟨rest, hrest, hdata⟩ := of_bind h
  obtain ⟨j, -, hj, rfl, hname'⟩ := readName_sameData hsame hname (by omega) hsteady
  have hrest' := hsame.moved.getRangeOr (le_refl record.rdata.length) .invalidRecord (i := j)
  rw [← hsame.nextOffset, hrest, ← hsame.nextOffset'] at hrest'
  have hend := hsame.nextOffset'
  rw [hsame.rdata, if_neg hshort]
  simp only [ok_bind, hname', hrest']
  rw [if_neg (by omega)]
  exact hdata

theorem canonicalTwoNames_moved {skip : Nat}
    (hfirst : Steady packet packet' record.rdataOffset record'.rdataOffset
      (followed packet (record.rdataOffset + skip)))
    (hsecond : ∀ offset ∈ secondName packet (record.rdataOffset + skip),
      Steady packet packet' record.rdataOffset record'.rdataOffset (followed packet offset))
    (h : canonicalTwoNames packet record skip = .ok data) :
    canonicalTwoNames packet' record' skip = .ok data := by
  unfold canonicalTwoNames at h ⊢
  split_ifs at h with hshort
  obtain ⟨⟨first, secondOffset⟩, hname, h⟩ := of_bind h
  obtain ⟨⟨second, stop⟩, hname2, h⟩ := of_bind h
  dsimp only at hname2 h
  split_ifs at h with hstop
  have hdata := h
  have hlt := (readName_lt hname2).1
  have hsteady := hsecond secondOffset (mem_secondName hname)
  obtain ⟨i, -, hi, rfl, hname'⟩ := readName_sameData hsame hname (by omega) hfirst
  obtain ⟨j, -, hj, rfl, hname2'⟩ := readName_sameData hsame hname2 (by omega) hsteady
  have hend := hsame.nextOffset
  have hend' := hsame.nextOffset'
  rw [hsame.rdata, if_neg hshort]
  simp only [ok_bind, hname', hname2']
  rw [if_neg (by omega)]
  exact hdata

theorem canonicalSoa_moved
    (hfirst : Steady packet packet' record.rdataOffset record'.rdataOffset
      (followed packet record.rdataOffset))
    (hsecond : ∀ offset ∈ secondName packet record.rdataOffset,
      Steady packet packet' record.rdataOffset record'.rdataOffset (followed packet offset))
    (h : canonicalSoa packet record = .ok data) : canonicalSoa packet' record' = .ok data := by
  obtain ⟨⟨primary, mailboxOffset⟩, hname, h⟩ := of_bind h
  obtain ⟨⟨mailbox, integersOffset⟩, hname2, h⟩ := of_bind h
  obtain ⟨integers, hintegers, hdata⟩ := of_bind h
  have hlt := (readName_lt hname2).1
  have hbound := (getRange_eq_some.mp (getRangeOr_eq_ok.mp hintegers)).1.1
  have hsteady := hsecond mailboxOffset (mem_secondName hname)
  obtain ⟨i, -, hi, rfl, hname'⟩ := readName_sameData (k := 0) hsame hname (by omega) hfirst
  obtain ⟨j, -, hj, rfl, hname2'⟩ := readName_sameData hsame hname2 (by omega) hsteady
  have hintegers' := hsame.moved.getRangeOr (le_refl record.rdata.length) .invalidRecord (i := j)
  rw [← hsame.nextOffset, hintegers, ← hsame.nextOffset'] at hintegers'
  unfold canonicalSoa
  rw [Nat.add_zero] at hname'
  simp only [ok_bind, hname', hname2', hintegers']
  exact hdata

theorem skipStrings_moved {count k : Nat}
    (h : skipStrings packet record count (record.rdataOffset + k) = .ok stop) :
    ∃ j, k ≤ j ∧ stop = record.rdataOffset + j ∧
      skipStrings packet' record' count (record'.rdataOffset + k) =
        .ok (record'.rdataOffset + j) := by
  induction count generalizing k stop with
  | zero =>
    cases h
    exact ⟨k, le_refl k, rfl, rfl⟩
  | succ count ih =>
    obtain ⟨length, hlength, h⟩ := of_bind h
    split_ifs at h with hlong
    have hend := hsame.nextOffset
    have hend' := hsame.nextOffset'
    rw [Nat.add_assoc] at h
    obtain ⟨j, hle, rfl, hrest⟩ := ih h
    refine ⟨j, by omega, rfl, ?_⟩
    have hlength' := (hsame.moved.getOr (show k < record.rdata.length by omega) _).trans hlength
    simp only [skipStrings, ok_bind, hlength']
    rw [if_neg (by omega), Nat.add_assoc]
    exact hrest

theorem canonicalNaptr_moved
    (hvalid : validateNaptr packet record.rdataOffset record.nextOffset = .ok ())
    (h : canonicalNaptr packet record = .ok data) : canonicalNaptr packet' record' = .ok data := by
  unfold canonicalNaptr at h ⊢
  split_ifs at h with hshort
  obtain ⟨offset, hoffset, h⟩ := of_bind h
  obtain ⟨⟨replacement, stop⟩, hname, h⟩ := of_bind h
  dsimp only at h
  split_ifs at h with hstop
  obtain ⟨fields, hfields, hdata⟩ := of_bind h
  have hplain := uncompressed_of_validateNaptr hvalid hoffset
  obtain ⟨i, -, rfl, hoffset'⟩ := skipStrings_moved hsame hoffset
  obtain ⟨j, -, hj, rfl, hname'⟩ := readName_sameData hsame hname (by omega)
    (by rw [hplain]; exact steady_nil)
  have hlt := (readName_lt hname).1
  have hend := hsame.nextOffset
  have hend' := hsame.nextOffset'
  have hfields' :=
    hsame.moved.getRangeOr (show i ≤ record.rdata.length by omega) .invalidRecord (i := 0)
  simp only [Nat.add_zero] at hfields'
  rw [hsame.rdata, if_neg hshort]
  simp only [ok_bind, hoffset', hname', hfields', hfields]
  rw [if_neg (by omega)]
  exact hdata

end

/-- **The canonical data of a record that moves stays the same.** -/
theorem canonicalRdata_moved {packet' : Bytes} {record' : ResourceRecord} {data : Bytes}
    (hsame : SameData packet packet' record record')
    (hvalid : validateRecordRdata packet record = .ok ())
    (h : canonicalRdata packet record = .ok data) : canonicalRdata packet' record' = .ok data := by
  have hsteady := hsame.steady
  unfold canonicalRdata at h ⊢
  simp only [validateRecordRdata, rdataNames, hsame.rrType] at h hvalid hsteady ⊢
  -- the types whose names the check of the record wants without compression follow nothing
  split at h <;> simp_all only [List.mem_cons, forall_eq_or_imp] <;> first
    | exact canonicalSingleName_moved hsame hsteady.1 h
    | exact canonicalSoa_moved hsame hsteady.1 hsteady.2 h
    | exact canonicalTwoNames_moved hsame hsteady.1 hsteady.2 h
    | exact canonicalNaptr_moved hsame hvalid h
    | exact canonicalSingleName_moved hsame
        (by rw [Nat.add_zero, uncompressed_of_validateNsec hvalid]; exact steady_nil) h
    | exact canonicalSingleName_moved hsame
        (by rw [uncompressed_of_validateSvcb hvalid]; exact steady_nil) h
    | exact canonicalSingleName_moved hsame
        (by rw [uncompressed_of_validateRrsig hvalid]; exact steady_nil) h
    | (rw [hsame.rdata]; exact h)

/-- The same record in two packets, apart from its TTL: its owner, type and class, its data, and its
data with the names written out, if they can be read. -/
structure SameRecord (packet packet' : Bytes) (record record' : ResourceRecord) : Prop where
  name : record'.name = record.name
  rrType : record'.rrType = record.rrType
  rrClass : record'.rrClass = record.rrClass
  rdata : record'.rdata = record.rdata
  canonical : ∀ data, canonicalRdata packet record = .ok data →
    canonicalRdata packet' record' = .ok data

/-- The same records in two packets, with the TTLs that a function gives them. -/
def SameButTtls (packet packet' : Bytes) (ttl : ResourceRecord → Nat)
    (records records' : List ResourceRecord) : Prop :=
  List.Forall₂ (fun record record' => SameRecord packet packet' record record' ∧
    record'.ttl = ttl record) records records'

end RustdResolved.Dnssec.CanonicalMoved
