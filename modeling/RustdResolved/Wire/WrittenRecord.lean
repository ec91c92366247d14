import RustdResolved.Wire.RelocateRecord
import RustdResolved.Wire.WrittenName

/-! # Records written out

The writers of records put an owner, the fixed fields and the data one after the other. What is read
at those octets is the record that was written, whatever the name that its owner is read as. -/

namespace RustdResolved.Wire.WrittenRecord

open Lib.Result Octets Name PacketHeader Record RelocateRecord Overwrite

/-- The record whose owner ends at `nameEnd`. -/
def recordAfter (nameEnd : Nat) (name : DnsName) (rrType rrClass rawTtl : Nat) (rdata : Bytes) :
    ResourceRecord :=
  ⟨name, rrType, rrClass, recordTtl rrType rawTtl, nameEnd + 4, nameEnd + 10, rdata,
    nameEnd + 10 + rdata.length⟩

def recordFields (rrType rrClass : Nat) (ttl rdata : Bytes) : Bytes :=
  u16ToBeBytes rrType ++ (u16ToBeBytes rrClass ++ (ttl ++ (u16ToBeBytes rdata.length ++ rdata)))

section

variable {packet rdata rest : Bytes} {nameEnd rrType rrClass : Nat} {a b c d : UInt8}
  (hdrop : packet.drop nameEnd = recordFields rrType rrClass [a, b, c, d] rdata ++ rest)
include hdrop

theorem drop_recordFields :
    packet.drop (nameEnd + 2) =
        u16ToBeBytes rrClass ++ ([a, b, c, d] ++ (u16ToBeBytes rdata.length ++ (rdata ++ rest))) ∧
      packet.drop (nameEnd + 4) = [a, b, c, d] ++ (u16ToBeBytes rdata.length ++ (rdata ++ rest)) ∧
      packet.drop (nameEnd + 8) = u16ToBeBytes rdata.length ++ (rdata ++ rest) ∧
      packet.drop (nameEnd + 10) = rdata ++ rest := by
  simp only [recordFields, List.append_assoc] at hdrop
  have hclass := drop_add_of_drop hdrop
  have httl := drop_add_of_drop hclass
  have hlength := drop_add_of_drop httl
  have hdata := drop_add_of_drop hlength
  exact ⟨hclass, httl, hlength, hdata⟩

theorem read_recordFields (htype : rrType < 65536) (hclass : rrClass < 65536)
    (hshort : rdata.length < 65536) :
    readU16 packet nameEnd = .ok rrType ∧ readU16 packet (nameEnd + 2) = .ok rrClass ∧
      readU32 packet (nameEnd + 4) = .ok (u32FromBeBytes a b c d) ∧
      readU16 packet (nameEnd + 8) = .ok rdata.length ∧
      getRange packet (nameEnd + 10) (nameEnd + 10 + rdata.length) = some rdata := by
  obtain ⟨hclassAt, httlAt, hlengthAt, hdataAt⟩ := drop_recordFields hdrop
  have hfits : nameEnd + 10 ≤ packet.length := by
    have := congrArg List.length hlengthAt
    rw [List.length_drop, List.length_append, length_u16ToBeBytes, List.length_append] at this
    omega
  refine ⟨?_, ?_, ?_, ?_, getRange_of_drop hfits hdataAt⟩
  · rw [recordFields, List.append_assoc] at hdrop
    rw [readU16_of_drop hdrop, Nat.mod_eq_of_lt htype]
  · rw [readU16_of_drop hclassAt, Nat.mod_eq_of_lt hclass]
  · unfold readU32
    rw [httlAt]
    rfl
  · rw [readU16_of_drop hlengthAt, Nat.mod_eq_of_lt hshort]

/-- **A record that was written is read back**, if its type and class are those of a record and its
data are valid where they stand, and only then. -/
theorem parseRecord_written_iff {start : Nat} {name : DnsName}
    (hname : readName packet start = .ok (name, nameEnd)) (htype : rrType < 65536)
    (hclass : rrClass < 65536) (hshort : rdata.length < 65536) {record : ResourceRecord} :
    parseRecord packet start = .ok record ↔
      ¬ (rrClass = classAny ∨ rrType = typeIxfr ∨ rrType = typeAxfr ∨ rrType = typeAny) ∧
        validateRecordRdata packet
          (recordAfter nameEnd name rrType rrClass (u32FromBeBytes a b c d) rdata) = .ok () ∧
        record = recordAfter nameEnd name rrType rrClass (u32FromBeBytes a b c d) rdata := by
  obtain ⟨htypeRead, hclassRead, httlRead, hlengthRead, hdataRead⟩ :=
    read_recordFields hdrop htype hclass hshort
  rw [parseRecord_eq_ok]
  constructor
  · rintro ⟨nameEnd', rawTtl, hat⟩
    obtain ⟨hsame, rfl⟩ := Prod.mk.inj (Except.ok.inj (hname.symm.trans hat.name))
    have htype' := Except.ok.inj (htypeRead.symm.trans hat.rrType)
    have hclass' := Except.ok.inj (hclassRead.symm.trans hat.rrClass)
    have httl' := Except.ok.inj (httlRead.symm.trans hat.ttlField)
    have hlength' := Except.ok.inj (hlengthRead.symm.trans hat.rdataLength)
    have hrdata : rdata = record.rdata := by
      rw [hlength'] at hdataRead
      exact Option.some.inj (hdataRead.symm.trans hat.rdata)
    have hrecord :
        record = recordAfter nameEnd name rrType rrClass (u32FromBeBytes a b c d) rdata := by
      rw [hsame, htype', hclass', httl', hrdata, recordAfter, ← hat.ttl, ← hat.ttlOffset,
        ← hat.rdataOffset, hat.rdataOffset, ← hat.nextOffset, ← hat.rdataOffset]
    refine ⟨by rw [hclass', htype']; exact hat.allowed, ?_, hrecord⟩
    rw [← hrecord]
    exact hat.valid
  · rintro ⟨hallowed, hvalid, rfl⟩
    exact ⟨nameEnd, u32FromBeBytes a b c d, hname, htypeRead, hclassRead, hallowed,
      httlRead, hlengthRead, hdataRead, hvalid, rfl, rfl, rfl, rfl⟩

end

end RustdResolved.Wire.WrittenRecord
