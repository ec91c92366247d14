import RustdResolved.Edns.Splicing
import RustdResolved.Wire.Skeleton

/-! # OPT records in packets

Whether a packet has an OPT record can be seen in its skeleton, also where it does not parse. A
query is sent with an OPT record that has the DNSSEC OK bit at the levels that ask for it
(`prepareQuery_asksForDnssec`). -/

namespace RustdResolved.Edns.OptRecords

open List Lib.Result Wire Octets Name PacketHeader Record Overwrite Relocate RelocatePacket Skeleton
open Servers Opt Layout Splicing

variable {layout : PacketLayout} {udpPayloadSize : Nat}

section
variable (packet : Bytes)

/-- A packet without a TSIG record. -/
def TsigFree : Prop := typeTsig ∉ recordTypes packet
  deriving Decidable

/-- The record whose fields stand at a place has the DNSSEC OK bit of an OPT record. -/
def HasDnssecOk (place : Nat) : Bool :=
  match readU16 packet (place + 6) with
  | .ok flags => flags &&& dnssecOkFlag != 0
  | .error _ => false

/-- A packet with an OPT record that has the DNSSEC OK bit. -/
def AsksForDnssec : Prop :=
  ∃ entry ∈ recordEntries packet, entry.1 = typeOpt ∧ HasDnssecOk packet entry.2 = true
  deriving Decidable

end

variable {packet packet' query response rest rdata : Bytes} {start count : Nat}

/-! ### What a scan finds -/

theorem TsigFree.scan (h : TsigFree packet) (hscan : scanPacket packet = .ok layout) :
    layout.hasTsig = false := by
  obtain ⟨sections, hparse, -, htsig, -⟩ := scanPacket_ok hscan
  rw [htsig, ← Bool.not_eq_true, any_eq_true]
  rintro ⟨record, hrecord, htype⟩
  refine h ?_
  rw [recordTypes_of_parse hparse, mem_map]
  exact ⟨record, hrecord, beq_iff_eq.mp htype⟩

/-! ### Queries at a level -/

/-- An OPT record that was put in stands in the skeleton. -/
theorem entriesFrom_optBytes {extendedRcode version flags : Nat}
    (h : packet.drop start = optBytes udpPayloadSize extendedRcode version flags rdata ++ rest) :
    (∃ others, entriesFrom packet (count + 1) start = (typeOpt, start + 1) :: others) ∧
      readU16 packet (start + 7) = .ok (flags % 65536) := by
  simp only [optBytes, append_assoc] at h
  have htype := drop_add_of_drop h
  have hflags := drop_add_of_drop (drop_add_of_drop (drop_add_of_drop htype))
  have hlength := drop_add_of_drop hflags
  simp only [length_u16ToBeBytes, length_cons, length_nil, Nat.zero_add, Nat.add_assoc,
    Nat.reduceAdd] at htype hflags hlength
  have hroot : packet[start]? = some 0 := by
    rw [← Nat.add_zero start, ← getElem?_drop, h]
    rfl
  have hname : localEnd packet readNameFuel start = start + 1 := by
    rw [readNameFuel, localEnd, hroot]
    rfl
  refine ⟨?_, readU16_of_drop hflags⟩
  rw [entriesFrom, hname, readU16_of_drop htype, Nat.add_assoc, readU16_of_drop hlength]
  exact ⟨_, rfl⟩

theorem asksForDnssec_of_entries {before : List (Nat × Nat)}
    (h : packet.drop start = optBytes udpPayloadSize 0 0 dnssecOkFlag rdata ++ rest)
    (hentries : recordEntries packet = before ++ entriesFrom packet (count + 1) start) :
    AsksForDnssec packet := by
  obtain ⟨⟨others, hothers⟩, hflags⟩ := entriesFrom_optBytes h
  refine ⟨(typeOpt, start + 1), ?_, rfl, ?_⟩
  · rw [hentries, hothers]
    simp
  · rw [HasDnssecOk, hflags]
    rfl

/-- **A query that is prepared at a level with DNSSEC** has an OPT record with the DNSSEC OK bit. -/
theorem prepareQuery_asksForDnssec {level : FeatureLevel} {prepared : PreparedQuery}
    (htsig : TsigFree query) (hlevel : level.sendsDnssecOk = true)
    (h : prepareQuery query level udpPayloadSize = .ok prepared) :
    AsksForDnssec prepared.packet := by
  obtain ⟨-, -, h⟩ := of_bind h
  obtain ⟨layout, hscan, h⟩ := of_bind h
  obtain ⟨sections, offset, start, resume, before, removed, after, hscanned⟩ :=
    scannedAs_of_scanPacket hscan
  obtain ⟨h12, hoffset, hstart, hresume⟩ := hscanned.bounds
  obtain ⟨hheader, _, -, hrecords⟩ := parseSections_eq_ok.mp hscanned.parse
  have hcount := length_parseRecords hrecords
  rw [hscanned.records, length_append, length_append] at hcount
  have hedns : level.usesEdns = true := by cases level <;> first | rfl | cases hlevel
  rw [htsig.scan hscan, hedns, hlevel] at h
  obtain ⟨replacement, hreplacement, h⟩ := of_bind h
  obtain ⟨rdata, -, -, rfl⟩ := encodeOpt_ok hreplacement
  -- the header of the packet that is sent counts the OPT record and the records after it
  have hsent : ∀ {own : List Nat} {packet' : Bytes} {additionals : Nat},
      SplicedOpt own query packet' start resume
        (optBytes (max udpPayloadSize 512) 0 0 dnssecOkFlag rdata) →
      (∀ i ∈ own, i = 10 ∨ i = 11) → readU16 packet' 10 = .ok additionals →
      additionals + removed.length = sections.header.additionalCount + 1 →
      AsksForDnssec packet' := by
    intro own packet' additionals hsplice hown hadditionals htotal
    have hheader' := hsplice.header (by omega) (fun i hi => Or.inr (hown i hi)) hheader
      (hsplice.flags (by omega) ⟨fun hi => by have := hown 2 hi; omega,
        fun hi => by have := hown 3 hi; omega⟩ hheader) hadditionals
    have hspliced := hsplice.toSpliced fun i hi => by have := hown i hi; omega
    refine asksForDnssec_of_entries hsplice.rest
      (recordEntries_spliced (after.length + 1) hscanned.toParted hspliced hheader' rfl ?_)
    unfold Header.totalRecords at hcount ⊢
    dsimp only
    omega
  rcases hscanned.found with ⟨hopt, rfl, rfl, rfl, -⟩ | ⟨span, opt, hopt, rfl, -, rfl, rfl⟩
  · rw [hopt] at h
    obtain ⟨packet', hpacket', hprepared⟩ := of_bind h
    cases hprepared
    obtain ⟨hsplice, hread⟩ := appendOpt_ok hpacket' hheader
    exact hsent (hsplice.mono countOctets_subset) (by simp) hread (by simp)
  · rw [hopt] at h
    obtain ⟨packet', hpacket', hprepared⟩ := of_bind h
    cases hprepared
    have hsplice := replaceSpan_ok [] hpacket'
    have hread := (readU16_of_agree (hsplice.front 10 (by omega) (by simp)) (hsplice.front 11 (by
      omega) (by simp))).trans (headerParse_eq_ok.mp hheader).2.2.2.2.2.2
    exact hsent hsplice (by simp) hread (by simp)

end RustdResolved.Edns.OptRecords
