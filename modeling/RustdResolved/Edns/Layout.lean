import RustdResolved.Edns.Opt
import RustdResolved.Wire.RelocatePacket
import RustdResolved.Wire.WrittenRecord

/-! # Where the OPT record of a packet stands

`scanPacket` reads all records of a packet. What it reports is the one OPT record among them, if
there is one, with the records before and after it, and whether one of them is a TSIG record. -/

namespace RustdResolved.Edns.Layout

open List Lib.Result Wire Octets PacketHeader Record Relocate RelocatePacket Overwrite WrittenRecord
open Opt

variable {offset udpPayloadSize extendedRcode version flags : Nat} {packet : Bytes}
  {layout : PacketLayout}

/-- Records without an OPT record. -/
def NoOpt (records : List ResourceRecord) : Prop := ∀ record ∈ records, record.rrType ≠ typeOpt

/-- The records of a packet between two offsets, with one OPT record among them. -/
structure OptAmong (packet : Bytes) (offset stop : Nat) (before : List ResourceRecord)
    (opt : ResourceRecord) (after : List ResourceRecord) (span : OptSpan) : Prop where
  parseBefore : parseRecords packet before.length offset = .ok (before, span.start)
  parseOpt : parseRecord packet span.start = .ok opt
  parseAfter : parseRecords packet after.length span.stop = .ok (after, stop)
  noneBefore : NoOpt before
  noneAfter : NoOpt after
  rrType : opt.rrType = typeOpt
  name : opt.name.canonicalWire = [0]
  spanStop : span.stop = opt.nextOffset
  udpPayloadSize : span.udpPayloadSize = opt.rrClass
  flags : span.flags = opt.ttl % 65536
  options : parseOptions opt.rdata = .ok span.options

theorem scanRecord_ok {isAdditional : Bool} {start : Nat} {record : ResourceRecord}
    {layout' : PacketLayout} (h : scanRecord isAdditional start record layout = .ok layout') :
    layout'.hasTsig = (layout.hasTsig || record.rrType == typeTsig) ∧
      (record.rrType ≠ typeOpt ∧ layout'.opt = layout.opt ∨
        record.rrType = typeOpt ∧ layout.opt = none ∧ isAdditional = true ∧
          record.name.canonicalWire = [0] ∧
          ∃ options, parseOptions record.rdata = .ok options ∧
            layout'.opt =
              some ⟨start, record.nextOffset, record.rrClass, record.ttl % 65536, options⟩) := by
  unfold scanRecord at h
  split_ifs at h with hopt hbad htsig
  · simp only [Bool.or_eq_true, Bool.not_eq_true', bne_iff_ne, ne_eq, not_or, Bool.not_eq_false,
      not_not, Bool.not_eq_true, Option.isSome_eq_false_iff, Option.isNone_iff_eq_none] at hbad
    obtain ⟨options, hoptions, h⟩ := of_bind h
    cases h
    refine ⟨?_, Or.inr ⟨hopt, hbad.2, hbad.1.1, hbad.1.2, options, hoptions, rfl⟩⟩
    rw [hopt]
    simp [typeOpt, typeTsig]
  · cases h
    exact ⟨by simp [htsig], Or.inl ⟨hopt, rfl⟩⟩
  · cases h
    exact ⟨by simp [htsig], Or.inl ⟨hopt, rfl⟩⟩

/-- **What a scan of records finds.** -/
theorem scanRecords_ok {additionalStart : Nat} {count index stop : Nat} {layout' : PacketLayout}
    (h : scanRecords packet additionalStart count index offset layout = .ok (layout', stop)) :
    ∃ records, parseRecords packet count offset = .ok (records, stop) ∧
      layout'.hasTsig = (layout.hasTsig || records.any (·.rrType == typeTsig)) ∧
      (NoOpt records ∧ layout'.opt = layout.opt ∨
        layout.opt = none ∧ ∃ before opt after span, records = before ++ opt :: after ∧
          layout'.opt = some span ∧ OptAmong packet offset stop before opt after span ∧
          additionalStart ≤ index + before.length) := by
  induction count generalizing index offset stop layout layout' with
  | zero =>
    cases h
    exact ⟨[], rfl, by simp, Or.inl ⟨by simp [NoOpt], rfl⟩⟩
  | succ count ih =>
    obtain ⟨record, hrecord, h⟩ := of_bind h
    obtain ⟨middle, hmiddle, hrest⟩ := of_bind h
    obtain ⟨rest, hparse, htsig, hopt⟩ := ih hrest
    obtain ⟨htsig', hopt'⟩ := scanRecord_ok hmiddle
    have hall : parseRecords packet (count + 1) offset = .ok (record :: rest, stop) := by
      simp only [parseRecords, ok_bind, hrecord, hparse]
    refine ⟨record :: rest, hall, ?_, ?_⟩
    · rw [htsig, htsig', any_cons, Bool.or_assoc]
    · rcases hopt' with ⟨hplain, hsame⟩ | ⟨htype, hnone, hadditional, hname, options,
        hoptions, hspan⟩
      · rcases hopt with ⟨hno, hsame'⟩ | ⟨hnone, before, opt, after, span, rfl, hspan, hamong, hle⟩
        · refine Or.inl ⟨?_, hsame'.trans hsame⟩
          simp only [NoOpt, mem_cons, forall_eq_or_imp]
          exact ⟨hplain, hno⟩
        · refine Or.inr ⟨hsame ▸ hnone, record :: before, opt, after, span, rfl, hspan,
            { hamong with parseBefore := ?_, noneBefore := ?_ }, ?_⟩
          · simp [parseRecords, ok_bind, hrecord, hamong.parseBefore]
          · simp only [NoOpt, mem_cons, forall_eq_or_imp]
            exact ⟨hplain, hamong.noneBefore⟩
          · rw [length_cons]
            omega
      · rcases hopt with ⟨hno, hsame'⟩ | ⟨hnone', -⟩
        · have hcount := length_parseRecords hparse
          refine Or.inr ⟨hnone, [], record, rest, _, rfl, hsame'.trans hspan,
            ⟨rfl, hrecord, ?_, by simp [NoOpt], hno, htype, hname, rfl, rfl, rfl, hoptions⟩, ?_⟩
          · rw [hcount]
            exact hparse
          · rw [length_nil, Nat.add_zero]
            exact of_decide_eq_true hadditional
        · rw [hspan] at hnone'
          cases hnone'

/-- **What a scan of a packet finds.** -/
theorem scanPacket_ok (h : scanPacket packet = .ok layout) :
    ∃ sections, parseSections packet = .ok sections ∧ sections.stop = packet.length ∧
      layout.hasTsig = sections.records.any (·.rrType == typeTsig) ∧
      (NoOpt sections.records ∧ layout.opt = none ∨
        ∃ before opt after span offset,
          parseQuestions packet sections.header.questionCount dnsHeaderLen =
            .ok (sections.questions, offset) ∧
          sections.records = before ++ opt :: after ∧ layout.opt = some span ∧
          OptAmong packet offset packet.length before opt after span ∧
          sections.header.answerCount + sections.header.authorityCount ≤ before.length) := by
  obtain ⟨header, hheader, h⟩ := of_bind h
  obtain ⟨⟨questions, offset⟩, hquestions, h⟩ := of_bind h
  obtain ⟨⟨layout', stop⟩, hscan, h⟩ := of_bind h
  dsimp only at h
  split_ifs at h with hstop
  cases h
  rw [not_not] at hstop
  obtain ⟨records, hrecords, htsig, hopt⟩ := scanRecords_ok hscan
  refine ⟨⟨header, questions, records, stop⟩,
    parseSections_eq_ok.mpr ⟨hheader, offset, hquestions, hrecords⟩,
    hstop, by simpa using htsig, ?_⟩
  rcases hopt with hnone | ⟨-, before, opt, after, span, hrecords', hspan, hamong, hle⟩
  · exact Or.inl hnone
  · rw [hstop] at hamong
    exact Or.inr ⟨before, opt, after, span, offset, hquestions, hrecords', hspan, hamong,
      by simpa using hle⟩

/-! ### Written OPT records -/

theorem patchU16_eq_ok {packet' : Bytes} {value : Nat} :
    patchU16 packet offset value = .ok packet' ↔ writeU16 packet offset value = .ok packet' := by
  rw [writeU16, writeAt_eq_ok, length_u16ToBeBytes]
  unfold patchU16
  split_ifs with h
  · simp [h]
  · simp [Nat.not_lt.mp h, eq_comm]

def optBytes (udpPayloadSize extendedRcode version flags : Nat) (rdata : Bytes) : Bytes :=
  [0] ++ (u16ToBeBytes typeOpt ++ (u16ToBeBytes udpPayloadSize ++
    ([UInt8.ofNat extendedRcode, UInt8.ofNat version] ++ (u16ToBeBytes flags ++
      (u16ToBeBytes rdata.length ++ rdata)))))

theorem encodeOpt_ok {options : List EdnsOption}
    {bytes : Bytes} (h : encodeOpt udpPayloadSize extendedRcode version flags options = .ok bytes) :
    ∃ rdata, encodeOptions options = .ok rdata ∧ rdata.length < 65536 ∧
      bytes = optBytes udpPayloadSize extendedRcode version flags rdata := by
  obtain ⟨rdata, hrdata, h⟩ := of_bind h
  split_ifs at h with hlong
  cases h
  refine ⟨rdata, hrdata, by omega, ?_⟩
  simp [optBytes]

theorem length_optBytes (udpPayloadSize extendedRcode version flags : Nat) (rdata : Bytes) :
    (optBytes udpPayloadSize extendedRcode version flags rdata).length = 11 + rdata.length := by
  simp only [optBytes, length_append, length_u16ToBeBytes, length_cons, length_nil]
  omega

def optRecordAt (offset udpPayloadSize extendedRcode version flags : Nat) (rdata : Bytes) :
    ResourceRecord :=
  ⟨⟨['.'], [0]⟩, typeOpt, udpPayloadSize % 65536,
    u32FromBeBytes (UInt8.ofNat extendedRcode) (UInt8.ofNat version) (UInt8.ofNat (flags / 256))
      (UInt8.ofNat flags), offset + 5, offset + 11, rdata, offset + 11 + rdata.length⟩

/-- **An OPT record that was written is read back.** -/
theorem parseRecord_optBytes {rest rdata : Bytes}
    (hshort : rdata.length < 65536) (hclass : udpPayloadSize % 65536 ≠ classAny)
    (h : packet.drop offset = optBytes udpPayloadSize extendedRcode version flags rdata ++ rest) :
    parseRecord packet offset =
      .ok (optRecordAt offset udpPayloadSize extendedRcode version flags rdata) := by
  have hsize : u16ToBeBytes (udpPayloadSize % 65536) = u16ToBeBytes udpPayloadSize := by
    simp only [u16ToBeBytes, cons.injEq, ← UInt8.toNat_inj, UInt8.toNat_ofNat', and_true]
    omega
  have hfields : packet.drop (offset + 1) = recordFields typeOpt (udpPayloadSize % 65536)
      [UInt8.ofNat extendedRcode, UInt8.ofNat version, UInt8.ofNat (flags / 256), UInt8.ofNat flags]
      rdata ++ rest := by
    simp only [optBytes, append_assoc] at h
    refine (drop_add_of_drop (b := [0]) h).trans ?_
    rw [recordFields, hsize]
    simp [u16ToBeBytes]
  have hroot : packet[offset]? = some 0 := by
    rw [← Nat.add_zero offset, ← getElem?_drop, h]
    rfl
  refine (parseRecord_written_iff hfields (readName_root hroot) (by decide) (by omega) hshort).mpr
    ⟨?_, rfl, ?_⟩
  · simp [hclass, typeOpt, typeIxfr, typeAxfr, typeAny]
  · simp [optRecordAt, recordAfter, recordTtl, Nat.add_assoc]

end RustdResolved.Edns.Layout
