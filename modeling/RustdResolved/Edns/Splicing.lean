import RustdResolved.Dnssec.CanonicalMoved
import RustdResolved.Edns.Layout
import RustdResolved.Wire.ReplyMatches
import RustdResolved.Wire.Splice

/-! # OPT records that are put in and taken out

`prepareQuery` puts the resolver's own OPT record into a query or takes the client's out, and
`responseForClient` takes the OPT record out of a response. What else a packet holds stays, if no
name is read through the octets that are rewritten or that move (`SpliceKept`). -/

namespace RustdResolved.Edns.Splicing

open List Lib.Result Wire Octets PacketHeader Record Overwrite Relocate RelocateRecord
open RelocatePacket Splice Dnssec.CanonicalMoved Servers Opt Layout

variable {additionals : Nat} {packet : Bytes} {records : List ResourceRecord} {sections : Sections}

/-! ### What is kept -/

/-- The offset from which on the octets of a packet move: that of its OPT record, or its end. -/
def spliceStart (packet : Bytes) : Nat :=
  match scanPacket packet with
  | .ok ⟨some span, _⟩ => span.start
  | _ => packet.length

/-- No name of a packet is read through the octets `own` or through octets that move. -/
def SpliceKept (own : List Nat) (packet : Bytes) : Prop :=
  ∀ i ∈ followedOctets packet, i ∉ own ∧ i < spliceStart packet
  deriving Decidable

def plainRecords (records : List ResourceRecord) : List ResourceRecord :=
  records.filter (·.rrType != typeOpt)

def optRecords (records : List ResourceRecord) : List ResourceRecord :=
  records.filter (·.rrType == typeOpt)

/-- The octets of the header that change with the number of additional records. -/
def countOctets (count count' : Nat) : List Nat :=
  if count / 256 = count' / 256 then [11] else [10, 11]

/-- The octet of the header with the response code, if an extended code does not fit into it. -/
def rcodeOctets (header : Header) (opt : ResourceRecord) : List Nat :=
  if 15 < (opt.ttl / 16777216 % 256) <<< 4 ||| header.responseCode then [3] else []

/-- What a query must keep to be prepared: nothing, if it has no OPT record and gets none. -/
def QueryKept (level : FeatureLevel) (query : Bytes) (sections : Sections) : Prop :=
  let count := sections.header.additionalCount
  match optRecords sections.records, level.usesEdns with
  | [], false => True
  | [], true => SpliceKept (countOctets count (count + 1)) query
  | _ :: _, false => SpliceKept (countOctets count (count - 1)) query
  | _ :: _, true => SpliceKept [] query

/-- What a response with an OPT record must keep for a client that sent neither an OPT nor a TSIG
record. -/
def ResponseKept (query response : Bytes) (sections : Sections) : Prop :=
  ∀ asked, parseSections query = .ok asked →
    (∀ record ∈ asked.records, record.rrType ≠ typeOpt ∧ record.rrType ≠ typeTsig) →
    ∀ opt ∈ optRecords sections.records,
      SpliceKept (rcodeOctets sections.header opt ++
        countOctets sections.header.additionalCount (sections.header.additionalCount - 1)) response

/-- A packet as a scan sees it: its records with the OPT record, if there is one, between the
others. -/
structure ScannedAs (packet : Bytes) (layout : PacketLayout) (sections : Sections)
    (offset start resume : Nat) (before removed after : List ResourceRecord) : Prop
    extends Parted packet sections offset start resume before removed after where
  noneBefore : NoOpt before
  noneAfter : NoOpt after
  hasTsig : layout.hasTsig = sections.records.any (·.rrType == typeTsig)
  spliceStart : spliceStart packet = start
  found : layout.opt = none ∧ removed = [] ∧ start = packet.length ∧ resume = packet.length ∧
      after = [] ∨
    ∃ span opt, layout.opt = some span ∧ removed = [opt] ∧ opt.rrType = typeOpt ∧
      start = span.start ∧ resume = span.stop

theorem scannedAs_of_scanPacket {layout : PacketLayout} (h : scanPacket packet = .ok layout) :
    ∃ sections offset start resume before removed after,
      ScannedAs packet layout sections offset start resume before removed after := by
  obtain ⟨sections, hparse, hstop, htsig, hopt⟩ := scanPacket_ok h
  rcases hopt with ⟨hnone, hlayout⟩ | ⟨before, opt, after, span, offset, hquestions,
    hrecords, hspan, hamong, -⟩
  · obtain ⟨-, offset, hquestions, hrecords⟩ := parseSections_eq_ok.mp hparse
    rw [← length_parseRecords hrecords, hstop] at hrecords
    refine ⟨sections, offset, packet.length, packet.length, sections.records, [], [],
      ⟨hparse, hstop, hquestions, by simp, hrecords, rfl, rfl⟩, hnone, by simp [NoOpt], htsig, ?_,
      Or.inl ⟨hlayout, rfl, rfl, rfl, rfl⟩⟩
    obtain ⟨opt, hasTsig⟩ := layout
    cases hlayout
    rw [spliceStart, h]
  · have hone : parseRecords packet [opt].length span.start = .ok ([opt], span.stop) := by
      simp [parseRecords, ok_bind, hamong.parseOpt, hamong.spanStop]
    refine ⟨sections, offset, span.start, span.stop, before, [opt], after,
      ⟨hparse, hstop, hquestions, hrecords, hamong.parseBefore, hone, hamong.parseAfter⟩,
      hamong.noneBefore, hamong.noneAfter, htsig, ?_,
      Or.inr ⟨span, opt, hspan, rfl, hamong.rrType, rfl, rfl⟩⟩
    obtain ⟨opt, hasTsig⟩ := layout
    cases hspan
    rw [spliceStart, h]

/-! ### The octets of a spliced packet -/

/-- A packet with `bytes` in the place of the octets from `start` to `resume`, and with the octets
`own` of its header overwritten. -/
structure SplicedOpt (own : List Nat) (packet packet' : Bytes) (start resume : Nat)
    (bytes : Bytes) :
    Prop where
  front : ∀ i < start, i ∉ own → packet'[i]? = packet[i]?
  length : packet'.length = start + bytes.length + (packet.length - resume)
  rest : packet'.drop start = bytes ++ packet.drop resume

section

variable {own : List Nat} {packet' bytes : Bytes} {start resume : Nat}

theorem splicedOpt_of_eq (hle : start ≤ packet.length) (own : List Nat) (bytes : Bytes)
    (resume : Nat) :
    SplicedOpt own packet (packet.take start ++ bytes ++ packet.drop resume) start
      resume bytes := by
  have htake : (packet.take start).length = start := by
    rw [length_take]
    omega
  refine ⟨fun i hi _ => ?_, ?_, ?_⟩
  · rw [append_assoc, getElem?_append_left (by omega), getElem?_take, if_pos hi]
  · rw [length_append, length_append, htake, length_drop]
  · rw [append_assoc, drop_left' htake]

section
variable (h : SplicedOpt own packet packet' start resume bytes)
include h

/-- Two octets of the header that are overwritten. -/
theorem SplicedOpt.write {packet'' : Bytes} {offset value : Nat} (hstart : 12 ≤ start)
    (hwrite : writeU16 packet' offset value = .ok packet'') (hoffset : offset + 2 ≤ 12)
    (hown : ∀ i, offset ≤ i → i < offset + 2 → i ∈ own ∨ packet''[i]? = packet'[i]?) :
    SplicedOpt own packet packet'' start resume bytes := by
  refine ⟨fun i hi hnot => ?_, (length_writeAt hwrite).trans h.length, ?_⟩
  · rw [← h.front i hi hnot]
    by_cases hin : offset ≤ i ∧ i < offset + 2
    · exact (hown i hin.1 hin.2).resolve_left hnot
    · exact getElem?_writeU16_of_out hwrite (by omega)
  · rw [← h.rest]
    apply ext_getElem?
    intro i
    rw [getElem?_drop, getElem?_drop]
    exact getElem?_writeU16_of_out hwrite (by omega)

theorem SplicedOpt.toSpliced (hown : ∀ i ∈ own, i < 12) :
    Spliced packet packet' start resume bytes :=
  ⟨fun i hi hle => h.front i hi fun hin => by
    have := hown i hin
    unfold dnsHeaderLen at hle
    omega, h.length, h.rest⟩

theorem SplicedOpt.header {header : Header} {flags : Nat} (hstart : 12 ≤ start)
    (hown : ∀ i ∈ own, i = 3 ∨ i = 10 ∨ i = 11) (hheader : Header.parse packet = .ok header)
    (hflags : readU16 packet' 2 = .ok flags) (hadditionals : readU16 packet' 10 = .ok additionals) :
    Header.parse packet' = .ok { header with flags := flags, additionalCount := additionals } := by
  obtain ⟨-, hid, -, hquestions, hanswers, hauthorities, -⟩ := headerParse_eq_ok.mp hheader
  have hread : ∀ offset, offset ≠ 3 → offset + 1 ≠ 3 → offset + 1 < 10 →
      readU16 packet' offset = readU16 packet offset := fun offset h1 h2 h3 =>
    readU16_of_agree (h.front offset (by omega) fun hin => by have := hown _ hin; omega)
      (h.front (offset + 1) (by omega) fun hin => by have := hown _ hin; omega)
  have hlength := h.length
  exact headerParse_eq_ok.mpr ⟨by show 12 ≤ packet'.length; omega,
    (hread 0 (by omega) (by omega) (by omega)).trans hid, hflags,
    (hread 4 (by omega) (by omega) (by omega)).trans hquestions,
    (hread 6 (by omega) (by omega) (by omega)).trans hanswers,
    (hread 8 (by omega) (by omega) (by omega)).trans hauthorities, hadditionals⟩

end

end

/-! ### What a spliced packet holds -/

section

variable {own : List Nat} {packet' bytes : Bytes} {layout : PacketLayout} {sections : Sections}
  {offset start resume : Nat} {before removed after : List ResourceRecord}

theorem plainRecords_of_noOpt (h : NoOpt records) :
    plainRecords records = records ∧ optRecords records = [] := by
  refine ⟨filter_eq_self.mpr fun record hrecord => ?_, filter_eq_nil_iff.mpr
    fun record hrecord => ?_⟩ <;> simpa using h record hrecord

theorem plainRecords_of_opt (h : ∀ record ∈ records, record.rrType = typeOpt) :
    plainRecords records = [] ∧ optRecords records = records := by
  refine ⟨filter_eq_nil_iff.mpr fun record hrecord => ?_, filter_eq_self.mpr
    fun record hrecord => ?_⟩ <;> simpa using h record hrecord

theorem sameRecord_of_sameData {count begin finish : Nat}
    (h : parseRecords packet count begin = .ok (records, finish)) {record record' : ResourceRecord}
    (hrecord : record ∈ records) (hsame : SameData packet packet' record record')
    (hname : record'.name = record.name) (hclass : record'.rrClass = record.rrClass) :
    SameRecord packet packet' record record' := by
  obtain ⟨_, nameEnd, rawTtl, hat⟩ := parseRecords_recordAt h record hrecord
  exact ⟨hname, hsame.rrType, hclass, hsame.rdata, fun data hdata =>
    canonicalRdata_moved hsame hat.valid hdata⟩

theorem ScannedAs.optRecords_eq
    (h : ScannedAs packet layout sections offset start resume before removed after) :
    optRecords sections.records = removed := by
  have hremoved : ∀ record ∈ removed, record.rrType = typeOpt := by
    rcases h.found with ⟨-, rfl, -⟩ | ⟨span, opt, -, rfl, hopt, -⟩
    · simp
    · simpa using hopt
  rw [h.records, optRecords, filter_append, filter_append]
  have hparts := (plainRecords_of_opt hremoved).2
  have hbefore := (plainRecords_of_noOpt h.noneBefore).2
  have hafter := (plainRecords_of_noOpt h.noneAfter).2
  unfold optRecords at hparts hbefore hafter
  rw [hparts, hbefore, hafter, nil_append, append_nil]

/-- **What a spliced packet holds**: the questions and the other records of the packet, and the OPT
records that were put in. -/
theorem ScannedAs.spliced
    (h : ScannedAs packet layout sections offset start resume before removed after)
    (middle : List ResourceRecord) (hsplice : SplicedOpt own packet packet' start resume bytes)
    (hown : ∀ i ∈ own, i = 3 ∨ i = 10 ∨ i = 11) (hkept : SpliceKept own packet) {flags : Nat}
    (hflags : readU16 packet' 2 = .ok flags) (hadditionals : readU16 packet' 10 = .ok additionals)
    (htotal : additionals + removed.length = sections.header.additionalCount + middle.length)
    (hopt : ∀ record ∈ middle, record.rrType = typeOpt)
    (hmiddle : parseRecords packet' middle.length start = .ok (middle, start + bytes.length)) :
    ∃ sections', parseSections packet' = .ok sections' ∧
      sections'.header = { sections.header with flags := flags, additionalCount := additionals } ∧
      sections'.questions = sections.questions ∧
      SameButTtls packet packet' (·.ttl) (plainRecords sections.records)
        (plainRecords sections'.records) ∧
      optRecords sections'.records = middle := by
  obtain ⟨h12, hoffset, hstart, hresume⟩ := h.bounds
  obtain ⟨hheader, _, -, hrecords⟩ := parseSections_eq_ok.mp h.parse
  have hcount := length_parseRecords hrecords
  rw [h.records, length_append, length_append] at hcount
  have hheader' := hsplice.header (by omega) hown hheader hflags hadditionals
  have hfollowed : ∀ i ∈ followedOctets packet, packet'[i]? = packet[i]? ∧ i < start := by
    intro i hi
    obtain ⟨hnot, hlt⟩ := hkept i hi
    rw [h.spliceStart] at hlt
    exact ⟨hsplice.front i hlt hnot, hlt⟩
  have htotal' : Header.totalRecords
      { sections.header with flags := flags, additionalCount := additionals } =
        before.length + (middle.length + after.length) := by
    unfold Header.totalRecords at hcount ⊢
    dsimp only
    omega
  obtain ⟨hparse, hsame, hsame'⟩ := parseSections_spliced h.toParted
    (hsplice.toSpliced fun i hi => by have := hown i hi; omega) hheader' rfl htotal'
      hmiddle hfollowed
  have hremoved : ∀ record ∈ removed, record.rrType = typeOpt := by
    rcases h.found with ⟨-, rfl, -⟩ | ⟨span, opt, -, rfl, hopt, -⟩
    · simp
    · simpa using hopt
  have hnoneAfter : NoOpt (after.map (shiftedRecord resume (start + bytes.length))) := by
    intro record hrecord
    obtain ⟨record, hold, rfl⟩ := mem_map.mp hrecord
    exact h.noneAfter record hold
  refine ⟨_, hparse, rfl, rfl, ?_, ?_⟩
  · rw [h.records]
    simp only [fun first second => show plainRecords (first ++ second) = plainRecords first ++
      plainRecords second from filter_append .., (plainRecords_of_noOpt h.noneBefore).1,
      (plainRecords_of_noOpt h.noneAfter).1, (plainRecords_of_opt hremoved).1,
      (plainRecords_of_opt hopt).1, (plainRecords_of_noOpt hnoneAfter).1, nil_append]
    refine rel_append ?_ ?_
    · exact forall₂_same.mpr fun record hrecord =>
        ⟨sameRecord_of_sameData h.parseBefore hrecord (hsame record hrecord) rfl rfl, rfl⟩
    · rw [forall₂_map_right_iff]
      exact forall₂_same.mpr fun record hrecord =>
        ⟨sameRecord_of_sameData h.parseAfter hrecord (hsame' record hrecord) rfl rfl, rfl⟩
  · simp only [fun first second => show optRecords (first ++ second) = optRecords first ++
      optRecords second from filter_append .., (plainRecords_of_noOpt h.noneBefore).2,
      (plainRecords_of_opt hopt).2, (plainRecords_of_noOpt hnoneAfter).2, nil_append,
      append_nil]

end

/-! ### Queries and responses -/

section

variable {own : List Nat} {packet' bytes : Bytes} {header : Header} {start resume : Nat}

theorem SplicedOpt.flags (h : SplicedOpt own packet packet' start resume bytes)
    (hstart : 12 ≤ start) (hown : 2 ∉ own ∧ 3 ∉ own) (hheader : Header.parse packet = .ok header) :
    readU16 packet' 2 = .ok header.flags :=
  (readU16_of_agree (h.front 2 (by omega) hown.1) (h.front 3 (by omega) hown.2)).trans
    (headerParse_eq_ok.mp hheader).2.2.1

theorem SplicedOpt.mono {own' : List Nat} (h : SplicedOpt own packet packet' start resume bytes)
    (hsub : own ⊆ own') : SplicedOpt own' packet packet' start resume bytes :=
  ⟨fun i hi hnot => h.front i hi fun hin => hnot (hsub hin), h.length, h.rest⟩

theorem replaceSpan_ok (own : List Nat) (h : replaceSpan packet start resume bytes = .ok packet') :
    SplicedOpt own packet packet' start resume bytes := by
  unfold replaceSpan at h
  split_ifs at h with hbad
  cases h
  exact splicedOpt_of_eq (by omega) own bytes resume

theorem writeU16_upper {offset value value' : Nat}
    (hwrite : writeU16 packet offset value' = .ok packet')
    (hread : readU16 packet offset = .ok value) (hsame : value' / 256 = value / 256) :
    packet'[offset]? = packet[offset]? := by
  rw [readU16_eq] at hread
  split at hread
  · rename_i a b ha _
    cases hread
    have hdiv : u16FromBeBytes a b / 256 = a.toNat := by
      have := b.toNat_lt
      unfold u16FromBeBytes
      omega
    rw [getElem?_writeAt hwrite, if_pos (by rw [length_u16ToBeBytes]; omega), Nat.sub_self, ha]
    simp [u16ToBeBytes, hsame, hdiv]
  · cases hread

theorem countOctets_subset {count count' : Nat} : countOctets count count' ⊆ [10, 11] := by
  unfold countOctets
  split_ifs <;> simp

/-- A new number of additional records. -/
theorem SplicedOpt.patchAdditionals {output : Bytes} {count : Nat}
    (h : SplicedOpt [] packet output start resume bytes) (hstart : 12 ≤ start)
    (hcount : readU16 packet 10 = .ok count)
    (hpatch : patchU16 output 10 additionals = .ok packet') (hlt : additionals < 65536) :
    SplicedOpt (countOctets count additionals) packet packet' start resume bytes ∧
      readU16 packet' 10 = .ok additionals := by
  rw [patchU16_eq_ok] at hpatch
  have hread := readU16_writeU16 hpatch
  rw [Nat.mod_eq_of_lt hlt] at hread
  have hold : readU16 output 10 = .ok count :=
    (readU16_of_agree (h.front 10 (by omega) (by simp)) (h.front 11 (by omega) (by simp))).trans
      hcount
  refine ⟨(h.mono (nil_subset _)).write hstart hpatch (by omega) fun i h1 h2 => ?_, hread⟩
  unfold countOctets
  rcases (show i = 10 ∨ i = 11 by omega) with rfl | rfl
  · split_ifs with hsame
    · exact .inr (writeU16_upper hpatch hold hsame.symm)
    · exact .inl (by simp)
  · split_ifs <;> simp

theorem removeOpt_ok {span : OptSpan} (h : removeOpt packet span = .ok packet')
    (hheader : Header.parse packet = .ok header) (hstart : 12 ≤ span.start) :
    SplicedOpt (countOctets header.additionalCount (header.additionalCount - 1)) packet packet'
        span.start span.stop [] ∧
      readU16 packet' 10 = .ok (header.additionalCount - 1) ∧ 0 < header.additionalCount := by
  obtain ⟨_, hheader', h⟩ := of_bind h
  cases hheader.symm.trans hheader'
  split_ifs at h with hzero
  obtain ⟨output, houtput, hpatch⟩ := of_bind h
  have hcount := (headerParse_eq_ok.mp hheader).2.2.2.2.2.2
  have hlt := readU16_lt_65536 hcount
  obtain ⟨hsplice, hread⟩ :=
    (replaceSpan_ok [] houtput).patchAdditionals hstart hcount hpatch (by omega)
  exact ⟨hsplice, hread, by omega⟩

theorem appendOpt_ok {opt : Bytes} (h : appendOpt packet opt = .ok packet')
    (hheader : Header.parse packet = .ok header) :
    SplicedOpt (countOctets header.additionalCount (header.additionalCount + 1)) packet packet'
        packet.length packet.length opt ∧
      readU16 packet' 10 = .ok (header.additionalCount + 1) := by
  obtain ⟨_, hheader', h⟩ := of_bind h
  cases hheader.symm.trans hheader'
  split_ifs at h with hmany hlong
  have hsplice := splicedOpt_of_eq (le_refl packet.length) [] opt packet.length
  rw [take_length, drop_length, append_nil] at hsplice
  exact hsplice.patchAdditionals (headerParse_eq_ok.mp hheader).1
    (headerParse_eq_ok.mp hheader).2.2.2.2.2.2 h (by omega)

theorem flags_upper_octet {flags : Nat} (h : flags < 65536) :
    (clearFlags flags rcodeMask ||| 2) / 256 = flags / 256 := by
  have hshift : ∀ n : Nat, n / 256 = n >>> 8 := fun n => (Nat.shiftRight_eq_div_pow n 8).symm
  have hlt : flags >>> 8 < 2 ^ 8 := by
    rw [← hshift]
    omega
  rw [hshift, hshift, Nat.shiftRight_or_distrib, clearFlags, Nat.shiftRight_and_distrib,
    show (2 : Nat) >>> 8 = 0 by decide, show (0xffff ^^^ rcodeMask) >>> 8 = 2 ^ 8 - 1 by decide,
    Nat.or_zero, Nat.and_two_pow_sub_one_of_lt_two_pow hlt]

end

/-- What two packets have in common that differ in their OPT records. -/
structure SameButOpt (packet packet' : Bytes) (sections sections' : Sections) : Prop where
  parse : parseSections packet' = .ok sections'
  questions : sections'.questions = sections.questions
  records : SameButTtls packet packet' (·.ttl) (plainRecords sections.records)
    (plainRecords sections'.records)

theorem sameButOpt_refl (h : parseSections packet = .ok sections) :
    SameButOpt packet packet sections sections :=
  ⟨h, rfl, forall₂_same.mpr fun _ _ => ⟨⟨rfl, rfl, rfl, rfl, fun _ h => h⟩, rfl⟩⟩

section

variable {query : Bytes} {level : FeatureLevel} {udpPayloadSize : Nat} {prepared : PreparedQuery}
  {sections : Sections}

/-- The OPT record that is put in is read where it was put. -/
theorem SplicedOpt.parseOpt {own : List Nat} {packet' rdata : Bytes} {start resume : Nat}
    {udpPayloadSize extendedRcode version flags : Nat}
    (h : SplicedOpt own packet packet' start resume
      (optBytes udpPayloadSize extendedRcode version flags rdata))
    (hshort : rdata.length < 65536) (hclass : udpPayloadSize % 65536 ≠ classAny) :
    parseRecords packet' [optRecordAt start udpPayloadSize extendedRcode version flags rdata].length
        start =
      .ok ([optRecordAt start udpPayloadSize extendedRcode version flags rdata],
        start + (optBytes udpPayloadSize extendedRcode version flags rdata).length) := by
  have hparse := parseRecord_optBytes hshort hclass h.rest
  simp only [length_singleton, parseRecords, ok_bind, hparse, length_optBytes,
    optRecordAt, Nat.add_assoc]

/-- **A packet spliced with OPT records only** has the identifier, the flags, the questions and the
other records of the packet. -/
theorem ScannedAs.sameButOpt {layout : PacketLayout} {offset start resume : Nat} {own : List Nat}
    {packet' bytes : Bytes} {before removed after : List ResourceRecord}
    (h : ScannedAs packet layout sections offset start resume before removed after)
    (middle : List ResourceRecord) (hown : own ⊆ [10, 11]) (hkept : SpliceKept own packet)
    (hsplice : SplicedOpt own packet packet' start resume bytes)
    (hread : readU16 packet' 10 = .ok additionals)
    (htotal : additionals + removed.length = sections.header.additionalCount + middle.length)
    (hopt : ∀ record ∈ middle, record.rrType = typeOpt)
    (hmiddle : parseRecords packet' middle.length start = .ok (middle, start + bytes.length)) :
    ∃ sections', SameButOpt packet packet' sections sections' ∧
      sections'.header.id = sections.header.id ∧ sections'.header.flags = sections.header.flags ∧
      (optRecords sections'.records).length = middle.length := by
  obtain ⟨hheader, -⟩ := parseSections_eq_ok.mp h.parse
  obtain ⟨h12, hoffset, hstart, hresume⟩ := h.bounds
  have hcounts : ∀ i ∈ own, i = 10 ∨ i = 11 := fun i hi => by simpa using hown hi
  have hflags := hsplice.flags (by omega) ⟨fun hi => by have := hcounts 2 hi; omega,
    fun hi => by have := hcounts 3 hi; omega⟩ hheader
  obtain ⟨sections', hparse, hheader', hquestions, hrecords, hopts⟩ :=
    h.spliced middle hsplice (fun i hi => .inr (hcounts i hi)) hkept hflags hread htotal hopt
      hmiddle
  exact ⟨sections', ⟨hparse, hquestions, hrecords⟩, by rw [hheader'], by rw [hheader'],
    by rw [hopts]⟩

/-- **A prepared query** holds what the query held, and an OPT record if the level uses EDNS. -/
theorem prepareQuery_sameButOpt (hsections : parseSections query = .ok sections)
    (htsig : ∀ record ∈ sections.records, record.rrType ≠ typeTsig) (hsize : udpPayloadSize < 65536)
    (hkept : QueryKept level query sections)
    (h : prepareQuery query level udpPayloadSize = .ok prepared) :
    ∃ sections', SameButOpt query prepared.packet sections sections' ∧
      sections'.header.id = sections.header.id ∧ sections'.header.flags = sections.header.flags ∧
      (optRecords sections'.records).length = if level.usesEdns then 1 else 0 := by
  obtain ⟨-, -, h⟩ := of_bind h
  obtain ⟨layout, hlayout, h⟩ := of_bind h
  obtain ⟨_, offset, start, resume, before, removed, after, hscan⟩ :=
    scannedAs_of_scanPacket hlayout
  cases hsections.symm.trans hscan.parse
  obtain ⟨hheader, -⟩ := parseSections_eq_ok.mp hsections
  obtain ⟨h12, hoffset, hstart, hresume⟩ := hscan.bounds
  have hnone : layout.hasTsig = false := by
    rw [hscan.hasTsig, any_eq_false]
    simpa using htsig
  rw [hnone] at h
  unfold QueryKept at hkept
  rw [hscan.optRecords_eq] at hkept
  cases huses : level.usesEdns with
  | false =>
    simp only [huses, Bool.not_false, if_true] at h hkept
    rcases hscan.found with ⟨hopt, rfl, -, -, rfl⟩ | ⟨span, opt, hopt, rfl, -, rfl, rfl⟩
    · rw [hopt] at h
      cases h
      refine ⟨sections, sameButOpt_refl hsections, rfl, rfl, ?_⟩
      rw [hscan.optRecords_eq]
      rfl
    · rw [hopt] at h
      obtain ⟨packet', hpacket', hprepared⟩ := of_bind h
      cases hprepared
      obtain ⟨hsplice', hread, hpos⟩ := removeOpt_ok hpacket' hheader (by omega)
      exact hscan.sameButOpt [] countOctets_subset hkept hsplice' hread (by simp; omega) (by simp)
        rfl
  | true =>
    simp only [huses, Bool.not_true, Bool.false_eq_true, if_false] at h hkept
    obtain ⟨replacement, hreplacement, h⟩ := of_bind h
    obtain ⟨rdata, -, hshort, rfl⟩ := encodeOpt_ok hreplacement
    have hclass : max udpPayloadSize 512 % 65536 ≠ classAny := by
      unfold classAny
      omega
    rcases hscan.found with ⟨hopt, rfl, rfl, rfl, -⟩ | ⟨span, opt, hopt, rfl, -, rfl, rfl⟩
    · rw [hopt] at h
      obtain ⟨packet', hpacket', hprepared⟩ := of_bind h
      cases hprepared
      obtain ⟨hsplice', hread⟩ := appendOpt_ok hpacket' hheader
      exact hscan.sameButOpt _ countOctets_subset hkept hsplice' hread rfl (by simp [optRecordAt])
        (hsplice'.parseOpt hshort hclass)
    · rw [hopt] at h
      obtain ⟨packet', hpacket', hprepared⟩ := of_bind h
      cases hprepared
      -- the number of additional records stays
      have hsplice' := replaceSpan_ok [] hpacket'
      have hread := (readU16_of_agree (hsplice'.front 10 (by omega) (by simp)) (hsplice'.front 11
        (by omega) (by simp))).trans (headerParse_eq_ok.mp hheader).2.2.2.2.2.2
      exact hscan.sameButOpt _ (nil_subset _) hkept hsplice' hread (by simp) (by simp [optRecordAt])
        (hsplice'.parseOpt hshort hclass)

end

theorem noOpt_of_opt {layout : PacketLayout} {offset start resume : Nat}
    {before removed after : List ResourceRecord}
    (h : ScannedAs packet layout sections offset start resume before removed after)
    (hnone : layout.opt = none) : NoOpt sections.records := by
  rcases h.found with ⟨-, rfl, -, -, rfl⟩ | ⟨span, opt, hopt, -⟩
  · rw [h.records, append_nil, append_nil]
    exact h.noneBefore
  · rw [hnone] at hopt
    cases hopt

/-- The octet of the response code changes exactly if the whole code does not fit into it. -/
theorem ScannedAs.rcodeOctets_eq {layout : PacketLayout} {offset extendedRcode : Nat}
    {span : OptSpan} {before after : List ResourceRecord} {opt : ResourceRecord}
    {inspected : OptRecord}
    (h : ScannedAs packet layout sections offset span.start span.stop before [opt] after)
    (hlayout : scanPacket packet = .ok layout) (hopt : layout.opt = some span)
    (hinspected : inspectOpt packet = .ok (some inspected))
    (hrcode : fullRcode packet (some inspected) = .ok extendedRcode) :
    rcodeOctets sections.header opt = if 15 < extendedRcode then [3] else [] := by
  obtain ⟨_, hheader, hrcode⟩ := of_bind hrcode
  cases (parseSections_eq_ok.mp h.parse).1.symm.trans hheader
  cases hrcode
  obtain ⟨_, hlayout', hinspected⟩ := of_bind hinspected
  cases hlayout.symm.trans hlayout'
  rw [hopt] at hinspected
  obtain ⟨read, hread, hinspected⟩ := of_bind hinspected
  cases hinspected
  obtain ⟨_, hparsed, hrest⟩ := of_bind h.parseRemoved
  cases hread.symm.trans hparsed
  simp only [parseRecords, ok_bind, Except.ok.injEq, Prod.mk.injEq, cons.injEq] at hrest
  obtain ⟨⟨rfl, -⟩, -⟩ := hrest
  rfl

/-- The client's query has neither an OPT nor a TSIG record. -/
theorem ResponseKept.spliceKept {query response : Bytes} {layout : PacketLayout}
    {opt : ResourceRecord} (h : ResponseKept query response sections)
    (hlayout : scanPacket query = .ok layout) (htsig : layout.hasTsig = false)
    (hnone : layout.opt = none) (hopt : opt ∈ optRecords sections.records) :
    SpliceKept (rcodeOctets sections.header opt ++
      countOctets sections.header.additionalCount (sections.header.additionalCount - 1))
        response := by
  obtain ⟨asked, _, _, _, _, _, _, hasked⟩ := scannedAs_of_scanPacket hlayout
  refine h asked hasked.parse (fun record hrecord => ⟨noOpt_of_opt hasked hnone record hrecord, ?_⟩)
    opt hopt
  rw [hasked.hasTsig, any_eq_false] at htsig
  simpa using htsig record hrecord

/-- **A response for a client** holds the questions and the other records of the response. -/
theorem responseForClient_sameButOpt {query response output : Bytes}
    (hsections : parseSections response = .ok sections)
    (hkept : ResponseKept query response sections)
    (h : responseForClient query response = .ok output) :
    ∃ sections', SameButOpt response output sections sections' := by
  obtain ⟨-, -, h⟩ := of_bind h
  obtain ⟨-, -, h⟩ := of_bind h
  obtain ⟨queryLayout, hquery, h⟩ := of_bind h
  split_ifs at h with hkeep
  · cases h
    exact ⟨sections, sameButOpt_refl hsections⟩
  obtain ⟨layout, hlayout, h⟩ := of_bind h
  obtain ⟨_, offset, start, resume, before, removed, after, hscan⟩ :=
    scannedAs_of_scanPacket hlayout
  cases hsections.symm.trans hscan.parse
  rcases hscan.found with ⟨hopt, -⟩ | ⟨span, opt, hopt, rfl, hoptType, rfl, rfl⟩
  · rw [hopt] at h
    cases h
    exact ⟨sections, sameButOpt_refl hsections⟩
  obtain ⟨htsig, hnone⟩ : queryLayout.hasTsig = false ∧ queryLayout.opt = none := by
    simpa using hkeep
  have hkept := hkept.spliceKept hquery htsig hnone
    (by rw [hscan.optRecords_eq]; exact mem_singleton_self opt)
  rw [hopt] at h
  obtain ⟨inspected, hinspected, h⟩ := of_bind h
  cases inspected with
  | none => cases h
  | some record =>
    obtain ⟨extendedRcode, hrcode, h⟩ := of_bind h
    obtain ⟨removed, hremoved, h⟩ := of_bind h
    obtain ⟨hheader, -⟩ := parseSections_eq_ok.mp hsections
    obtain ⟨h12, hoffset, hstart, hresume⟩ := hscan.bounds
    obtain ⟨hremoved, hread, hpos⟩ := removeOpt_ok hremoved hheader (by omega)
    have hcount : ∀ i ∈ countOctets sections.header.additionalCount
        (sections.header.additionalCount - 1), i = 10 ∨ i = 11 := fun i hi => by
      simpa using countOctets_subset hi
    have hrcodes := hscan.rcodeOctets_eq hlayout hopt hinspected hrcode
    have hown : ∀ i ∈ rcodeOctets sections.header opt ++ countOctets sections.header.additionalCount
        (sections.header.additionalCount - 1), i = 3 ∨ i = 10 ∨ i = 11 := by
      intro i hi
      rw [hrcodes, mem_append] at hi
      rcases hi with hi | hi
      · split_ifs at hi
        · exact .inl (mem_singleton.mp hi)
        · cases hi
      · exact .inr (hcount i hi)
    have hsplice := hremoved.mono (subset_append_right (rcodeOctets sections.header opt) _)
    -- what holds of the response without its OPT record, with any flags
    have hholds : ∀ {output : Bytes} {flags : Nat},
        SplicedOpt (rcodeOctets sections.header opt ++ countOctets sections.header.additionalCount
          (sections.header.additionalCount - 1)) response output span.start span.stop [] →
        readU16 output 2 = .ok flags →
        readU16 output 10 = .ok (sections.header.additionalCount - 1) →
        ∃ sections', SameButOpt response output sections sections' := by
      intro output flags hsplice hflags hread
      obtain ⟨sections', hparse, -, hquestions, hrecords, -⟩ := hscan.spliced [] hsplice hown
        hkept hflags hread (by simp; omega) (by simp) rfl
      exact ⟨sections', hparse, hquestions, hrecords⟩
    split_ifs at h with hextended
    · obtain ⟨flags, hflags, hpatch⟩ := of_bind h
      rw [patchU16_eq_ok] at hpatch
      refine hholds (hsplice.write (by omega) hpatch (by omega) fun i h1 h2 => ?_)
        (readU16_writeU16 hpatch) ?_
      · rcases (show i = 2 ∨ i = 3 by omega) with rfl | rfl
        · exact Or.inr (writeU16_upper hpatch hflags (flags_upper_octet (readU16_lt_65536 hflags)))
        · rw [hrcodes, if_pos hextended]
          exact Or.inl mem_cons_self
      · rw [readU16_writeAt_of_out hpatch (.inr (by simp)), hread]
    · cases h
      refine hholds hsplice (hremoved.flags (by omega) ⟨fun hi => ?_, fun hi => ?_⟩ hheader) hread
      · have := hcount 2 hi
        omega
      · have := hcount 3 hi
        omega

/-! ### Splicing keeps the message -/

/-- What splicing keeps of messages none of whose names is read through octets that it rewrites or
moves.

* A prepared query without TSIG has the identifier, the flags, the questions and the other records
  of the query, and one OPT record exactly if the level uses EDNS.
* A response for a client has the questions and the other records of the response. -/
theorem opt_splicing_keeps (query : Bytes) :
    (∀ (level : FeatureLevel) (udpPayloadSize : Nat) (prepared : PreparedQuery)
      (sections : Sections), parseSections query = .ok sections →
      (∀ record ∈ sections.records, record.rrType ≠ typeTsig) → udpPayloadSize < 65536 →
      QueryKept level query sections → prepareQuery query level udpPayloadSize = .ok prepared →
      ∃ sections', SameButOpt query prepared.packet sections sections' ∧
        sections'.header.id = sections.header.id ∧ sections'.header.flags = sections.header.flags ∧
        (optRecords sections'.records).length = if level.usesEdns then 1 else 0) ∧
    ∀ (response output : Bytes) (sections : Sections), parseSections response = .ok sections →
      ResponseKept query response sections → responseForClient query response = .ok output →
      ∃ sections', SameButOpt response output sections sections' :=
  ⟨fun _ _ _ _ hsections htsig hsize hkept h =>
    prepareQuery_sameButOpt hsections htsig hsize hkept h,
    fun _ _ _ hsections hkept h => responseForClient_sameButOpt hsections hkept h⟩

def ednsQuery : Bytes :=
  [0, 7, 1, 0, 0, 1, 0, 0, 0, 0, 0, 1, 1, 113, 0, 0, 1, 0, 1, 0, 0, 41, 4, 208, 0, 0, 0, 0, 0, 0]

def ednsQuerySections : Sections :=
  ⟨⟨7, 0x100, 1, 0, 0, 1⟩, [⟨⟨['q'], [1, 113, 0]⟩, 1, 1, 19⟩],
    [⟨⟨['.'], [0]⟩, 41, 1232, 0, 24, 30, [], 30⟩], 30⟩

/-- The query without its OPT record. -/
def plainQuery : Bytes := [0, 7, 1, 0, 0, 1, 0, 0, 0, 0, 0, 0, 1, 113, 0, 0, 1, 0, 1]

theorem opt_splicing_keeps_edns_query :
    ∃ sections', SameButOpt ednsQuery plainQuery ednsQuerySections sections' ∧
      sections'.header.id = 7 ∧ sections'.header.flags = 0x100 ∧
      (optRecords sections'.records).length = 0 :=
  (opt_splicing_keeps ednsQuery).1 .udp 1232 ⟨plainQuery, false, true⟩ ednsQuerySections
    (by decide +kernel) (by decide) (by decide)
    (show SpliceKept [11] ednsQuery from by decide +kernel) (by decide +kernel)

/-- An OPT record and two addresses after the question. The owner of the second address is a pointer
to the owner of the first one. -/
def optFirst (flags : Bytes) : Bytes :=
  [0, 7] ++ flags ++ [0, 1, 0, 0, 0, 0, 0, 3, 1, 113, 0, 0, 1, 0, 1,
    0, 0, 41, 4, 208, 0, 0, 0, 0, 0, 0,
    1, 97, 0, 0, 1, 0, 1, 0, 0, 1, 44, 0, 4, 192, 0, 2, 1,
    0xc0, 30, 0, 1, 0, 1, 0, 0, 1, 44, 0, 4, 192, 0, 2, 2]

/-- The owners of the records other than OPT records. -/
def plainOwners (packet : Bytes) : Except WireError (List Bytes) := do
  let sections ← parseSections packet
  .ok ((plainRecords sections.records).map (·.name.canonicalWire))

/-- With the OPT record taken out the pointer leads to another place, in a query and in a
response. -/
theorem optFirst_loses_owner :
    plainOwners (optFirst [1, 0]) = .ok [[1, 97, 0], [1, 97, 0]] ∧
      (do plainOwners (← prepareQuery (optFirst [1, 0]) .udp 1232).packet) = .ok [[1, 97, 0], [0]] ∧
      plainOwners (optFirst [0x81, 0x80]) = .ok [[1, 97, 0], [1, 97, 0]] ∧
      (do plainOwners (← responseForClient plainQuery (optFirst [0x81, 0x80]))) =
        .ok [[1, 97, 0], [0]] := by
  decide

end RustdResolved.Edns.Splicing
