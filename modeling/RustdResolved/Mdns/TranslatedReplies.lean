import RustdResolved.Mdns.Translation
import RustdResolved.Wire.ReplyMatches
import RustdResolved.Wire.WrittenRecord

/-! # Translated replies that the decoder accepts

A reply to a stub client has the records of other hosts in it, as they were read. Their names are
written out, so each record is valid or not by itself, wherever it stands; and nothing checks it. A
reply that is too long is cut in the middle of its records, with the counts left as they were. -/

namespace RustdResolved.Mdns.TranslatedReplies

open List Lib Result SortedSet Wire Octets Name PacketHeader Presentation Record Packet Overwrite
open Relocate RelocateRecord RelocatePacket WrittenName WrittenRecord ReplyMatches
open Mdns.Messages (dnsClassMask slice dnsHeader IsCanonical)
open Mdns.Translation (MdnsQuestion RuntimeRecord MdnsRuntimeError Received typeMx
  recordBytes buildStubResponse stubReply stubFlags matchingRecords parseResponseRecords)

variable {additionals answers : List RuntimeRecord} {flags n offset start : Nat}
  {name packet rest : Bytes}
  {placed : ResourceRecord} {question : MdnsQuestion} {record : RuntimeRecord}

/-! ### Data that is valid wherever it stands -/

theorem isWritten_of_isCanonical (h : IsCanonical name) : IsWritten name := by
  obtain ⟨labels, hvalid, rfl⟩ := h
  have hlower := hvalid.map_lowercase
  refine ⟨_, fun label hlabel => ⟨hlower.nonempty label hlabel, hlower.short label hlabel⟩, rfl, ?_⟩
  rw [length_wireName]
  exact hlower.fits

theorem followed_of_isCanonical (h : IsCanonical name)
    (hdrop : packet.drop offset = name ++ rest) : followed packet offset = [] :=
  ((isWritten_of_isCanonical h).localEnd hdrop).2

theorem readName_of_isCanonical (h : IsCanonical name) (hdrop : packet.drop offset = name ++ rest) :
    ∃ read, readName packet offset = .ok (read, offset + name.length) := by
  obtain ⟨labels, hvalid, rfl⟩ := h
  exact ⟨_, readName_wireName hvalid.map_lowercase hdrop⟩

/-- The types whose names the reader of responses writes out. -/
def namedTypes : List Nat := [2, 5, 6, 12, 15, 33, 39]

theorem followed_rdataNames (hrecord : Received record) (htype : record.rrType ∈ namedTypes)
    (hplaced : placed.rrType = record.rrType)
    (hdrop : packet.drop placed.rdataOffset = record.rdata ++ rest) :
    ∀ offset ∈ rdataNames packet placed, followed packet offset = [] := by
  have hexpanded := hrecord.rdata
  have hname : record.rrType = typeNs ∨ record.rrType = typeCname ∨ record.rrType = typePtr ∨
      record.rrType = typeDname → followed packet placed.rdataOffset = [] := fun htype =>
    followed_of_isCanonical (hexpanded.name htype) hdrop
  have hprefixed : ∀ {skip : Nat}, (∃ head name, head.length = skip ∧ IsCanonical name ∧
      record.rdata = head ++ name) → followed packet (placed.rdataOffset + skip) = [] := by
    rintro skip ⟨head, name, rfl, hname, hrdata⟩
    rw [hrdata, append_assoc] at hdrop
    exact followed_of_isCanonical hname (drop_add_of_drop hdrop)
  have hsoa : record.rrType = typeSoa → followed packet placed.rdataOffset = [] ∧
      ∀ next ∈ secondName packet placed.rdataOffset, followed packet next = [] := by
    intro htype
    obtain ⟨mname, rname, numbers, hmname, hrname, -, hrdata⟩ := hexpanded.soa htype
    rw [hrdata, append_assoc, append_assoc] at hdrop
    obtain ⟨read, hread⟩ := readName_of_isCanonical hmname hdrop
    refine ⟨followed_of_isCanonical hmname hdrop, fun next hnext => ?_⟩
    rw [secondName, hread, mem_singleton] at hnext
    rw [hnext]
    exact followed_of_isCanonical hrname (drop_add_of_drop hdrop)
  simp only [namedTypes, mem_cons, not_mem_nil, or_false] at htype
  rcases htype with h | h | h | h | h | h | h
  all_goals simp only [rdataNames, hplaced, h, mem_cons, not_mem_nil, or_false, forall_eq,
    forall_eq_or_imp]
  · exact hname (by rw [h]; decide)
  · exact hname (by rw [h]; decide)
  · exact hsoa h
  · exact hname (by rw [h]; decide)
  · exact hprefixed (hexpanded.mx h)
  · exact hprefixed (hexpanded.srv h)
  · exact hname (by rw [h]; decide)

/-- Of the other types, the decoder checks no data that it reads a name in. -/
theorem rdataNames_unchecked (packet : Bytes) (htype : placed.rrType ∉ namedTypes) :
    rdataNames packet placed = [] ∨ ∀ packet' placed', placed'.rrType = placed.rrType →
      validateRecordRdata packet' placed' = .ok () := by
  unfold rdataNames
  split
  all_goals first
    | exact .inl rfl
    | refine .inr fun packet' placed' hsame => ?_
      simp_all [validateRecordRdata, namedTypes]

/-- **The data of a record is valid at one place if it is at another.** -/
theorem validateRecordRdata_placed (hrecord : Received record)
    {packet' rest' : Bytes} {placed' : ResourceRecord}
    (htype : placed.rrType = record.rrType) (hrdata : placed.rdata = record.rdata)
    (hnext : placed.nextOffset = placed.rdataOffset + record.rdata.length)
    (hdrop : packet.drop placed.rdataOffset = record.rdata ++ rest)
    (htype' : placed'.rrType = record.rrType) (hrdata' : placed'.rdata = record.rdata)
    (hnext' : placed'.nextOffset = placed'.rdataOffset + record.rdata.length)
    (hdrop' : packet'.drop placed'.rdataOffset = record.rdata ++ rest')
    (hfits : placed.rdataOffset ≤ packet.length) (hfits' : placed'.rdataOffset ≤ packet'.length)
    (h : validateRecordRdata packet placed = .ok ()) :
    validateRecordRdata packet' placed' = .ok () := by
  have hmoved : Moved packet packet' placed.rdataOffset placed'.rdataOffset
      record.rdata.length := by
    have hlong := congrArg length hdrop
    have hlong' := congrArg length hdrop'
    rw [length_drop, length_append] at hlong hlong'
    refine ⟨by omega, by omega, fun k hk => ?_⟩
    rw [← getElem?_drop, ← getElem?_drop, hdrop, hdrop', getElem?_append_left hk,
      getElem?_append_left hk]
  have hmove : (∀ offset ∈ rdataNames packet placed, followed packet offset = []) →
      validateRecordRdata packet' placed' = .ok () := by
    intro hnames
    refine validateRecordRdata_moved ⟨htype'.trans htype.symm, hrdata'.trans hrdata.symm,
      ?_, ?_, ?_, ?_⟩ h
    · rw [hrdata]
      exact hnext
    · rw [hrdata]
      exact hnext'
    · rw [hrdata]
      exact hmoved
    · intro offset hoffset i hi
      rw [hnames offset hoffset] at hi
      exact absurd hi not_mem_nil
  by_cases hnamed : record.rrType ∈ namedTypes
  · exact hmove (followed_rdataNames hrecord hnamed htype hdrop)
  · rcases rdataNames_unchecked packet (by rwa [htype]) with hnone | hall
    · exact hmove (by simp [hnone])
    · exact hall packet' placed' (htype'.trans htype.symm)

/-! ### Records that are read in a packet -/

section
variable (record : RuntimeRecord)

/-- The decoder of unicast packets takes the record by itself. -/
def Accepted : Prop := ∃ read, parseRecord (recordBytes record) 0 = .ok read

theorem recordBytes_eq :
    recordBytes record = record.owner ++
      recordFields record.rrType (record.cls &&& dnsClassMask) (u32ToBeBytes record.ttl)
        record.rdata := by
  simp [recordBytes, recordFields]

theorem length_recordBytes :
    (recordBytes record).length = record.owner.length + 10 + record.rdata.length := by
  rw [recordBytes_eq]
  simp only [recordFields, u32ToBeBytes, length_append, length_u16ToBeBytes]
  omega

end

theorem drop_rdata (hdrop : packet.drop start = recordBytes record ++ rest) :
    packet.drop (start + record.owner.length + 10) = record.rdata ++ rest ∧
      start + record.owner.length + 10 ≤ packet.length := by
  have hlong := congrArg length hdrop
  rw [length_drop, length_append, length_recordBytes] at hlong
  rw [recordBytes_eq, append_assoc] at hdrop
  exact ⟨(drop_recordFields (drop_add_of_drop hdrop)).2.2.2, by omega⟩

section

variable (hrecord : Received record) (hshort : record.rdata.length ≤ 65535)
include hrecord hshort

section
variable (hdrop : packet.drop start = recordBytes record ++ rest)
include hdrop

/-- What it takes for a record to be read where its octets are. -/
theorem exists_parseRecord_iff :
    ∃ name rawTtl, (∃ read, parseRecord packet start = .ok read) ↔
      ¬ (record.cls &&& dnsClassMask = classAny ∨ record.rrType = typeIxfr ∨
        record.rrType = typeAxfr ∨
        record.rrType = typeAny) ∧
      validateRecordRdata packet (recordAfter (start + record.owner.length) name record.rrType
        (record.cls &&& dnsClassMask) rawTtl record.rdata) = .ok () := by
  rw [recordBytes_eq, append_assoc] at hdrop
  obtain ⟨name, hname⟩ := readName_of_isCanonical hrecord.owner hdrop
  have hclass : record.cls &&& dnsClassMask < 65536 :=
    lt_of_le_of_lt Nat.and_le_left (lt_trans hrecord.cls (by decide))
  have hiff :=
    fun read => (parseRecord_written_iff (drop_add_of_drop hdrop) hname hrecord.rrType hclass
    (by omega) : parseRecord packet start = .ok read ↔ _)
  exact ⟨name, _, fun ⟨read, hread⟩ => ⟨((hiff read).mp hread).1, ((hiff read).mp hread).2.1⟩,
    fun ⟨hallowed, hvalid⟩ => ⟨_, (hiff _).mpr ⟨hallowed, hvalid, rfl⟩⟩⟩

/-- **A record is read in a packet if it is by itself.** -/
theorem parseRecord_accepted_iff :
    (∃ read, parseRecord packet start = .ok read) ↔ Accepted record := by
  have halone : (recordBytes record).drop 0 = recordBytes record ++ [] := (append_nil _).symm
  obtain ⟨name, rawTtl, hiff⟩ := exists_parseRecord_iff hrecord hshort hdrop
  obtain ⟨name', rawTtl', hiff'⟩ := exists_parseRecord_iff hrecord hshort halone
  obtain ⟨hdata, hfits⟩ := drop_rdata hdrop
  obtain ⟨hdata', hfits'⟩ := drop_rdata halone
  rw [Accepted, hiff, hiff']
  refine and_congr_right fun _ => ⟨?_, ?_⟩
  · exact validateRecordRdata_placed hrecord rfl rfl rfl hdata rfl rfl rfl hdata' hfits hfits'
  · exact validateRecordRdata_placed hrecord rfl rfl rfl hdata' rfl rfl rfl hdata hfits' hfits

/-- A record that is read in the front of a packet ends where its octets end. -/
theorem nextOffset_of_take {read : ResourceRecord}
    (h : parseRecord (packet.take n) start = .ok read) :
    read.nextOffset = start + (recordBytes record).length := by
  obtain ⟨nameEnd, rawTtl, hat⟩ := parseRecord_eq_ok.mp h
  have hagree : ∀ i < (packet.take n).length, (packet.take n)[i]? = packet[i]? := by
    intro i hi
    rw [length_take] at hi
    rw [getElem?_take, if_pos (by omega)]
  rw [recordBytes_eq, append_assoc] at hdrop
  obtain ⟨name, hname⟩ := readName_of_isCanonical hrecord.owner hdrop
  obtain ⟨hlt, hle⟩ := readName_lt hat.name
  have hnameEnd : nameEnd = start + record.owner.length := by
    have hread : readName (packet.take n) start = .ok (read.name, start + (nameEnd - start)) := by
      rw [hat.name, Nat.add_sub_cancel' hlt.le]
    have hmoved : Moved (packet.take n) packet start start (nameEnd - start) :=
      Moved.of_agree (by omega) (by omega) fun i hstart hstop => (hagree i (by omega)).symm
    have := readName_length_moved hread hname hmoved
    omega
  have hlength : record.rdata.length = read.rdata.length := by
    have hfield := hat.rdataLength
    have hin := readU16_lt hfield
    rw [readU16_of_agree (hagree _ (by omega)) (hagree _ (by omega)), hnameEnd,
      readU16_of_drop (drop_recordFields (drop_add_of_drop hdrop)).2.2.1] at hfield
    rw [← Except.ok.inj hfield]
    omega
  rw [hat.nextOffset, hnameEnd, length_recordBytes, hlength]
  omega

end

end

def recordsBytes (records : List RuntimeRecord) : Bytes := records.flatMap recordBytes

/-- **Records that are read in the front of a packet** end where their octets end. -/
theorem stop_of_take {records : List RuntimeRecord} {stop : Nat} {reads : List ResourceRecord}
    (hreceived : ∀ record ∈ records, Received record)
    (hshort : ∀ record ∈ records, record.rdata.length ≤ 65535)
    (hdrop : packet.drop start = recordsBytes records)
    (h : parseRecords (packet.take n) records.length start = .ok (reads, stop)) :
    stop = start + (recordsBytes records).length := by
  induction records generalizing start stop reads with
  | nil =>
    cases h
    rfl
  | cons record records ih =>
    obtain ⟨hown, hreceived⟩ := forall_mem_cons.mp hreceived
    obtain ⟨hownShort, hshort⟩ := forall_mem_cons.mp hshort
    rw [recordsBytes, flatMap_cons] at hdrop ⊢
    obtain ⟨read, hread, h⟩ := of_bind h
    obtain ⟨⟨others, stop'⟩, hothers, h⟩ := of_bind h
    cases h
    have hnext := nextOffset_of_take hown hownShort hdrop hread
    have hrest := drop_add_of_drop hdrop
    rw [← hnext] at hrest
    have := ih hreceived hshort hrest hothers
    rw [length_append]
    rw [recordsBytes] at this
    omega

/-- **Records are read in a packet if each of them is by itself.** -/
theorem parseRecords_accepted_iff {records : List RuntimeRecord}
    (hreceived : ∀ record ∈ records, Received record)
    (hshort : ∀ record ∈ records, record.rdata.length ≤ 65535)
    (hdrop : packet.drop start = recordsBytes records) :
    ((∃ result, parseRecords packet records.length start = .ok result) ↔
      ∀ record ∈ records, Accepted record) := by
  induction records generalizing start with
  | nil => exact ⟨fun _ => by simp, fun _ => ⟨_, rfl⟩⟩
  | cons record records ih =>
    obtain ⟨hown, hreceived⟩ := forall_mem_cons.mp hreceived
    obtain ⟨hownShort, hshort⟩ := forall_mem_cons.mp hshort
    have hfirst := parseRecord_accepted_iff hown hownShort hdrop
    have hrest : ∀ read, parseRecord packet start = .ok read →
        packet.drop read.nextOffset = recordsBytes records := by
      intro read hread
      rw [← take_length (l := packet)] at hread
      rw [nextOffset_of_take hown hownShort hdrop hread]
      exact drop_add_of_drop hdrop
    rw [forall_mem_cons, ← hfirst, length_cons]
    constructor
    · rintro ⟨result, h⟩
      obtain ⟨read, hread, h⟩ := of_bind h
      obtain ⟨others, hothers, -⟩ := of_bind h
      exact ⟨⟨read, hread⟩, (ih hreceived hshort (hrest read hread)).mp ⟨others, hothers⟩⟩
    · rintro ⟨⟨read, hread⟩, haccepted⟩
      obtain ⟨⟨others, stop⟩, hothers⟩ := (ih hreceived hshort (hrest read hread)).mpr haccepted
      exact ⟨(read :: others, stop), by simp only [parseRecords, hread, ok_bind, hothers]⟩

/-! ### What a reply is made of -/

/-- The octets of a reply that is not cut. -/
def written (question : MdnsQuestion) (flags : Nat) (answers additionals : List RuntimeRecord) :
    Bytes :=
  dnsHeader question.id flags 1 answers.length 0 additionals.length ++
    (question.raw ++ recordsBytes (answers ++ additionals))

theorem mapM_appendRecord {records : List RuntimeRecord} {blocks : List Bytes}
    (h : records.mapM Translation.appendRecord = .ok blocks) :
    (∀ record ∈ records, record.rdata.length ≤ 65535) ∧ blocks.flatten = recordsBytes records := by
  induction records generalizing blocks with
  | nil =>
    cases h
    exact ⟨by simp, rfl⟩
  | cons record records ih =>
    obtain ⟨block, others, hblock, hothers, rfl⟩ := mapM_cons_eq_ok.mp h
    obtain ⟨hshort, hflatten⟩ := ih hothers
    unfold Translation.appendRecord at hblock
    split_ifs at hblock with hlong
    cases hblock
    refine ⟨forall_mem_cons.mpr ⟨not_lt.mp hlong, hshort⟩, ?_⟩
    rw [flatten_cons, hflatten]
    rfl

/-- A reply is all that is written, or the front of it with the flag for a cut reply. -/
structure Built (question : MdnsQuestion) (answers additionals : List RuntimeRecord)
    (reply : Bytes) :
    Prop where
  few : answers.length ≤ 65535 ∧ additionals.length ≤ 65535
  short : ∀ record ∈ answers ++ additionals, record.rdata.length ≤ 65535
  reply : ∃ flags n, reply = (written question flags answers additionals).take n ∧
    (flags = stubFlags question ∨ flags = stubFlags question ||| flagTc) ∧
    (n = 1232 ∧ 65535 < (written question flags answers additionals).length ∨
      n = (written question flags answers additionals).length ∧ n ≤ 65535)

theorem buildStubResponse_built
    {reply : Bytes} (h : buildStubResponse question answers additionals = .ok reply) :
    Built question (matchingRecords question answers) additionals reply := by
  unfold buildStubResponse at h
  dsimp only at h
  split_ifs at h with hmany
  obtain ⟨output, houtput, h⟩ := of_bind h
  obtain ⟨blocks, hblocks, houtput⟩ := of_bind houtput
  obtain ⟨more, hmore, houtput⟩ := of_bind houtput
  obtain ⟨hshort, hflatten⟩ := mapM_appendRecord hblocks
  obtain ⟨hshort', hflatten'⟩ := mapM_appendRecord hmore
  obtain rfl :
      written question (stubFlags question) (matchingRecords question answers) additionals =
      output := by
    rw [← Except.ok.inj houtput]
    simp [written, recordsBytes, hflatten, hflatten']
  refine ⟨by omega, forall_mem_append.mpr ⟨hshort, hshort'⟩, ?_⟩
  split_ifs at h with hlong
  · cases h
    exact ⟨stubFlags question ||| flagTc, 1232, rfl, .inr rfl, .inl ⟨rfl, hlong⟩⟩
  · cases h
    exact ⟨stubFlags question, _, take_length.symm, .inl rfl, .inr ⟨rfl, not_lt.mp hlong⟩⟩

/-! ### The header and the question of a reply -/

/-- The question of a client as `parseQuestion` keeps it. -/
structure AskedAs (query : Bytes) (nameEnd : Nat) (question : MdnsQuestion) : Prop where
  id : readU16 query 0 = .ok question.id
  raw : question.raw = slice query dnsHeaderLen (nameEnd + 4)

theorem parseQuestion_askedAs {query : Bytes} {header : Header} {asked : Question} {nameEnd : Nat}
    (hquery : QueryAt query header asked nameEnd)
    (h : Translation.parseQuestion query = .ok question) : AskedAs query nameEnd question := by
  unfold Translation.parseQuestion at h
  split_ifs at h
  obtain ⟨id, hid, h⟩ := of_bind h
  obtain ⟨flags, -, h⟩ := of_bind h
  split_ifs at h
  obtain ⟨count, -, h⟩ := of_bind h
  split_ifs at h
  obtain ⟨⟨owner, text, stop⟩, hname, h⟩ := of_bind h
  dsimp only at h
  split_ifs at h
  obtain ⟨rrType, -, h⟩ := of_bind h
  obtain ⟨cls, -, h⟩ := of_bind h
  cases h
  refine ⟨Translation.readU16_eq_ok.mp hid, ?_⟩
  have hend : stop = localEnd query readNameFuel dnsHeaderLen :=
    Translation.loop_decodeRound_end 272 hname
  rw [hend, ← readName_localEnd hquery.asks.name]

theorem readU16_octets {value : Nat} (h : readU16 packet offset = .ok value) :
    ∀ k < 2, packet[offset + k]? = (u16ToBeBytes value)[k]? := by
  rw [readU16_eq] at h
  split at h
  · rename_i a b ha hb
    cases h
    intro k hk
    rw [u16ToBeBytes_u16FromBeBytes]
    rcases k with _ | _ | k
    · exact ha
    · exact hb
    · omega
  · cases h

theorem stubFlags_isReply (h : flags = stubFlags question ∨ flags = stubFlags question ||| flagTc) :
    flags < 65536 ∧ flags &&& flagQr ≠ 0 ∧ (flags &&& flagOpcode) / 2048 = 0 := by
  have hrd : question.flags &&& flagRd = 0 ∨ question.flags &&& flagRd = flagRd := by
    have hbit : question.flags &&& flagRd = (question.flags.testBit 8).toNat * 2 ^ 8 :=
      Nat.and_two_pow _ 8
    rw [hbit]
    cases question.flags.testBit 8
    · exact .inl rfl
    · exact .inr rfl
  unfold stubFlags at h
  rcases hrd with hrd | hrd
  all_goals
    rw [hrd] at h
    rcases h with rfl | rfl
    all_goals decide

section

theorem length_written (question : MdnsQuestion) (flags : Nat)
    (answers additionals : List RuntimeRecord) :
    (written question flags answers additionals).length =
      12 + question.raw.length + (recordsBytes (answers ++ additionals)).length := by
  simp only [written, dnsHeader, length_append, length_u16ToBeBytes]
  omega

/-- The fields of the header of a reply, also when it is cut. -/
theorem header_written (hn : 12 ≤ n) (hflags : flags < 65536) (hanswers : answers.length ≤ 65535)
    (hadditionals : additionals.length ≤ 65535) :
    readU16 ((written question flags answers additionals).take n) 2 = .ok flags ∧
      readU16 ((written question flags answers additionals).take n) 4 = .ok 1 ∧
      readU16 ((written question flags answers additionals).take n) 6 = .ok answers.length ∧
      readU16 ((written question flags answers additionals).take n) 8 = .ok 0 ∧
      readU16 ((written question flags answers additionals).take n) 10 =
        .ok additionals.length := by
  have hread : ∀ {offset value : Nat} (rest : Bytes), offset + 2 ≤ 12 → value < 65536 →
      (written question flags answers additionals).drop offset = u16ToBeBytes value ++ rest →
      readU16 ((written question flags answers additionals).take n) offset = .ok value := by
    intro offset value rest hoffset hvalue hdrop
    refine readU16_take (by omega) ?_
    rw [readU16_of_drop hdrop, Nat.mod_eq_of_lt hvalue]
  exact ⟨hread _ (by decide) hflags rfl, hread _ (by decide) (by decide) rfl,
    hread _ (by decide) (by omega) rfl, hread _ (by decide) (by decide) rfl,
    hread _ (by decide) (by omega) rfl⟩

variable {query : Bytes} {header : Header} {asked : Question} {nameEnd : Nat}
  (hquery : QueryAt query header asked nameEnd) (hasked : AskedAs query nameEnd question)
include hquery hasked

theorem length_raw : question.raw.length = nameEnd + 4 - 12 := by
  rw [hasked.raw, Translation.length_slice hquery.bounds.2]
  rfl

/-- **A reply keeps the question**, also when it is cut. -/
theorem keepsQuestion_written (flags : Nat) (answers additionals : List RuntimeRecord)
    (hn : nameEnd + 4 ≤ n) :
    KeepsQuestion query ((written question flags answers additionals).take n) (nameEnd + 4) where
  fits := by
    have hraw := length_raw hquery hasked
    rw [length_take, length_written]
    omega
  kept i hi hnot := by
    have hraw := length_raw hquery hasked
    rw [getElem?_take, if_pos (by omega)]
    by_cases hlow : i < 12
    · unfold Rewritten at hnot
      -- the identity is that of the query, and so is the number of questions
      have hid := readU16_octets hasked.id
      obtain ⟨-, -, -, hcount, -⟩ := headerParse_eq_ok.mp hquery.parse
      rw [hquery.questionCount] at hcount
      have hcount := readU16_octets hcount
      obtain rfl | rfl | rfl | rfl : i = 0 ∨ i = 1 ∨ i = 4 ∨ i = 5 := by omega
      · exact (hid 0 (by decide)).symm
      · exact (hid 1 (by decide)).symm
      · exact (hcount 0 (by decide)).symm
      · exact (hcount 1 (by decide)).symm
    · have hlength : (dnsHeader question.id flags 1 answers.length 0 additionals.length).length =
          12 := rfl
      rw [written, getElem?_append_right (by omega), hlength,
        getElem?_append_left (by omega), hasked.raw, slice, getElem?_take,
        if_pos (by unfold dnsHeaderLen; omega), getElem?_drop]
      congr 1
      unfold dnsHeaderLen
      omega

theorem drop_written (flags : Nat) (answers additionals : List RuntimeRecord) :
    (written question flags answers additionals).drop (nameEnd + 4) =
      recordsBytes (answers ++ additionals) := by
  obtain ⟨hstart, -⟩ := hquery.bounds
  have hraw := length_raw hquery hasked
  have hlength : (dnsHeader question.id flags 1 answers.length 0 additionals.length ++
      question.raw).length = nameEnd + 4 := by
    rw [length_append, hraw]
    simp only [dnsHeader, length_append, length_u16ToBeBytes]
    omega
  rw [written, ← append_assoc, ← hlength, drop_left]

/-- The records of a reply that is a packet are read behind its question, to its end. -/
theorem parseRecords_of_validate (hn : nameEnd + 4 ≤ n) (hflags : flags < 65536)
    (hanswers : answers.length ≤ 65535) (hadditionals : additionals.length ≤ 65535)
    (h : validate ((written question flags answers additionals).take n) true = .ok ()) :
    ∃ reads, parseRecords ((written question flags answers additionals).take n)
      (answers ++ additionals).length (nameEnd + 4) =
        .ok (reads, ((written question flags answers additionals).take n).length) := by
  obtain ⟨hstart, -⟩ := hquery.bounds
  obtain ⟨-, hcount, hanswerCount, hauthorityCount, hadditionalCount⟩ :=
    header_written (show 12 ≤ n by omega) hflags hanswers hadditionals
  have hkeeps := keepsQuestion_written hquery hasked flags answers additionals hn
  obtain ⟨sections, hpacket⟩ := validate_eq_ok.mp h
  obtain ⟨hheader, offset, hquestions, hrecords⟩ := parseSections_eq_ok.mp hpacket.parse
  obtain ⟨-, -, -, hcount', hanswerCount', hauthorityCount', hadditionalCount'⟩ :=
    headerParse_eq_ok.mp hheader
  rw [← Except.ok.inj (hcount.symm.trans hcount')] at hquestions
  obtain ⟨replied, hreplied, hquestions⟩ := of_bind hquestions
  obtain ⟨nameEnd', hat⟩ := parseQuestion_eq_ok.mp hreplied
  obtain ⟨-, rfl⟩ := Prod.mk.inj (Except.ok.inj hquestions)
  have h12 : dnsHeaderLen = 12 := rfl
  have hmoved : Moved query ((written question flags answers additionals).take n) dnsHeaderLen
      dnsHeaderLen (nameEnd - dnsHeaderLen) := by
    refine Moved.of_agree ?_ ?_ fun i hle hlt => hkeeps.kept i ?_ ?_
    · have := hquery.bounds
      omega
    · omega
    · omega
    · unfold Rewritten
      omega
  have hname := hquery.asks.name
  have hend : nameEnd = dnsHeaderLen + (nameEnd - dnsHeaderLen) := by omega
  have hsame : nameEnd' = nameEnd := by
    rw [hend] at hname ⊢
    exact readName_length_moved hname hat.name hmoved
  rw [hat.nextOffset, hsame, hpacket.stop] at hrecords
  have htotal : sections.header.totalRecords = (answers ++ additionals).length := by
    rw [Header.totalRecords, ← Except.ok.inj (hanswerCount.symm.trans hanswerCount'),
      ← Except.ok.inj (hauthorityCount.symm.trans hauthorityCount'),
      ← Except.ok.inj (hadditionalCount.symm.trans hadditionalCount'), length_append]
    rfl
  rw [htotal] at hrecords
  exact ⟨_, hrecords⟩

end

/-! ### Replies -/

/-- The record is one of those read in a datagram. -/
def FromResponse (record : RuntimeRecord) : Prop :=
  ∃ datagram interface records, parseResponseRecords datagram interface = .ok records ∧
    record ∈ records

def replyRecords (question : MdnsQuestion) (answers additionals : List RuntimeRecord) :
    List RuntimeRecord :=
  matchingRecords question answers ++ additionals

/-- The octets of a reply are not more than a message can have. -/
def FitsMessage (question : MdnsQuestion) (records : List RuntimeRecord) : Prop :=
  dnsHeaderLen + question.raw.length + (recordsBytes records).length ≤ 65535
  deriving Decidable

/-- **The records of a response have their names written out**, wherever the decoder of unicast
packets lets them be compressed. -/
theorem received_of_fromResponse (h : FromResponse record) : Received record := by
  obtain ⟨datagram, interface, records, hparse, hmem⟩ := h
  unfold parseResponseRecords at hparse
  split_ifs at hparse
  obtain ⟨questions, -, hparse⟩ := of_bind hparse
  obtain ⟨answers, -, hparse⟩ := of_bind hparse
  obtain ⟨authorities, -, hparse⟩ := of_bind hparse
  obtain ⟨additionals, -, hparse⟩ := of_bind hparse
  obtain ⟨offset, -, hparse⟩ := of_bind hparse
  obtain ⟨⟨records, stop⟩, hrecords, hparse⟩ := of_bind hparse
  dsimp only at hparse
  split_ifs at hparse
  cases hparse
  exact Translation.parseRecordsFrom_received hrecords record hmem

theorem received_replyRecords (h : ∀ record ∈ answers ++ additionals, FromResponse record) :
    ∀ record ∈ replyRecords question answers additionals, Received record := by
  intro record hmem
  refine received_of_fromResponse (h record ?_)
  rcases mem_append.mp hmem with hanswer | hadditional
  · exact mem_append_left _ (mem_of_mem_filter (mem_sortedSet.mp hanswer))
  · exact mem_append_right _ hadditional

/-- **A translated reply is a response to the query if each of its records is one by itself and the
reply is not cut**, and only then. That the name of the question is not read through the header is
left out where the reply is known to be a response. -/
theorem translatedReply_iff {query : Bytes} {question : MdnsQuestion}
    {answers additionals : List RuntimeRecord} {reply : Bytes}
    (hvalid : validate query false = .ok ())
    (hquestion : Translation.parseQuestion query = .ok question)
    (hrecords : ∀ record ∈ answers ++ additionals, FromResponse record)
    (h : buildStubResponse question answers additionals = .ok reply) :
    (validate reply true = .ok () ∧ responseMatches query reply = .ok () →
      (∀ record ∈ replyRecords question answers additionals, Accepted record) ∧
        FitsMessage question (replyRecords question answers additionals)) ∧
    (QuestionKept query →
      (∀ record ∈ replyRecords question answers additionals, Accepted record) →
      FitsMessage question (replyRecords question answers additionals) →
      validate reply true = .ok () ∧ responseMatches query reply = .ok ()) := by
  obtain ⟨header, asked, nameEnd, hquery⟩ := queryAt_of_validate hvalid
  have hasked := parseQuestion_askedAs hquery hquestion
  have hreceived : ∀ record ∈ matchingRecords question answers ++ additionals, Received record :=
    received_replyRecords hrecords
  obtain ⟨⟨hanswers, hadditionals⟩, hshort, flags, n, rfl, hflags, hlength⟩ :=
    buildStubResponse_built h
  obtain ⟨hflagsLt, hqr, hopcode⟩ := stubFlags_isReply hflags
  obtain ⟨hstart, -⟩ := hquery.bounds
  have hname := readName_le hquery.asks.name
  have hraw := length_raw hquery hasked
  have hwritten := length_written question flags (matchingRecords question answers) additionals
  have hn : nameEnd + 4 ≤ n := by
    unfold dnsHeaderLen at hname
    omega
  have hdrop := drop_written hquery hasked flags (matchingRecords question answers) additionals
  have hkeeps := keepsQuestion_written hquery hasked flags (matchingRecords question answers)
    additionals hn
  set message := written question flags (matchingRecords question answers) additionals
  refine ⟨fun ⟨hreply, _⟩ => ?_, fun hkept haccepted hfits => ?_⟩
  · obtain ⟨reads, hreads⟩ :=
      parseRecords_of_validate hquery hasked hn hflagsLt hanswers hadditionals hreply
    -- what is read reaches the end of what was written, so nothing was cut
    have hstop := stop_of_take hreceived hshort hdrop hreads
    rw [length_take] at hstop
    have hwhole : n = message.length := by omega
    rw [hwhole, take_length] at hreads
    refine ⟨(parseRecords_accepted_iff hreceived hshort hdrop).mp ⟨_, hreads⟩, ?_⟩
    unfold FitsMessage replyRecords dnsHeaderLen
    omega
  · unfold FitsMessage replyRecords dnsHeaderLen at hfits
    obtain ⟨hflagsRead, -, hanswerCount, hauthorityCount, hadditionalCount⟩ :=
      header_written (show 12 ≤ n by omega) hflagsLt hanswers hadditionals
    have hwhole : n = message.length := by omega
    obtain ⟨⟨reads, stop⟩, hreads⟩ :=
      (parseRecords_accepted_iff hreceived hshort hdrop).mpr haccepted
    have hfull := take_length (l := message)
    rw [hwhole, hfull] at hkeeps hflagsRead hanswerCount hauthorityCount hadditionalCount ⊢
    have hstop : stop = message.length := by
      rw [← hfull] at hreads
      have := stop_of_take hreceived hshort hdrop hreads
      omega
    rw [hstop, length_append, ← Nat.add_zero (matchingRecords _ _).length] at hreads
    have hmatches := hkeeps.responseMatches hquery hkept hflagsRead hqr hopcode hanswerCount
      hauthorityCount hadditionalCount hreads
    obtain ⟨_, -, hrest⟩ := of_bind hmatches
    obtain ⟨_, hreply, -⟩ := of_bind hrest
    exact ⟨hreply, hmatches⟩

def addressQuery : Bytes := [0, 7, 1, 0, 0, 1, 0, 0, 0, 0, 0, 0, 1, 97, 0, 0, 1, 0, 1]

def addressQuestion : MdnsQuestion :=
  ⟨7, 0x100, [1, 97, 0], ['a', '.'], 1, 1, [1, 97, 0, 0, 1, 0, 1]⟩

/-- A response that gives `a` an address of these octets. -/
def addressDatagram (address : Bytes) : Bytes :=
  [0, 0, 0x84, 0, 0, 0, 0, 1, 0, 0, 0, 0, 1, 97, 0, 0, 1, 0x80, 1, 0, 0, 0, 120] ++
    u16ToBeBytes address.length ++ address

def addressRecord (address : Bytes) : RuntimeRecord :=
  ⟨[1, 97, 0], 1, 1, 120, true, address, none, ⟨2, .ipv4⟩⟩

/-- The reply with a record for each of the addresses. -/
def addressReply (addresses : List Bytes) : Bytes :=
  [0, 7, 0x85, 0x80, 0, 1] ++ u16ToBeBytes addresses.length ++
    [0, 0, 0, 0, 1, 97, 0, 0, 1, 0, 1] ++ addresses.flatMap fun address =>
      [1, 97, 0, 0, 1, 0, 1, 0, 0, 0, 120] ++ u16ToBeBytes address.length ++ address

def twoAddresses : List Bytes := [[192, 0, 2, 1], [192, 0, 2, 2]]

theorem addressRecord_fromResponse :
    ∀ record ∈ twoAddresses.map addressRecord, FromResponse record := by
  intro record hrecord
  obtain ⟨address, haddress, rfl⟩ := mem_map.mp hrecord
  have hread : ∀ address ∈ twoAddresses,
      parseResponseRecords (addressDatagram address) ⟨2, .ipv4⟩ = .ok [addressRecord address] := by
    decide +kernel
  exact ⟨addressDatagram address, _, _, hread address haddress, mem_singleton_self _⟩

theorem addresses_translated : validate (addressReply twoAddresses) true = .ok () ∧
    responseMatches addressQuery (addressReply twoAddresses) = .ok () := by
  have hbuilt : buildStubResponse addressQuestion (twoAddresses.map addressRecord) [] =
      .ok (addressReply twoAddresses) := by decide
  have hreply : replyRecords addressQuestion (twoAddresses.map addressRecord) [] =
      twoAddresses.map addressRecord := by decide
  have haccepted : ∀ address ∈ twoAddresses, Accepted (addressRecord address) := by
    intro address haddress
    refine ⟨⟨DnsName.ofLabels [[97]], 1, 1, 120, 7, 13, address, 17⟩, ?_⟩
    revert address
    decide +kernel
  refine (translatedReply_iff (by decide) (by decide)
    (by rw [append_nil]; exact addressRecord_fromResponse) hbuilt).2
    (by decide) (fun record hrecord => ?_) (by decide)
  rw [hreply] at hrecord
  obtain ⟨address, haddress, rfl⟩ := mem_map.mp hrecord
  exact haccepted address haddress

/-- An address of three octets is passed on, in a reply that is no packet. -/
theorem short_address_translated : validate addressQuery false = .ok () ∧
    Translation.parseQuestion addressQuery = .ok addressQuestion ∧
    parseResponseRecords (addressDatagram [192, 0, 2]) ⟨2, .ipv4⟩ =
      .ok [addressRecord [192, 0, 2]] ∧
    buildStubResponse addressQuestion [addressRecord [192, 0, 2]] [] =
      .ok (addressReply [[192, 0, 2]]) ∧
    ¬ (validate (addressReply [[192, 0, 2]]) true = .ok () ∧
      responseMatches addressQuery (addressReply [[192, 0, 2]]) = .ok ()) := by
  decide +kernel

end RustdResolved.Mdns.TranslatedReplies
