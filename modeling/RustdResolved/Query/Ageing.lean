import Mathlib.Data.Nat.Bitwise
import RustdResolved.Dnssec.CanonicalMoved
import RustdResolved.Query.Store
import RustdResolved.Wire.Overwrite
import RustdResolved.Wire.RelocatePacket

/-! # The ageing of a packet

`ageTtls` overwrites the TTLs of a packet in place. The other octets stay, so the packet reads the
same apart from the TTLs, unless one of its names is read through a TTL: a compression pointer may
lead anywhere before it, and so into the TTL of a record before it. -/

namespace RustdResolved.Query.Ageing

open List Lib.Result Wire Octets PacketHeader Record Packet Overwrite RelocatePacket Dnssec
open Canonical CanonicalMoved Store

variable {id elapsedSeconds rrType ttl : Nat} {packet packet1 packet2 : Bytes}
  {records : List ResourceRecord} {stale : Bool}

/-! ### The octets of an aged packet -/

/-- The offset of an octet of the TTL of a record. -/
def InTtl (record : ResourceRecord) (i : Nat) : Prop :=
  record.ttlOffset ≤ i ∧ i < record.ttlOffset + 4
  deriving Decidable

/-- The TTL of a record after a time, or when it is served stale. -/
def agedTtl (elapsedSeconds : Nat) (stale : Bool) (record : ResourceRecord) : Nat :=
  if record.rrType = typeOpt then record.ttl else if stale then 0 else record.ttl - elapsedSeconds

structure TtlsWritten (elapsedSeconds : Nat) (stale : Bool) (records : List ResourceRecord)
    (packet packet' : Bytes) : Prop where
  length : packet'.length = packet.length
  outside : ∀ i, (∀ record ∈ records, record.rrType ≠ typeOpt → ¬ InTtl record i) →
    packet'[i]? = packet[i]?
  inside : ∀ record ∈ records, record.rrType ≠ typeOpt → ∀ k < 4,
    packet'[record.ttlOffset + k]? = (u32ToBeBytes (agedTtl elapsedSeconds stale record))[k]?

theorem writeTtls_ok
    (hapart : records.Pairwise (fun first second => first.ttlOffset + 4 ≤ second.ttlOffset))
    (hfits : ∀ record ∈ records, record.ttlOffset + 4 ≤ packet.length) :
    ∃ packet', writeTtls elapsedSeconds stale records packet = .ok packet' ∧
      TtlsWritten elapsedSeconds stale records packet packet' := by
  induction records generalizing packet with
  | nil => exact ⟨packet, rfl, rfl, fun _ _ => rfl, by simp⟩
  | cons record rest ih =>
    rw [pairwise_cons] at hapart
    rw [forall_mem_cons] at hfits
    by_cases hopt : record.rrType = typeOpt
    · obtain ⟨packet', hwritten, hlength, houtside, hinside⟩ := ih hapart.2 hfits.2
      refine ⟨packet', ?_, hlength, fun i hi => houtside i fun other hother =>
        hi other (by simp [hother]), ?_⟩
      · rw [writeTtls, if_pos hopt]
        exact hwritten
      · simp only [mem_cons, forall_eq_or_imp]
        exact ⟨fun h => absurd hopt h, hinside⟩
    · -- the first TTL is written, and then the others, which are not where it is
      have haged : agedTtl elapsedSeconds stale record =
          if stale then 0 else record.ttl - elapsedSeconds := if_neg hopt
      obtain ⟨first, hfirst⟩ : ∃ first, writeU32 packet record.ttlOffset
          (agedTtl elapsedSeconds stale record) = .ok first :=
        ⟨_, writeAt_eq_ok.mpr ⟨hfits.1, rfl⟩⟩
      have hsame := length_writeAt hfirst
      have hrest : ∀ other ∈ rest, other.ttlOffset + 4 ≤ first.length := by
        rw [hsame]
        exact hfits.2
      obtain ⟨packet', hwritten, hlength, houtside, hinside⟩ := ih hapart.2 hrest
      refine ⟨packet', ?_, hlength.trans hsame, fun i hi => ?_, ?_⟩
      · rw [writeTtls, if_neg hopt, ← haged]
        simp only [ok_bind, hfirst]
        exact hwritten
      · have hown := hi record mem_cons_self hopt
        unfold InTtl at hown
        rw [houtside i fun other hother => hi other (mem_cons_of_mem _ hother),
          getElem?_writeAt_of_out hfirst (by rw [length_u32ToBeBytes]; omega)]
      · simp only [mem_cons, forall_eq_or_imp]
        refine ⟨fun _ k hk => ?_, hinside⟩
        rw [houtside, getElem?_writeAt hfirst, if_pos (by rw [length_u32ToBeBytes]; omega),
          Nat.add_sub_cancel_left]
        intro other hother _ hin
        have := hapart.1 other hother
        unfold InTtl at hin
        omega

/-- The octets of an aged packet are determined by the records and their TTLs. -/
theorem TtlsWritten.unique (h1 : TtlsWritten elapsedSeconds stale records packet packet1)
    (h2 : TtlsWritten elapsedSeconds stale records packet packet2) : packet1 = packet2 := by
  apply ext_getElem?
  intro i
  by_cases hin : ∃ record ∈ records, record.rrType ≠ typeOpt ∧ InTtl record i
  · obtain ⟨record, hrecord, hopt, hle, hlt⟩ := hin
    have e1 := h1.inside record hrecord hopt (i - record.ttlOffset) (by omega)
    have e2 := h2.inside record hrecord hopt (i - record.ttlOffset) (by omega)
    rw [Nat.add_sub_cancel' hle] at e1 e2
    rw [e1, e2]
  · have hout : ∀ record ∈ records, record.rrType ≠ typeOpt → ¬ InTtl record i :=
      fun record hrecord hopt hi => hin ⟨record, hrecord, hopt, hi⟩
    rw [h1.outside i hout, h2.outside i hout]

def agedRecord (elapsedSeconds : Nat) (stale : Bool) (record : ResourceRecord) : ResourceRecord :=
  { record with ttl := agedTtl elapsedSeconds stale record }

/-- Ageing twice writes what ageing once by the whole time writes. -/
theorem TtlsWritten.trans {elapsed elapsed' : Nat} {stale' : Bool}
    (h1 : TtlsWritten elapsed stale records packet packet1)
    (h2 : TtlsWritten elapsed' stale' (records.map (agedRecord elapsed stale)) packet1 packet2) :
    TtlsWritten (elapsed + elapsed') (stale || stale') records packet packet2 where
  length := h2.length.trans h1.length
  outside i hout := by
    rw [h2.outside i, h1.outside i hout]
    intro aged haged hopt
    obtain ⟨record, hrecord, rfl⟩ := mem_map.mp haged
    exact hout record hrecord hopt
  inside record hrecord hopt k hk := by
    have htwice : agedTtl elapsed' stale' (agedRecord elapsed stale record) =
        agedTtl (elapsed + elapsed') (stale || stale') record := by
      simp only [agedTtl, agedRecord, if_neg hopt]
      cases stale <;> cases stale' <;> simp [Nat.sub_sub]
    rw [← htwice]
    exact h2.inside (agedRecord elapsed stale record) (mem_map_of_mem hrecord) hopt k hk

/-! ### What an aged packet holds -/

/-- No name of a packet is read through a TTL that ageing overwrites. -/
def TtlsUnread (packet : Bytes) (records : List ResourceRecord) : Prop :=
  ∀ i ∈ followedOctets packet, ∀ record ∈ records, record.rrType ≠ typeOpt → ¬ InTtl record i
  deriving Decidable

/-- What a packet holds, with the TTLs aged. -/
def agedSections (elapsedSeconds : Nat) (stale : Bool) (sections : Sections) : Sections :=
  { sections with records := sections.records.map (agedRecord elapsedSeconds stale) }

theorem recordTtl_of_lt (h : ttl < 2 ^ 31) : recordTtl rrType ttl = ttl := by
  have hbit : ttl &&& 0x80000000 = 0 := by
    rw [show (0x80000000 : Nat) = 2 ^ 31 from rfl, Nat.and_two_pow, Nat.testBit_lt_two_pow h]
    rfl
  simp [recordTtl, hbit]

theorem recordTtl_lt (hopt : rrType ≠ typeOpt) (h : ttl < 2 ^ 32) :
    recordTtl rrType ttl < 2 ^ 31 := by
  unfold recordTtl
  split_ifs with hbit
  · decide
  · rw [not_and, not_not] at hbit
    have hbit := hbit hopt
    rw [show (0x80000000 : Nat) = 2 ^ 31 from rfl, Nat.and_two_pow] at hbit
    by_contra hge
    have htest : ttl.testBit 31 = true := by
      rw [Nat.testBit_eq_decide_div_mod_eq, decide_eq_true_eq]
      omega
    rw [htest] at hbit
    exact absurd hbit (by decide)

/-- The TTLs of different records have no octet in common. -/
theorem ttlOffsets_apart {count start stop : Nat}
    (h : parseRecords packet count start = .ok (records, stop)) {first second : ResourceRecord}
    (hfirst : first ∈ records) (hsecond : second ∈ records) (hne : second ≠ first) :
    first.ttlOffset + 4 ≤ second.ttlOffset ∨ second.ttlOffset + 4 ≤ first.ttlOffset := by
  let apart (a b : ResourceRecord) : Prop :=
    a.ttlOffset + 4 ≤ b.ttlOffset ∨ b.ttlOffset + 4 ≤ a.ttlOffset
  have : Std.Symm apart := ⟨fun _ _ => Or.symm⟩
  have happart : records.Pairwise apart := (parseRecords_apart h).imp Or.inl
  exact happart.forall hfirst hsecond (Ne.symm hne)

section

variable {packet1 packet' : Bytes} {sections : Sections} {elapsedSeconds : Nat}

theorem writeTtls_of_parse (h : parseSections packet = .ok sections)
    (hlength : packet1.length = packet.length) :
    ∃ packet', writeTtls elapsedSeconds stale sections.records packet1 = .ok packet' ∧
      TtlsWritten elapsedSeconds stale sections.records packet1 packet' := by
  obtain ⟨-, offset, -, hrecords⟩ := parseSections_eq_ok.mp h
  refine writeTtls_ok (parseRecords_apart hrecords) fun record hrecord => ?_
  obtain ⟨_, nameEnd, rawTtl, hat⟩ := parseRecords_recordAt hrecords record hrecord
  rw [hat.ttlOffset, hlength]
  exact (readU32_lt hat.ttlField).2

theorem headerParse_renamed {header : Header} (h : Header.parse packet = .ok header)
    (hlength : packet'.length = packet.length)
    (hrest : ∀ i, 2 ≤ i → i < 12 → packet'[i]? = packet[i]?) (hid : readU16 packet' 0 = .ok id) :
    Header.parse packet' = .ok { header with id := id } := by
  obtain ⟨hlong, -, hflags, hcount, hanswers, hauthorities, hadditionals⟩ := headerParse_eq_ok.mp h
  have hread : ∀ offset, 2 ≤ offset → offset + 1 < 12 →
      readU16 packet' offset = readU16 packet offset :=
    fun offset h2 h12 => readU16_of_agree (hrest _ h2 (by omega)) (hrest _ (by omega) h12)
  exact headerParse_eq_ok.mpr ⟨by omega, hid, (hread 2 (by omega) (by omega)).trans hflags,
    (hread 4 (by omega) (by omega)).trans hcount, (hread 6 (by omega) (by omega)).trans hanswers,
    (hread 8 (by omega) (by omega)).trans hauthorities,
    (hread 10 (by omega) (by omega)).trans hadditionals⟩

/-- **A packet with an other identifier and aged TTLs** reads the same apart from those, if no name
is read through them. -/
theorem parseSections_aged (h : parseSections packet = .ok sections)
    (hwritten : TtlsWritten elapsedSeconds stale sections.records packet1 packet')
    (hlength : packet1.length = packet.length) (hrest : ∀ i, 2 ≤ i → packet1[i]? = packet[i]?)
    (hid : readU16 packet1 0 = .ok id)
    (hfollowed : ∀ i ∈ followedOctets packet, packet1[i]? = packet[i]?)
    (hunread : TtlsUnread packet sections.records) :
    parseSections packet' = .ok { agedSections elapsedSeconds stale sections with
        header := { sections.header with id := id } } ∧
      SameButTtls packet packet' (agedTtl elapsedSeconds stale) sections.records
        (agedSections elapsedSeconds stale sections).records := by
  obtain ⟨hheader, offset, hquestions, hrecords⟩ := parseSections_eq_ok.mp h
  have hlong := (headerParse_eq_ok.mp hheader).1
  have hstart := (parseQuestions_le hquestions).1
  obtain ⟨-, hfits, hwithin⟩ := parseRecords_within hrecords
  have hstop := hfits ((parseQuestions_le hquestions).2 hlong)
  -- the TTLs stand after the header
  have hhead : ∀ i < 12, packet'[i]? = packet1[i]? := by
    intro i hi
    refine hwritten.outside i fun record hrecord _ hin => ?_
    have := (hwithin record hrecord).ttlOffset
    unfold InTtl at hin
    unfold dnsHeaderLen at hstart
    omega
  have hheader' := headerParse_renamed hheader (hwritten.length.trans hlength) (fun i h2 h12 =>
    (hhead i h12).trans (hrest i h2)) ((readU16_of_agree (hhead 0 (by omega)) (hhead 1 (by
    omega))).trans hid)
  -- the TTL that is read is the aged one, or for an OPT record the one that was there
  have hraw : ∀ record ∈ sections.records,
      readU32 packet' record.ttlOffset = .ok (agedTtl elapsedSeconds stale record) ∧
        recordTtl record.rrType (agedTtl elapsedSeconds stale record) =
          agedTtl elapsedSeconds stale record := by
    intro record hrecord
    obtain ⟨_, nameEnd, rawTtl, hat⟩ := parseRecords_recordAt hrecords record hrecord
    have hrawlt := (readU32_lt hat.ttlField).1
    by_cases hopt : record.rrType = typeOpt
    · have httl : record.ttl = rawTtl := by
        rw [hat.ttl, recordTtl, if_neg fun h => h.1 hopt]
      have haged : agedTtl elapsedSeconds stale record = rawTtl := by
        rw [agedTtl, if_pos hopt, httl]
      have houtside : ∀ i, record.ttlOffset ≤ i → i < record.ttlOffset + 4 →
          packet'[i]? = packet[i]? := by
        intro i hle hlt
        have := (hwithin record hrecord).ttlOffset
        rw [hwritten.outside i fun other hother hnot hin => ?_, hrest i ?_]
        · unfold dnsHeaderLen at hstart
          omega
        · have := ttlOffsets_apart hrecords hrecord hother fun h => hnot (h ▸ hopt)
          unfold InTtl at hin
          omega
      rw [haged, readU32_of_agree houtside, hat.ttlOffset]
      exact ⟨hat.ttlField, by rw [recordTtl, if_neg fun h => h.1 hopt]⟩
    · have hlt : agedTtl elapsedSeconds stale record < 2 ^ 31 := by
        have := recordTtl_lt hopt hrawlt
        rw [← hat.ttl] at this
        unfold agedTtl
        rw [if_neg hopt]
        split_ifs <;> omega
      refine ⟨?_, recordTtl_of_lt hlt⟩
      rw [readU32_of_octets (hwritten.inside record hrecord hopt), Nat.mod_eq_of_lt (by omega)]
  have hkeep : ∀ i, dnsHeaderLen ≤ i → i < sections.stop →
      (∀ record ∈ sections.records, ¬ (record.ttlOffset ≤ i ∧ i < record.ttlOffset + 4)) →
      packet'[i]? = packet[i]? := by
    intro i h12 _ hout
    rw [hwritten.outside i fun record hrecord _ => hout record hrecord]
    unfold dnsHeaderLen at h12
    exact hrest i (by omega)
  have hfollowed' : ∀ i ∈ followedOctets packet, packet'[i]? = packet[i]? := by
    intro i hi
    rw [hwritten.outside i fun record hrecord => hunread i hi record hrecord]
    exact hfollowed i hi
  obtain ⟨hparse, hsame⟩ :=
    parseSections_kept h hheader' rfl rfl (by rw [hwritten.length, hlength]; exact hstop) hkeep
    (fun record hrecord => (hraw record hrecord).1) hfollowed'
  have hrecords' : (sections.records.map fun record => { record with
      ttl := recordTtl record.rrType (agedTtl elapsedSeconds stale record) }) =
      sections.records.map (agedRecord elapsedSeconds stale) :=
    map_congr_left fun record hrecord => by rw [(hraw record hrecord).2, agedRecord]
  rw [hrecords'] at hparse
  refine ⟨hparse, ?_⟩
  unfold SameButTtls agedSections
  rw [forall₂_map_right_iff, forall₂_same]
  intro record hrecord
  obtain ⟨_, nameEnd, rawTtl, hat⟩ := parseRecords_recordAt hrecords record hrecord
  have hdata := hsame record hrecord
  rw [(hraw record hrecord).2] at hdata
  exact ⟨⟨rfl, rfl, rfl, rfl, fun data hcanonical =>
    canonicalRdata_moved hdata hat.valid hcanonical⟩, rfl⟩

/-- **An aged packet** reads the same apart from the TTLs, if no name is read through them. -/
theorem ageTtls_ok (h : parseSections packet = .ok sections)
    (hunread : TtlsUnread packet sections.records) :
    ∃ aged, ageTtls packet elapsedSeconds stale = .ok aged ∧
      TtlsWritten elapsedSeconds stale sections.records packet aged ∧
      parseSections aged = .ok (agedSections elapsedSeconds stale sections) ∧
      SameButTtls packet aged (agedTtl elapsedSeconds stale) sections.records
        (agedSections elapsedSeconds stale sections).records := by
  obtain ⟨aged, hwrite, hwritten⟩ := writeTtls_of_parse h rfl
  obtain ⟨hheader, -⟩ := parseSections_eq_ok.mp h
  have haged :=
    parseSections_aged h hwritten rfl (fun _ _ => rfl) (headerParse_eq_ok.mp hheader).2.1
    (fun _ _ => rfl) hunread
  exact ⟨aged, bind_eq_ok.mpr ⟨sections, h, hwrite⟩, hwritten, haged⟩

/-- **A stored response as it is served** reads the same apart from its identifier and its TTLs, if
no name is read through those. -/
theorem serve_ok {τ : Type} {entry : CacheEntry τ} (h : parseSections entry.answer = .ok sections)
    (hunread : TtlsUnread entry.answer sections.records)
    (hid : ∀ i ∈ followedOctets entry.answer, 2 ≤ i) (hlt : id < 65536) (now : Nat) :
    ∃ hit elapsedSeconds stale, entry.serve id now = some hit ∧
      parseSections hit.packet = .ok { agedSections elapsedSeconds stale sections with
        header := { sections.header with id := id } } ∧
      SameButTtls entry.answer hit.packet (agedTtl elapsedSeconds stale) sections.records
        (agedSections elapsedSeconds stale sections).records := by
  obtain ⟨hheader, offset, hquestions, hrecords⟩ := parseSections_eq_ok.mp h
  have hlong := (headerParse_eq_ok.mp hheader).1
  obtain ⟨renamed, hrename, hlength⟩ : ∃ renamed, rewriteId entry.answer id = .ok renamed ∧
      renamed.length = entry.answer.length := exists_writeAt (by simp; omega)
  have hrest : ∀ i, 2 ≤ i → renamed[i]? = entry.answer[i]? := fun i hi =>
    getElem?_writeAt_of_out hrename (Or.inr hi)
  have hid' : readU16 renamed 0 = .ok id := by
    rw [readU16_writeU16 hrename, Nat.mod_eq_of_lt hlt]
  have hheader' := headerParse_renamed hheader hlength (fun i h2 _ => hrest i h2) hid'
  have hfollowed : ∀ i ∈ followedOctets entry.answer, renamed[i]? = entry.answer[i]? :=
    fun i hi => hrest i (hid i hi)
  have hmem := fun i => mem_followedOctets (i := i) hheader hquestions
  obtain ⟨hstart, hfits⟩ := parseQuestions_le hquestions
  unfold dnsHeaderLen at hstart
  have hquestions' := parseQuestions_kept hquestions
    (fun i h1 _ => hrest i (by unfold dnsHeaderLen at h1; omega))
    fun name hname i hi => hfollowed i ((hmem i).mpr (Or.inl ⟨name, hname, hi⟩))
  obtain ⟨hrecords', -⟩ := parseRecords_kept hrecords (hfits hlong) (hlength ▸ hfits hlong)
    (fun i h1 _ => hrest i (by omega))
    fun name hname i hi => hfollowed i ((hmem i).mpr (Or.inr ⟨name, hname, hi⟩))
  have hparse : parseSections renamed =
      .ok { sections with header := { sections.header with id := id } } :=
    parseSections_eq_ok.mpr ⟨hheader', offset, hquestions', hrecords'⟩
  -- the records have the offsets they had in the stored response, so the same octets are written
  let elapsed := min ((now - entry.inserted) / nanosPerSecond) 0xffffffff
  let stale := decide (entry.expiresAt ≤ now)
  obtain ⟨packet', hwrite, hwritten⟩ := writeTtls_of_parse h hlength
  refine ⟨⟨packet', entry.sourceIfindex, entry.tag⟩, elapsed, stale, ?_,
    parseSections_aged h hwritten hlength hrest hid' hfollowed hunread⟩
  simp only [CacheEntry.serve, ok_bind, hrename, ageTtls, hparse]
  rw [hwrite]

end

/-! ### Ageing changes TTLs only -/

/-- What ageing keeps, of a packet that can be read and none of whose names is read through a TTL.

* The aged packet can be read, to the same header and questions and to the same records in the same
  order, apart from the TTLs, which are what is left of them.
* Ageing by one time and then by another is ageing by both together.
* A hit of the cache on the packet, which no name reads its identifier through either, is the packet
  up to the identifier and the TTLs. -/
theorem ageing_changes_ttls_only {packet : Bytes} {sections : Sections}
    (h : parseSections packet = .ok sections) (hunread : TtlsUnread packet sections.records) :
    (∀ elapsedSeconds stale, ∃ aged, ageTtls packet elapsedSeconds stale = .ok aged ∧
      ∃ records', parseSections aged = .ok { sections with records := records' } ∧
        SameButTtls packet aged (agedTtl elapsedSeconds stale) sections.records records') ∧
    (∀ elapsed elapsed' stale stale' aged, ageTtls packet elapsed stale = .ok aged →
      ageTtls aged elapsed' stale' = ageTtls packet (elapsed + elapsed') (stale || stale')) ∧
    ((∀ i ∈ followedOctets packet, 2 ≤ i) →
      ∀ {τ : Type} (cache : Cache τ) (key : CacheKey) (entry : CacheEntry τ) (id now : Nat)
        (allowStale : Bool), entry.answer = packet → id < 65536 →
        cache.global.lookup key now = .fresh entry ∨
          cache.global.lookup key now = .stale entry ∧ allowStale = true →
        ∃ hit, cache.getScoped key id allowStale now = some hit ∧
          ∃ elapsedSeconds stale records', parseSections hit.packet = .ok
              { sections with header := { sections.header with id := id }, records := records' } ∧
            SameButTtls packet hit.packet (agedTtl elapsedSeconds stale) sections.records
              records') := by
  refine ⟨fun elapsedSeconds stale => ?_, fun elapsed elapsed' stale stale' aged haged => ?_, ?_⟩
  · obtain ⟨aged, haged, -, hparse, hsame⟩ := ageTtls_ok h hunread
    exact ⟨aged, haged, _, hparse, hsame⟩
  · obtain ⟨_, hfirst, hwritten, hparse, -⟩ := ageTtls_ok h hunread
    obtain rfl := Except.ok.inj (hfirst.symm.trans haged)
    obtain ⟨both, hboth, hboth', -⟩ := ageTtls_ok h hunread
    obtain ⟨second, hwrite, hsecond⟩ := writeTtls_of_parse hparse rfl
    rw [hboth, TtlsWritten.unique hboth' (hwritten.trans hsecond)]
    exact bind_eq_ok.mpr ⟨_, hparse, hwrite⟩
  · rintro hid τ cache key entry id now allowStale rfl hlt hlookup
    obtain ⟨hit, elapsedSeconds, stale, hserve, hparse, hsame⟩ := serve_ok h hunread hid hlt now
    refine ⟨hit, ?_, elapsedSeconds, stale, _, hparse, hsame⟩
    rcases hlookup with hfresh | ⟨hstale, rfl⟩
    · simp only [Cache.getScoped, hfresh, hserve]
    · simp [Cache.getScoped, hstale, hserve]

/-- A response with one address, whose owner is a pointer to the name of the question. -/
def oneAddress : Bytes :=
  [0, 0, 0x81, 0x80, 0, 1, 0, 1, 0, 0, 0, 0, 1, 113, 0, 0, 1, 0, 1,
    0xc0, 12, 0, 1, 0, 1, 0, 0, 1, 44, 0, 4, 192, 0, 2, 1]

def oneAddressSections : Sections :=
  ⟨⟨0, 0x8180, 1, 1, 0, 0⟩, [⟨⟨['q'], [1, 113, 0]⟩, 1, 1, 19⟩],
    [⟨⟨['q'], [1, 113, 0]⟩, 1, 1, 300, 25, 31, [192, 0, 2, 1], 35⟩], 35⟩

theorem ageing_one_address :
    parseSections oneAddress = .ok oneAddressSections ∧
      TtlsUnread oneAddress oneAddressSections.records ∧
      ∀ elapsed elapsed' stale stale' aged, ageTtls oneAddress elapsed stale = .ok aged →
        ageTtls aged elapsed' stale' = ageTtls oneAddress (elapsed + elapsed')
          (stale || stale') := by
  have hparse : parseSections oneAddress = .ok oneAddressSections := by decide +kernel
  have hunread : TtlsUnread oneAddress oneAddressSections.records := by decide
  exact ⟨hparse, hunread, (ageing_changes_ttls_only hparse hunread).2.1⟩

/-- A response with two addresses. The owner of the second one is a pointer into the TTL of the
first one, whose octets are a label of one octet and the end of a name. -/
def nameInTtl : Bytes :=
  [0, 0, 0x81, 0x80, 0, 1, 0, 2, 0, 0, 0, 0, 1, 113, 0, 0, 1, 0, 1,
    0xc0, 12, 0, 1, 0, 1, 1, 97, 0, 5, 0, 4, 192, 0, 2, 1,
    0xc0, 25, 0, 1, 0, 1, 0, 0, 1, 44, 0, 4, 192, 0, 2, 2]

def owners (packet : Bytes) : Except WireError (List Bytes) := do
  let sections ← parseSections packet
  .ok (sections.records.map (·.name.canonicalWire))

/-- After six seconds the packet can no longer be read; served stale its second owner is the
root. -/
theorem nameInTtl_aged :
    owners nameInTtl = .ok [[1, 113, 0], [1, 97, 0]] ∧
      (ageTtls nameInTtl 6 false).isOk = true ∧
      (ageTtls nameInTtl 6 false >>= parseSections) = .error .compressionLoop ∧
      (ageTtls nameInTtl 0 true >>= owners) = .ok [[1, 113, 0], [0]] := by
  decide

end RustdResolved.Query.Ageing
