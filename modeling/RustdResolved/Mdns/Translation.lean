import RustdResolved.Edns.Opt
import RustdResolved.Mdns.Cache
import RustdResolved.Mdns.Messages

/-! # Multicast answers for stub clients

`mdns_runtime.rs` asks the question of a client on the link, reads the responses of other hosts, and
builds a reply for the client from the records in them. It has its own reader of names, which also
gives the text of a name, and its own reader of records, which reads the names in more types of
data. -/

namespace RustdResolved.Mdns.Translation

open Lib Result Loop SortedSet Wire Octets Name Presentation PacketHeader Relocate
open Edns.Opt (fromUtf8Lossy)
open Mdns.Names (canonicalWireName canonicalWireName_eq_ok)
open Cache
open Mdns.Messages (dnsClassMask slice dnsHeader IsCanonical)

variable {interface : MdnsInterface} {next offset start stop value : Nat} {packet rdata : Bytes}

inductive MdnsRuntimeError
  | io (error : Names.IoError)
  | invalidQuery (message : Text)
  | invalidResponse (message : Text)
  deriving DecidableEq, Repr

def dnsClassCacheFlush : Nat := 0x8000

def typeMx : Nat := 15

/-! ### Names and numbers -/

/-- Where the reader of a name is, with the labels read so far. -/
structure NameCursor where
  output : Bytes
  labels : List Text
  cursor : Nat
  next : Option Nat
  visited : List Nat

def labelsText (labels : List Text) : Text :=
  if labels = [] then ['.'] else joinLabels labels ++ ['.']

section
variable (packet : Bytes)

/-- A round of `decodeName`: a pointer, a label or the end. -/
def decodeRound (state : NameCursor) :
    Except MdnsRuntimeError (LoopFlow (Bytes × Text × Nat) NameCursor) :=
  match packet[state.cursor]? with
  | none => .error (.invalidResponse "truncated DNS name".toList)
  | some length =>
    if length &&& 0xc0 = 0xc0 then
      match packet[state.cursor + 1]? with
      | none => .error (.invalidResponse "truncated DNS compression pointer".toList)
      | some second =>
        let target := (length &&& 0x3f).toNat * 256 + second.toNat
        if packet.length ≤ target ∨ target ∈ state.visited then
          .error (.invalidResponse "invalid DNS compression pointer".toList)
        else
          .ok (.again ⟨state.output, state.labels, target, state.next.or (some (state.cursor + 2)),
            target :: state.visited⟩)
    else if length &&& 0xc0 ≠ 0 ∨ 63 < length then
      .error (.invalidResponse "invalid DNS label".toList)
    else if length = 0 then
      match canonicalWireName (state.output ++ [length]) with
      | .ok output =>
        .ok (.done (output, labelsText state.labels, state.next.getD (state.cursor + 1)))
      | .error _ => .error (.invalidResponse "invalid DNS name".toList)
    else
      match getRange packet (state.cursor + 1) (state.cursor + 1 + length.toNat) with
      | none => .error (.invalidResponse "truncated DNS label".toList)
      | some label =>
        let output := state.output ++ length :: lowercase label
        if 255 ≤ output.length then .error (.invalidResponse "DNS name is too long".toList)
        else
          .ok (.again { state with
            output
            labels := state.labels ++ [fromUtf8Lossy label]
            cursor := state.cursor + 1 + length.toNat })

/-- The name at an offset, its text and the offset behind it. -/
def decodeName (start : Nat) : Except MdnsRuntimeError (Bytes × Text × Nat) :=
  loop (.invalidResponse "too many DNS compression pointers".toList) (decodeRound packet) 128
    ⟨[], [], start, none, []⟩

def readU16 (offset : Nat) : Except MdnsRuntimeError Nat :=
  match getRange packet offset (offset + 2) with
  | some [a, b] => .ok (u16FromBeBytes a b)
  | _ => .error (.invalidResponse "truncated DNS u16".toList)

def readU32 (offset : Nat) : Except MdnsRuntimeError Nat :=
  match getRange packet offset (offset + 4) with
  | some [a, b, c, d] => .ok (u32FromBeBytes a b c d)
  | _ => .error (.invalidResponse "truncated DNS u32".toList)

end

/-! ### The question of a client -/

structure MdnsQuestion where
  id : Nat
  flags : Nat
  owner : Bytes
  text : Text
  rrType : Nat
  cls : Nat
  raw : Bytes
  deriving DecidableEq, Repr

def parseQuestion (packet : Bytes) : Except MdnsRuntimeError MdnsQuestion :=
  if packet.length < dnsHeaderLen then .error (.invalidQuery "short DNS query".toList)
  else do
    let id ← readU16 packet 0
    let flags ← readU16 packet 2
    if flags &&& flagQr ≠ 0 ∨ flags &&& flagOpcode ≠ 0 then
      .error (.invalidQuery "invalid mDNS query flags".toList)
    else
      let count ← readU16 packet 4
      if count ≠ 1 then
        .error (.invalidQuery "mDNS translation requires exactly one question".toList)
      else
        let (owner, text, stop) ← decodeName packet dnsHeaderLen
        if packet.length < stop + 4 then .error (.invalidQuery "truncated DNS question".toList)
        else
          let rrType ← readU16 packet stop
          let cls ← readU16 packet (stop + 2)
          return ⟨id, flags, owner, text, rrType, cls, slice packet dnsHeaderLen (stop + 4)⟩

/-! ### The records of a response -/

structure RuntimeRecord where
  owner : Bytes
  rrType : Nat
  cls : Nat
  ttl : Nat
  cacheFlush : Bool
  rdata : Bytes
  presentationRdata : Option Text
  interface : MdnsInterface
  deriving DecidableEq, Repr

/-- The derived order of records goes through the fields. A text is ordered by its octets, and no
text comes before any. -/
def RuntimeRecord.sortKey (record : RuntimeRecord) :
    Bytes ×ₗ Nat ×ₗ Nat ×ₗ Nat ×ₗ Bool ×ₗ Bytes ×ₗ List Bytes ×ₗ Nat ×ₗ Nat :=
  toLex (record.owner, toLex (record.rrType, toLex (record.cls, toLex (record.ttl,
    toLex (record.cacheFlush,
      toLex (record.rdata, toLex (record.presentationRdata.toList.map asBytes,
        toLex (record.interface.ifindex, record.interface.family.index))))))))

section
variable (packet : Bytes)

def nameRdata (start stop : Nat) : Except MdnsRuntimeError Bytes := do
  let (name, _, consumed) ← decodeName packet start
  if consumed ≠ stop then .error (.invalidResponse "trailing name record data".toList) else .ok name

/-- A name after a number of octets, as MX and SRV data have it. -/
def prefixedRdata (start skip stop : Nat) (short trailing : Text) : Except MdnsRuntimeError Bytes :=
  if stop < start + skip then .error (.invalidResponse short)
  else do
    let (name, _, consumed) ← decodeName packet (start + skip)
    if consumed ≠ stop then .error (.invalidResponse trailing)
    else .ok (slice packet start (start + skip) ++ name)

/-- The two names and the numbers of SOA data. -/
def soaRdata (start stop : Nat) : Except MdnsRuntimeError Bytes := do
  let (mname, _, cursor) ← decodeName packet start
  let (rname, _, cursor) ← decodeName packet cursor
  if cursor + 20 ≠ stop then .error (.invalidResponse "invalid SOA data".toList)
  else .ok (mname ++ rname ++ slice packet cursor stop)

/-- The name and the types of NSEC data. -/
def nsecRdata (start stop : Nat) : Except MdnsRuntimeError Bytes := do
  let (next, _, cursor) ← decodeName packet start
  if stop < cursor then .error (.invalidResponse "invalid NSEC data".toList)
  else .ok (next ++ slice packet cursor stop)

/-- The data of a record, with the names in it read. -/
def expandRdata (rrType start stop : Nat) : Except MdnsRuntimeError Bytes :=
  if rrType = typeNs ∨ rrType = typeCname ∨ rrType = typePtr ∨ rrType = typeDname then
    nameRdata packet start stop
  else if rrType = typeMx then
    prefixedRdata packet start 2 stop "short MX record".toList "trailing MX data".toList
  else if rrType = typeSrv then
    prefixedRdata packet start 6 stop "short SRV record".toList "trailing SRV data".toList
  else if rrType = typeSoa then soaRdata packet start stop
  else if rrType = typeNsec then nsecRdata packet start stop
  else .ok (slice packet start stop)

/-- The text of the name in pointer data. -/
def presentationOf (rrType start stop : Nat) : Except MdnsRuntimeError (Option Text) :=
  if rrType = typePtr then do
    let (_, text, consumed) ← decodeName packet start
    if consumed ≠ stop then .error (.invalidResponse "trailing name record data".toList)
    else .ok (some text)
  else .ok none

section
variable (interface : MdnsInterface)

def parseResponseRecord (start : Nat) : Except MdnsRuntimeError (RuntimeRecord × Nat) := do
  let (owner, _, stop) ← decodeName packet start
  if packet.length < stop + 10 then
    .error (.invalidResponse "truncated mDNS record header".toList)
  else
    let rrType ← readU16 packet stop
    let rawClass ← readU16 packet (stop + 2)
    let ttl ← readU32 packet (stop + 4)
    let length ← readU16 packet (stop + 8)
    if packet.length < stop + 10 + length then
      .error (.invalidResponse "truncated mDNS record data".toList)
    else
      let presentationRdata ← presentationOf packet rrType (stop + 10) (stop + 10 + length)
      let rdata ← expandRdata packet rrType (stop + 10) (stop + 10 + length)
      return (⟨owner, rrType, rawClass &&& dnsClassMask, ttl, rawClass &&& dnsClassCacheFlush != 0,
        rdata, presentationRdata, interface⟩, stop + 10 + length)

def skipQuestions : Nat → Nat → Except MdnsRuntimeError Nat
  | 0, offset => .ok offset
  | count + 1, offset => do
    let (_, _, stop) ← decodeName packet offset
    if packet.length < stop + 4 then .error (.invalidResponse "truncated mDNS question".toList)
    else skipQuestions count (stop + 4)

def parseRecordsFrom : Nat → Nat → Except MdnsRuntimeError (List RuntimeRecord × Nat)
  | 0, offset => .ok ([], offset)
  | count + 1, offset => do
    let (record, offset) ← parseResponseRecord packet interface offset
    let (records, offset) ← parseRecordsFrom count offset
    return (record :: records, offset)

def parseResponseRecords : Except MdnsRuntimeError (List RuntimeRecord) :=
  if packet.length < dnsHeaderLen then .error (.invalidResponse "short mDNS response".toList)
  else do
    let questions ← readU16 packet 4
    let answers ← readU16 packet 6
    let authorities ← readU16 packet 8
    let additionals ← readU16 packet 10
    let offset ← skipQuestions packet questions dnsHeaderLen
    let (records, offset) ←
      parseRecordsFrom packet interface (answers + authorities + additionals) offset
    if offset ≠ packet.length then
      .error (.invalidResponse "trailing data after mDNS response".toList)
    else .ok records

end

end

/-! ### The reply to a client -/

variable (question : MdnsQuestion)

section
variable (record : RuntimeRecord)

def recordMatches : Bool :=
  record.owner == question.owner &&
    (question.rrType == typeAny || question.rrType == record.rrType) &&
    question.cls &&& dnsClassMask == record.cls &&& dnsClassMask

def recordBytes : Bytes :=
  record.owner ++ u16ToBeBytes record.rrType ++ u16ToBeBytes (record.cls &&& dnsClassMask) ++
    u32ToBeBytes record.ttl ++ u16ToBeBytes record.rdata.length ++ record.rdata

def appendRecord : Except MdnsRuntimeError Bytes :=
  if 65535 < record.rdata.length then
    .error (.invalidResponse "mDNS RDATA exceeds 65535 octets".toList)
  else .ok (recordBytes record)

end

/-- The records that answer the question, in order and without repetitions. -/
def matchingRecords (answers : List RuntimeRecord) : List RuntimeRecord :=
  sortedSet RuntimeRecord.sortKey (answers.filter (recordMatches question))

def stubFlags : Nat :=
  flagQr ||| flagAa ||| flagRa ||| (question.flags &&& flagRd)

def stubReply (flags : Nat) (answers additionals : List RuntimeRecord) :
    Except MdnsRuntimeError Bytes := do
  let written ← answers.mapM appendRecord
  let more ← additionals.mapM appendRecord
  return dnsHeader question.id flags 1 answers.length 0 additionals.length ++ question.raw ++
    written.flatten ++ more.flatten

def buildStubResponse (answers additionals : List RuntimeRecord) : Except MdnsRuntimeError Bytes :=
  let answers := matchingRecords question answers
  if 65535 < answers.length ∨ 65535 < additionals.length then
    .error (.invalidResponse "too many records in translated mDNS response".toList)
  else do
    let output ← stubReply question (stubFlags question) answers additionals
    if 65535 < output.length then
      -- octets 2 and 3 are the flags
      let output := output.take 2 ++ u16ToBeBytes (stubFlags question ||| flagTc) ++ output.drop 4
      return output.take 1232
    else return output

/-! ### What is read -/

inductive DecodeStep (packet : Bytes) (state : NameCursor) :
    LoopFlow (Bytes × Text × Nat) NameCursor → Prop
  | pointer {length second : UInt8} {visited : List Nat}
      (hlength : packet[state.cursor]? = some length)
    (hpointer : length &&& 0xc0 = 0xc0) :
    DecodeStep packet state (.again ⟨state.output, state.labels, pointerTarget length second,
      state.next.or (some (state.cursor + 2)), visited⟩)
  | root {output : Bytes} (hlength : packet[state.cursor]? = some 0)
    (hname : canonicalWireName (state.output ++ [0]) = .ok output) :
    DecodeStep packet state
      (.done (output, labelsText state.labels, state.next.getD (state.cursor + 1)))
  | label {length : UInt8} {output : Bytes} {labels : List Text}
    (hlength : packet[state.cursor]? = some length) (hsome : length ≠ 0)
    (hplain : ¬length &&& 0xc0 = 0xc0) :
    DecodeStep packet state (.again { state with
      output, labels, cursor := state.cursor + 1 + length.toNat })

theorem decodeRound_step {state : NameCursor} {flow : LoopFlow (Bytes × Text × Nat) NameCursor}
    (h : decodeRound packet state = .ok flow) : DecodeStep packet state flow := by
  unfold decodeRound at h
  split at h
  · cases h
  · rename_i length hlength
    split_ifs at h with hpointer hbad hzero
    · split at h
      · cases h
      · dsimp only at h
        split_ifs at h
        cases h
        exact .pointer hlength hpointer
    · subst hzero
      split at h
      · cases h
        exact .root hlength ‹_›
      · cases h
    · split at h
      · cases h
      · dsimp only at h
        split_ifs at h
        cases h
        exact .label hlength hzero hpointer

theorem decodeName_canonical {name : Bytes} {text : Text}
    (h : decodeName packet start = .ok (name, text, next)) : IsCanonical name := by
  refine loop_ok (fun _ => True) (fun result : Bytes × Text × Nat => IsCanonical result.1)
    (fun _ _ _ _ => trivial) ?_ trivial h
  intro state result _ hround
  cases decodeRound_step hround with
  | root hlength hname =>
    obtain ⟨labels, hvalid, -, rfl⟩ := canonicalWireName_eq_ok.mp hname
    exact ⟨labels, hvalid, rfl⟩

theorem loop_decodeRound_end {out : MdnsRuntimeError} (extra : Nat) {rounds : Nat}
    {state : NameCursor} {result : Bytes × Text × Nat}
    (h : loop out (decodeRound packet) rounds state = .ok result) :
    result.2.2 = state.next.getD (localEnd packet (rounds + extra) state.cursor) := by
  induction rounds generalizing state result with
  | zero => cases h
  | succ rounds ih =>
    rw [Nat.add_right_comm, localEnd]
    obtain ⟨_, hround, hrest⟩ := of_bind h
    cases decodeRound_step hround with
    | root hlength _ =>
      cases hrest
      simp [hlength]
    | pointer hlength hpointer =>
      rw [ih hrest]
      cases state.next with
      | none => simp [hlength, hpointer, pointer_ne_zero hpointer]
      | some offset => rfl
    | label hlength hsome hplain =>
      rw [ih hrest]
      simp [hlength, hsome, hplain]

/-- The numbers are read as the decoder of unicast packets reads them. -/
theorem readU16_eq_ok :
    readU16 packet offset = .ok value ↔ Wire.Octets.readU16 packet offset = .ok value := by
  have hlength := List.length_drop (i := offset) (l := packet)
  unfold readU16 getRange Wire.Octets.readU16
  rcases hdrop : packet.drop offset with _ | ⟨a, _ | ⟨b, rest⟩⟩
  all_goals simp only [hdrop, List.length_nil, List.length_cons] at hlength
  · rw [if_neg (by omega)]
    simp
  · rw [if_neg (by omega)]
    simp
  · rw [if_pos (by omega), Nat.add_sub_cancel_left]
    simp

theorem readU16_lt (h : readU16 packet offset = .ok value) : value < 65536 := by
  unfold readU16 at h
  split at h
  · cases h
    exact u16FromBeBytes_lt _ _
  · cases h

theorem readU32_lt (h : readU32 packet offset = .ok value) : value < 2 ^ 32 := by
  unfold readU32 at h
  split at h
  · cases h
    exact u32FromBeBytes_lt _ _ _ _
  · cases h

theorem length_slice (h : stop ≤ packet.length) :
    (slice packet start stop).length = stop - start := by
  rw [slice, List.length_take, List.length_drop]
  omega

/-! ### What is in the records -/

/-- The data of a type with names in it has them written out. -/
structure ExpandedRdata (rrType : Nat) (rdata : Bytes) : Prop where
  name : rrType = typeNs ∨ rrType = typeCname ∨ rrType = typePtr ∨ rrType = typeDname →
    IsCanonical rdata
  mx : rrType = typeMx → ∃ head name, head.length = 2 ∧ IsCanonical name ∧ rdata = head ++ name
  srv : rrType = typeSrv → ∃ head name, head.length = 6 ∧ IsCanonical name ∧ rdata = head ++ name
  soa : rrType = typeSoa → ∃ mname rname numbers, IsCanonical mname ∧ IsCanonical rname ∧
    numbers.length = 20 ∧ rdata = mname ++ rname ++ numbers

theorem nameRdata_canonical (h : nameRdata packet start stop = .ok rdata) : IsCanonical rdata := by
  obtain ⟨⟨name, text, consumed⟩, hdecode, h⟩ := of_bind h
  dsimp only at h
  split_ifs at h
  cases h
  exact decodeName_canonical hdecode

section
variable (hstop : stop ≤ packet.length)
include hstop

theorem prefixedRdata_canonical {skip : Nat} {short trailing : Text}
    (h : prefixedRdata packet start skip stop short trailing = .ok rdata) :
    ∃ head name, head.length = skip ∧ IsCanonical name ∧ rdata = head ++ name := by
  unfold prefixedRdata at h
  split_ifs at h with hshort
  obtain ⟨⟨name, text, consumed⟩, hdecode, h⟩ := of_bind h
  dsimp only at h
  split_ifs at h
  cases h
  refine ⟨_, name, ?_, decodeName_canonical hdecode, rfl⟩
  rw [length_slice (by omega)]
  omega

theorem soaRdata_canonical
    (h : soaRdata packet start stop = .ok rdata) : ∃ mname rname numbers, IsCanonical mname ∧
      IsCanonical rname ∧ numbers.length = 20 ∧ rdata = mname ++ rname ++ numbers := by
  obtain ⟨⟨mname, _, cursor⟩, hmname, h⟩ := of_bind h
  obtain ⟨⟨rname, _, cursor⟩, hrname, h⟩ := of_bind h
  dsimp only at h
  split_ifs at h with hnumbers
  cases h
  refine ⟨mname, rname, _, decodeName_canonical hmname, decodeName_canonical hrname, ?_, rfl⟩
  rw [length_slice hstop]
  omega

theorem expandRdata_expanded {rrType : Nat} (h : expandRdata packet rrType start stop = .ok rdata) :
    ExpandedRdata rrType rdata := by
  -- a type has one branch only, so what the other fields say does not apply to it
  unfold expandRdata at h
  split_ifs at h with hname hmx hsrv hsoa hnsec
  · refine ⟨fun _ => nameRdata_canonical h, fun hbad => ?_, fun hbad => ?_, fun hbad => ?_⟩
    all_goals exact absurd hname (by rw [hbad]; decide)
  · refine ⟨fun hbad => absurd hbad hname, fun _ => prefixedRdata_canonical hstop h, fun hbad => ?_,
      fun hbad => ?_⟩
    all_goals exact absurd hbad (by rw [hmx]; decide)
  · refine ⟨fun hbad => absurd hbad hname, fun hbad => absurd hbad hmx,
      fun _ => prefixedRdata_canonical hstop h, fun hbad => ?_⟩
    exact absurd hbad (by rw [hsrv]; decide)
  · exact ⟨fun hbad => absurd hbad hname, fun hbad => absurd hbad hmx, fun hbad => absurd hbad hsrv,
      fun _ => soaRdata_canonical hstop h⟩
  all_goals exact ⟨fun hbad => absurd hbad hname, fun hbad => absurd hbad hmx,
    fun hbad => absurd hbad hsrv, fun hbad => absurd hbad hsoa⟩

end

/-- What a record that was read is made of. -/
structure Received (record : RuntimeRecord) : Prop where
  owner : IsCanonical record.owner
  rrType : record.rrType < 65536
  cls : record.cls < 32768
  ttl : record.ttl < 2 ^ 32
  rdata : ExpandedRdata record.rrType record.rdata

theorem parseResponseRecord_received {record : RuntimeRecord}
    (h : parseResponseRecord packet interface start = .ok (record, next)) : Received record := by
  obtain ⟨⟨owner, text, stop⟩, hdecode, h⟩ := of_bind h
  dsimp only at h
  split_ifs at h
  obtain ⟨rrType, hrrType, h⟩ := of_bind h
  obtain ⟨rawClass, -, h⟩ := of_bind h
  obtain ⟨ttl, httl, h⟩ := of_bind h
  obtain ⟨length, -, h⟩ := of_bind h
  split_ifs at h with hlength
  obtain ⟨presentation, -, h⟩ := of_bind h
  obtain ⟨rdata, hrdata, h⟩ := of_bind h
  cases h
  have hcls : rawClass &&& dnsClassMask < 2 ^ 15 := Nat.and_lt_two_pow _ (by decide)
  exact ⟨decodeName_canonical hdecode, readU16_lt hrrType, hcls, readU32_lt httl,
    expandRdata_expanded (not_lt.mp hlength) hrdata⟩

theorem parseRecordsFrom_received {count : Nat} {records : List RuntimeRecord}
    (h : parseRecordsFrom packet interface count start = .ok (records, next)) :
    ∀ record ∈ records, Received record := by
  induction count generalizing start next records with
  | zero =>
    cases h
    simp
  | succ count ih =>
    obtain ⟨⟨record, offset⟩, hrecord, h⟩ := of_bind h
    obtain ⟨⟨records, offset⟩, hrecords, h⟩ := of_bind h
    cases h
    exact List.forall_mem_cons.mpr
      ⟨parseResponseRecord_received hrecord, ih hrecords⟩

end RustdResolved.Mdns.Translation
