import RustdResolved.Edns.Servers
import RustdResolved.Wire.Reply

/-! # The OPT record

The resolver puts its own OPT record into a query, at the feature level at which it asks, and takes
the OPT record of the response out again for a client that sent none. -/

namespace RustdResolved.Edns.Opt

open Lib.Loop Wire Octets PacketHeader Record Packet Reply Servers

def optionDau : Nat := 5
def optionDhu : Nat := 6
def optionN3u : Nat := 7
def optionExtendedError : Nat := 15
def dnssecOkFlag : Nat := 0x8000

def dnssecAlgorithms : Bytes := [5, 7, 8, 10, 13, 14]
def dnssecDigests : Bytes := [1, 2, 4]
def nsec3Algorithms : Bytes := [1]

structure EdnsOption where
  code : Nat
  data : Bytes
  deriving DecidableEq, Repr

structure OptRecord where
  udpPayloadSize : Nat
  extendedRcode : Nat
  version : Nat
  flags : Nat
  options : List EdnsOption
  deriving DecidableEq, Repr

def OptRecord.dnssecOk (opt : OptRecord) : Bool := opt.flags &&& dnssecOkFlag != 0

/-- Where the OPT record of a packet stands, and what it holds. -/
structure OptSpan where
  start : Nat
  stop : Nat
  udpPayloadSize : Nat
  flags : Nat
  options : List EdnsOption
  deriving DecidableEq, Repr

structure PacketLayout where
  opt : Option OptSpan
  hasTsig : Bool
  deriving DecidableEq, Repr

structure PreparedQuery where
  packet : Bytes
  sentEdns : Bool
  managedOpt : Bool
  deriving DecidableEq, Repr

/-! ### Reading -/

/-- The variables of the loop of `parseOptions`. -/
structure OptionReader where
  offset : Nat
  options : List EdnsOption

def parseOptionsBody (rdata : Bytes) (reader : OptionReader) :
    Except WireError (LoopFlow (List EdnsOption) OptionReader) :=
  if rdata.length ≤ reader.offset then .ok (.done reader.options)
  else do
    let header ← getRangeOr .invalidRecord rdata reader.offset (reader.offset + 4)
    let code ← readU16 header 0
    let length ← readU16 header 2
    let data ← getRangeOr .invalidRecord rdata (reader.offset + 4) (reader.offset + 4 + length)
    .ok (.again ⟨reader.offset + 4 + length, reader.options ++ [⟨code, data⟩]⟩)

def parseOptions (rdata : Bytes) : Except WireError (List EdnsOption) :=
  loop .outOfFuel (parseOptionsBody rdata) (rdata.length + 1) ⟨0, []⟩

/-- What one record, which begins at `start`, adds to the layout of a packet. -/
def scanRecord (isAdditional : Bool) (start : Nat) (record : ResourceRecord)
    (layout : PacketLayout) : Except WireError PacketLayout :=
  if record.rrType = typeOpt then
    if !isAdditional || record.name.canonicalWire != [0] || layout.opt.isSome then
      .error .invalidRecord
    else do
      let options ← parseOptions record.rdata
      .ok { layout with
        opt := some ⟨start, record.nextOffset, record.rrClass, record.ttl % 65536, options⟩ }
  else if record.rrType = typeTsig then .ok { layout with hasTsig := true }
  else .ok layout

def scanRecords (packet : Bytes) (additionalStart : Nat) :
    Nat → Nat → Nat → PacketLayout → Except WireError (PacketLayout × Nat)
  | 0, _, offset, layout => .ok (layout, offset)
  | count + 1, index, offset, layout => do
    let record ← parseRecord packet offset
    let layout ← scanRecord (decide (additionalStart ≤ index)) offset record layout
    scanRecords packet additionalStart count (index + 1) record.nextOffset layout

variable (packet : Bytes)

def scanPacket : Except WireError PacketLayout := do
  let header ← Header.parse packet
  let (_, offset) ← parseQuestions packet header.questionCount dnsHeaderLen
  let (layout, stop) ← scanRecords packet (header.answerCount + header.authorityCount)
    header.totalRecords 0 offset ⟨none, false⟩
  if stop ≠ packet.length then .error .trailingData else .ok layout

def inspectOpt : Except WireError (Option OptRecord) := do
  let layout ← scanPacket packet
  match layout.opt with
  | none => .ok none
  | some opt => do
    let record ← parseRecord packet opt.start
    .ok (some
      { udpPayloadSize := opt.udpPayloadSize
        extendedRcode := record.ttl / 16777216 % 256
        version := record.ttl / 65536 % 256
        flags := opt.flags
        options := opt.options })

def fullRcode (opt : Option OptRecord) : Except WireError Nat := do
  let header ← Header.parse packet
  match opt with
  | none => .ok header.responseCode
  | some opt => .ok ((opt.extendedRcode <<< 4) ||| header.responseCode)

/-! ### Extended errors -/

def replacementCharacter : Char := Char.ofNat 0xfffd

/-- The low bits that a continuation octet of UTF-8 carries. -/
def continuationBits (byte : UInt8) : Nat := byte.toNat % 64

/-- `String::from_utf8_lossy`: one replacement character for each maximal part of a sequence that
cannot be continued. -/
def fromUtf8Lossy : Bytes → Text
  | [] => []
  | a :: rest =>
    if a < 0x80 then Char.ofNat a.toNat :: fromUtf8Lossy rest
    else if isBetween 0xc2 0xdf a then
      match rest with
      | b :: rest =>
        if isContinuation b then
          Char.ofNat (a.toNat % 32 * 64 + continuationBits b) :: fromUtf8Lossy rest
        else replacementCharacter :: fromUtf8Lossy (b :: rest)
      | [] => [replacementCharacter]
    else if isBetween 0xe0 0xef a then
      match rest with
      | b :: rest =>
        if isBetween (if a = 0xe0 then 0xa0 else 0x80) (if a = 0xed then 0x9f else 0xbf) b then
          match rest with
          | c :: rest =>
            if isContinuation c then
              Char.ofNat (a.toNat % 16 * 4096 + continuationBits b * 64 + continuationBits c) ::
                fromUtf8Lossy rest
            else replacementCharacter :: fromUtf8Lossy (c :: rest)
          | [] => [replacementCharacter]
        else replacementCharacter :: fromUtf8Lossy (b :: rest)
      | [] => [replacementCharacter]
    else if isBetween 0xf0 0xf4 a then
      match rest with
      | b :: rest =>
        if isBetween (if a = 0xf0 then 0x90 else 0x80) (if a = 0xf4 then 0x8f else 0xbf) b then
          match rest with
          | c :: rest =>
            if isContinuation c then
              match rest with
              | d :: rest =>
                if isContinuation d then
                  Char.ofNat (a.toNat % 8 * 262144 + continuationBits b * 4096 +
                    continuationBits c * 64 + continuationBits d) :: fromUtf8Lossy rest
                else replacementCharacter :: fromUtf8Lossy (d :: rest)
              | [] => [replacementCharacter]
            else replacementCharacter :: fromUtf8Lossy (c :: rest)
          | [] => [replacementCharacter]
        else replacementCharacter :: fromUtf8Lossy (b :: rest)
      | [] => [replacementCharacter]
    else replacementCharacter :: fromUtf8Lossy rest

def extendedError (opt : OptRecord) : Except WireError (Option (Nat × Option Text)) :=
  match opt.options.find? (·.code == optionExtendedError) with
  | none => .ok none
  | some option => do
    let code ← getRangeOr .invalidRecord option.data 0 2
    let code ← readU16 code 0
    let message := option.data.drop 2
    .ok (some (code, if message.isEmpty then none else some (fromUtf8Lossy message)))

/-! ### Writing -/

/-- Overwrites two octets; an index out of range is a panic. -/
def patchU16 (offset value : Nat) : Except WireError Bytes :=
  if packet.length < offset + 2 then .error .panic
  else .ok (packet.take offset ++ u16ToBeBytes value ++ packet.drop (offset + 2))

def encodeOptions : List EdnsOption → Except WireError Bytes
  | [] => .ok []
  | option :: rest =>
    if 65535 < option.data.length then .error .responseTooLarge
    else do
      let others ← encodeOptions rest
      .ok (u16ToBeBytes option.code ++ u16ToBeBytes option.data.length ++ option.data ++ others)

def encodeOpt (udpPayloadSize extendedRcode version flags : Nat) (options : List EdnsOption) :
    Except WireError Bytes := do
  let rdata ← encodeOptions options
  if 65535 < rdata.length then .error .responseTooLarge
  else
    .ok ([0] ++ u16ToBeBytes typeOpt ++ u16ToBeBytes udpPayloadSize ++
      [UInt8.ofNat extendedRcode, UInt8.ofNat version] ++ u16ToBeBytes flags ++
      u16ToBeBytes rdata.length ++ rdata)

def replaceSpan (start stop : Nat) (replacement : Bytes) : Except WireError Bytes :=
  if stop < start ∨ packet.length < stop then .error .invalidRecord
  else if 65535 < packet.length - (stop - start) + replacement.length then .error .responseTooLarge
  else .ok (packet.take start ++ replacement ++ packet.drop stop)

def appendOpt (opt : Bytes) : Except WireError Bytes := do
  let header ← Header.parse packet
  if 65535 < header.additionalCount + 1 then .error .responseTooLarge
  else if 65535 < packet.length + opt.length then .error .responseTooLarge
  else patchU16 (packet ++ opt) 10 (header.additionalCount + 1)

def removeOpt (opt : OptSpan) : Except WireError Bytes := do
  let header ← Header.parse packet
  if header.additionalCount = 0 then .error .invalidRecord
  else do
    let output ← replaceSpan packet opt.start opt.stop []
    patchU16 output 10 (header.additionalCount - 1)

def rfc6975Options : List EdnsOption :=
  [⟨optionDau, dnssecAlgorithms⟩, ⟨optionDhu, dnssecDigests⟩, ⟨optionN3u, nsec3Algorithms⟩]

/-- The query as it is sent at a feature level. -/
def prepareQuery (query : Bytes) (level : FeatureLevel) (udpPayloadSize : Nat) :
    Except WireError PreparedQuery := do
  validate query false
  let layout ← scanPacket query
  if layout.hasTsig then .ok ⟨query, layout.opt.isSome, false⟩
  else if !level.usesEdns then
    match layout.opt with
    | some opt => do
      let packet ← removeOpt query opt
      .ok ⟨packet, false, true⟩
    | none => .ok ⟨query, false, true⟩
  else do
    let options := if level.sendsDnssecOk then rfc6975Options else []
    let flags := if level.sendsDnssecOk then dnssecOkFlag else 0
    let replacement ← encodeOpt (max udpPayloadSize 512) 0 0 flags options
    match layout.opt with
    | some opt => do
      let packet ← replaceSpan query opt.start opt.stop replacement
      .ok ⟨packet, true, true⟩
    | none => do
      let packet ← appendOpt query replacement
      .ok ⟨packet, true, true⟩

/-- The reply to a query of another version of EDNS than zero. -/
def badVersionResponse (query : Bytes) : Except WireError Bytes := do
  match ← inspectOpt query with
  | none => .error .invalidRecord
  | some request => do
    let response ← refusedFor query
    let flags ← readU16 response 2
    let response ← patchU16 response 2 (clearFlags flags rcodeMask)
    let response ← patchU16 response 10 1
    let opt ← encodeOpt (max request.udpPayloadSize 512) 1 0 0 []
    .ok (response ++ opt)

def responseForClient (query response : Bytes) : Except WireError Bytes := do
  validate query false
  validate response true
  let queryLayout ← scanPacket query
  if queryLayout.hasTsig || queryLayout.opt.isSome then .ok response
  else do
    let responseLayout ← scanPacket response
    match responseLayout.opt with
    | none => .ok response
    | some span => do
      match ← inspectOpt response with
      | none => .error .invalidRecord
      | some opt => do
        let extendedRcode ← fullRcode response (some opt)
        let output ← removeOpt response span
        if 15 < extendedRcode then do
          let flags ← readU16 output 2
          patchU16 output 2 (clearFlags flags rcodeMask ||| 2)
        else .ok output

end RustdResolved.Edns.Opt
