import RustdResolved.Wire.Packet

/-! # Replies made of a query

The resolver makes some replies itself: it keeps the header and the question of the query, rewrites
the flags and the counts, and for a local answer appends records. -/

namespace RustdResolved.Wire.Reply

open Lib.Loop Octets PacketHeader Record Presentation Packet

/-! ### Errors -/

/-- `packet[start..stop].fill(0)`. -/
def fillZero (packet : Bytes) (start stop : Nat) : Except WireError Bytes :=
  if stop ≤ packet.length then writeAt packet start (List.replicate (stop - start) 0)
  else .error .panic

variable (query : Bytes)

/-- The header and the question of a query with other flags and without records. -/
def replyWithFlags (newFlags : Nat → Nat) : Except WireError Bytes := do
  validate query false
  let stop ← questionEnd query
  let response ← indexRange query 0 stop
  let flags ← readU16 response 2
  let response ← writeU16 response 2 (newFlags flags)
  fillZero response 6 12

def servfailFor : Except WireError Bytes :=
  replyWithFlags query fun flags =>
    clearFlags (flags ||| (flagQr ||| flagRa)) (flagAa ||| flagTc ||| flagAd ||| rcodeMask) ||| 2

def responseWithCode (responseCode : Nat) (authoritative : Bool) : Except WireError Bytes :=
  replyWithFlags query fun flags =>
    let flags := clearFlags (flags ||| (flagQr ||| flagRa)) (flagAa ||| flagTc ||| rcodeMask)
    let flags := if authoritative then flags ||| flagAa else flags
    flags ||| responseCode

def refusedFor : Except WireError Bytes := responseWithCode query 5 false

def nxdomainFor : Except WireError Bytes := responseWithCode query 3 false

def authoritativeNxdomainFor : Except WireError Bytes := responseWithCode query 3 true

/-! ### Local answers -/

/-- A record that the resolver answers with itself. Addresses are their octets. -/
inductive LocalRecord
  | a (address : Vector UInt8 4)
  | aaaa (address : Vector UInt8 16)
  | cname (name : Text)
  | namedA (name : Text) (address : Vector UInt8 4)
  | namedAaaa (name : Text) (address : Vector UInt8 16)
  | ptr (name : Text)
  deriving DecidableEq, Repr

namespace LocalRecord

def rrType : LocalRecord → Nat
  | a _ | namedA _ _ => typeA
  | aaaa _ | namedAaaa _ _ => typeAaaa
  | cname _ => typeCname
  | ptr _ => typePtr

/-- The owner of the record on the wire: a pointer to the question unless the record has its own. -/
def owner : LocalRecord → Except WireError Bytes
  | namedA name _ | namedAaaa name _ => encodeName name
  | _ => .ok [0xc0, 0x0c]

def rdata : LocalRecord → Except WireError Bytes
  | a address | namedA _ address => .ok address.toList
  | aaaa address | namedAaaa _ address => .ok address.toList
  | cname name | ptr name => encodeName name

end LocalRecord

/-- `u16::try_from(value).map_err(|_| WireError::ResponseTooLarge)`. -/
def u16TryFrom (value : Nat) : Except WireError Nat :=
  if value < 65536 then .ok value else .error .responseTooLarge

/-- The records of a local answer that answer a question, appended to a response. -/
def appendLocalRecords (question : Question) (ttl : Nat) :
    List LocalRecord → Bytes → Except WireError Bytes
  | [], response => .ok response
  | record :: rest, response =>
    if record.rrType ≠ question.rrType ∧ record.rrType ≠ typeCname ∧ question.rrType ≠ 255 then
      appendLocalRecords question ttl rest response
    else do
      let owner ← record.owner
      let rdata ← record.rdata
      let rdataLength ← u16TryFrom rdata.length
      let response := response ++ (owner ++ u16ToBeBytes record.rrType ++ u16ToBeBytes classIn ++
        u32ToBeBytes ttl ++ u16ToBeBytes rdataLength ++ rdata)
      if 65535 < response.length then .error .responseTooLarge
      else appendLocalRecords question ttl rest response

/-- A round of the loop of `countRecordsAfterQuestion`, over the offset and the count. -/
def countRecordsBody (packet : Bytes) (state : Nat × Nat) :
    Except WireError (LoopFlow Nat (Nat × Nat)) :=
  if packet.length ≤ state.1 then .ok (.done state.2)
  else do
    let record ← parseRecord packet state.1
    let count ← u16TryFrom (state.2 + 1)
    .ok (.again (record.nextOffset, count))

def countRecordsAfterQuestion (packet : Bytes) (offset : Nat) : Except WireError Nat :=
  loop .outOfFuel (countRecordsBody packet) (packet.length + 1) (offset, 0)

def localResponse (records : List LocalRecord) (ttl : Nat) : Except WireError Bytes := do
  validate query false
  let question ← firstQuestion query
  let stop ← questionEnd query
  let response ← indexRange query 0 stop
  let flags ← readU16 response 2
  let response ← writeU16 response 2
    (clearFlags (flags ||| (flagQr ||| flagAa ||| flagRa)) (flagTc ||| rcodeMask))
  let count ← u16TryFrom records.length
  let response ← writeU16 response 6 count
  let response ← fillZero response 8 12
  let response ← appendLocalRecords question ttl records response
  let actualAnswers ← countRecordsAfterQuestion response stop
  writeU16 response 6 actualAnswers

end RustdResolved.Wire.Reply
