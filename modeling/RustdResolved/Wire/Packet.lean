import RustdResolved.Wire.Presentation
import RustdResolved.Wire.Record

/-! # Whole packets

The checks that a query and a response pass before anything looks into them, the question of a
packet, and what a cache does with one: its lifetime and the ageing of its TTLs. -/

namespace RustdResolved.Wire.Packet

open Lib.Result Octets Name PacketHeader Record Presentation

variable (packet : Bytes)

/-- Checks a packet as a query or as a response. -/
def validate (expectResponse : Bool) : Except WireError Unit := do
  let sections ← parseSections packet
  let header := sections.header
  if header.isResponse ≠ expectResponse then .error .wrongDirection
  else if header.opcode ≠ 0 then .error (.unsupportedOpcode header.opcode)
  else if sections.questions.isEmpty then .error .noQuestion
  else if !expectResponse && header.questionCount ≠ 1 then
    .error (.wrongQuestionCount header.questionCount)
  else if !expectResponse && header.truncated then .error .truncatedQuery
  else if !expectResponse && header.answerCount ≠ 0 then
    .error (.queryContainsAnswers header.answerCount)
  else if sections.stop ≠ packet.length then .error .trailingData
  else .ok ()

def firstQuestion : Except WireError Question := do
  let header ← Header.parse packet
  if header.questionCount = 0 then .error .noQuestion else parseQuestion packet dnsHeaderLen

def questionEnd : Except WireError Nat := do
  let header ← Header.parse packet
  if header.questionCount = 0 then .error .noQuestion
  else do
    let (_, offset) ← parseQuestions packet header.questionCount dnsHeaderLen
    .ok offset

/-- Checks that a response answers a query. -/
def responseMatches (query response : Bytes) : Except WireError Unit := do
  validate query false
  validate response true
  let queryHeader ← Header.parse query
  let responseHeader ← Header.parse response
  if queryHeader.id ≠ responseHeader.id then .error .questionMismatch
  else do
    let queryQuestion ← firstQuestion query
    let responseQuestion ← firstQuestion response
    if queryQuestion.name.canonicalWire ≠ responseQuestion.name.canonicalWire ∨
        queryQuestion.rrType ≠ responseQuestion.rrType ∨
        queryQuestion.rrClass ≠ responseQuestion.rrClass then .error .questionMismatch
    else .ok ()

def makeQueryWithClass (name : Text) (rrType rrClass id : Nat) : Except WireError Bytes :=
  if !queryTypeIsValid rrType then .error (.invalidQuestionType rrType)
  else do
    let encodedName ← encodeName name
    .ok (u16ToBeBytes id ++ u16ToBeBytes flagRd ++ u16ToBeBytes 1 ++ List.replicate 6 0 ++
      encodedName ++ u16ToBeBytes rrType ++ u16ToBeBytes rrClass)

def makeQuery (name : Text) (rrType id : Nat) : Except WireError Bytes :=
  makeQueryWithClass name rrType classIn id

/-! ### Identifiers and lifetimes -/

def rewriteId (id : Nat) : Except WireError Bytes := writeU16 packet 0 id

def soaMinimum (record : ResourceRecord) : Except WireError Nat := do
  let (_, firstEnd) ← readName packet record.rdataOffset
  let (_, secondEnd) ← readName packet firstEnd
  let fixedEnd ← checkedEnd secondEnd 20
  if fixedEnd ≠ record.nextOffset then .error .invalidRecord else readU32 packet (secondEnd + 16)

def negativeTtl (record : ResourceRecord) : Option Nat :=
  if record.rrType = typeSoa then
    match soaMinimum packet record with
    | .ok minimum => some (min record.ttl minimum)
    | .error _ => none
  else none

/-- How long a response may be kept, in seconds. -/
def cacheLifetime : Except WireError (Option Nat) := do
  let sections ← parseSections packet
  let header := sections.header
  if !header.isResponse then .error .wrongDirection
  else if sections.records.any (·.rrType == typeTsig) then .ok none
  else if header.responseCode = 3 ∨ header.answerCount = 0 then
    let authorities := (sections.records.drop header.answerCount).take header.authorityCount
    .ok (authorities.filterMap (negativeTtl packet)).min?
  else
    let answers := (sections.records.take header.answerCount).filter fun record =>
      record.rrType != typeOpt && record.rrType != typeTsig
    .ok (answers.map (·.ttl)).min?

def writeTtls (elapsedSeconds : Nat) (stale : Bool) :
    List ResourceRecord → Bytes → Except WireError Bytes
  | [], packet => .ok packet
  | record :: rest, packet =>
    if record.rrType = typeOpt then writeTtls elapsedSeconds stale rest packet
    else do
      let aged := if stale then 0 else record.ttl - elapsedSeconds
      let packet ← writeU32 packet record.ttlOffset aged
      writeTtls elapsedSeconds stale rest packet

def ageTtls (elapsedSeconds : Nat) (stale : Bool) : Except WireError Bytes := do
  let sections ← parseSections packet
  writeTtls elapsedSeconds stale sections.records packet

/-- Only the first two octets depend on the identifier. -/
theorem rewriteId_eq_ok {packet packet' : Bytes} {id : Nat} :
    rewriteId packet id = .ok packet' ↔
      2 ≤ packet.length ∧ packet' = u16ToBeBytes id ++ packet.drop 2 := by
  unfold rewriteId writeU16 writeAt
  simp only [u16ToBeBytes, List.length_cons, List.length_nil, Nat.zero_add, List.take_zero,
    List.nil_append]
  split_ifs with h
  · simp [h, eq_comm]
  · simp [h]

theorem firstQuestion_wellFormed {packet : Bytes} {question : Question}
    (h : firstQuestion packet = .ok question) : question.name.WellFormed := by
  obtain ⟨header, -, h⟩ := of_bind h
  split_ifs at h
  exact parseQuestion_wellFormed h

end RustdResolved.Wire.Packet
