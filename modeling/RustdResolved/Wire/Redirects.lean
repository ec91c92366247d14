import RustdResolved.Wire.Dname
import RustdResolved.Wire.Record

/-! # Answers behind redirects

The answer to a question may stand at another name, behind CNAME and DNAME records of the same
packet. `classifyRedirectAnswer` follows such a chain and tells the query loop whether a response
has the answer. -/

namespace RustdResolved.Wire.Redirects

open Lib Loop Maps Octets Name PacketHeader Record Dname

abbrev Ipv4Addr := Vector UInt8 4
abbrev Ipv6Addr := Vector UInt8 16

abbrev Ipv4Addr.new (a b c d : UInt8) : Ipv4Addr := #v[a, b, c, d]

abbrev Ipv6Addr.localhost : Ipv6Addr := #v[0, 0, 0, 0, 0, 0, 0, 0, 0, 0, 0, 0, 0, 0, 0, 1]

inductive IpAddr
  | v4 (octets : Ipv4Addr)
  | v6 (octets : Ipv6Addr)
  deriving DecidableEq, Repr

/-- `for _ in 0..count`: reads a record from `offset` on and handles it, `count` times. -/
def foldRecords {σ : Type} (packet : Bytes) (handle : σ → ResourceRecord → Except WireError σ) :
    Nat → Nat → σ → Except WireError σ
  | 0, _, state => .ok state
  | count + 1, offset, state => do
    let record ← parseRecord packet offset
    let state ← handle state record
    foldRecords packet handle count record.nextOffset state

variable (packet : Bytes)

/-- Notes the target of a redirect. Two different targets of one owner are an error. -/
def insertRedirect (record : ResourceRecord) (owner : Bytes)
    (redirects : FiniteMap Bytes DnsName) : Except WireError (FiniteMap Bytes DnsName) := do
  let (target, stop) ← readName packet record.rdataOffset
  if stop ≠ record.nextOffset then .error .invalidRecord
  else
    match redirects.lookup owner with
    | some existing =>
      if existing.canonicalWire ≠ target.canonicalWire then .error .invalidRecord else .ok redirects
    | none => .ok (redirects.insert owner target)

/-! ### The addresses of an answer -/

/-- The data of an A record as an address. -/
def ipv4Of (rdata : Bytes) : Except WireError IpAddr :=
  if h : rdata.length = 4 then .ok (.v4 ⟨rdata.toArray, h⟩) else .error .invalidRecord

/-- The data of an AAAA record as an address. -/
def ipv6Of (rdata : Bytes) : Except WireError IpAddr :=
  if h : rdata.length = 16 then .ok (.v6 ⟨rdata.toArray, h⟩) else .error .invalidRecord

theorem ipv4Of_toList {octets : Ipv4Addr} : ipv4Of octets.toList = .ok (.v4 octets) := by
  unfold ipv4Of
  rw [dif_pos (by simp)]
  congr

theorem ipv6Of_toList {octets : Ipv6Addr} : ipv6Of octets.toList = .ok (.v6 octets) := by
  unfold ipv6Of
  rw [dif_pos (by simp)]
  congr

/-! ### What an answer is -/

def cnameRedirectsMax : Nat := 16

inductive RedirectAnswer
  | direct (canonicalName : Text) (redirects : Nat)
  | redirect (canonicalName : Text) (redirects : Nat)
  | noData
  deriving DecidableEq, Repr

structure RedirectAnswerSet where
  direct : List Bytes
  aliases : FiniteMap Bytes DnsName
  dnames : FiniteMap Bytes DnsName

def addRedirectAnswer (question : Question) (output : RedirectAnswerSet)
    (record : ResourceRecord) : Except WireError RedirectAnswerSet :=
  let owner := record.name.canonicalWire
  if question.rrClass ≠ classAny ∧ record.rrClass ≠ question.rrClass then .ok output
  else if question.rrType = typeAny ∨ record.rrType = question.rrType then
    .ok { output with direct := owner :: output.direct }
  else if record.rrType = typeCname then do
    let aliases ← insertRedirect packet record owner output.aliases
    .ok { output with aliases := aliases }
  else if record.rrType = typeDname then do
    let dnames ← insertRedirect packet record owner output.dnames
    .ok { output with dnames := dnames }
  else .ok output

/-- Where the redirects lead from a name: its alias, or the name that a DNAME record above it
makes. -/
def follow (aliases dnames : FiniteMap Bytes DnsName) (current : DnsName) :
    Except WireError (Option DnsName) :=
  match aliases.lookup current.canonicalWire with
  | some target => .ok (some target)
  | none => rewriteCoveringDname current dnames

/-- The variables of the loop of `classifyRedirectChain`. -/
structure ChainState where
  current : DnsName
  visited : List Bytes
  redirects : Nat

def classifyRedirectBody (answers : RedirectAnswerSet) (state : ChainState) :
    Except WireError (LoopFlow RedirectAnswer ChainState) :=
  let ⟨current, visited, redirects⟩ := state
  if current.canonicalWire ∈ visited then .error .cnameLoop
  else if current.canonicalWire ∈ answers.direct then .ok (.done (.direct current.text redirects))
  else do
    match ← follow answers.aliases answers.dnames current with
    | none =>
      if redirects = 0 then .ok (.done .noData) else .ok (.done (.redirect current.text redirects))
    | some target =>
      if redirects ≥ cnameRedirectsMax then .error .cnameLoop
      else .ok (.again ⟨target, current.canonicalWire :: visited, redirects + 1⟩)

def classifyRedirectChain (question : DnsName) (answers : RedirectAnswerSet) :
    Except WireError RedirectAnswer :=
  loop .outOfFuel (classifyRedirectBody answers) (cnameRedirectsMax + 2) ⟨question, [], 0⟩

def classifyRedirectAnswer : Except WireError RedirectAnswer := do
  let header ← Header.parse packet
  if !header.isResponse then .error .wrongDirection
  else if header.questionCount ≠ 1 then .error (.wrongQuestionCount header.questionCount)
  else if header.responseCode ≠ 0 then .ok .noData
  else do
    let question ← parseQuestion packet dnsHeaderLen
    let answers ← foldRecords packet (addRedirectAnswer packet question) header.answerCount
      question.nextOffset ⟨[], ∅, ∅⟩
    if answers.aliases.keys.any fun owner =>
        answers.direct.contains owner || owner ∈ answers.dnames then .error .invalidRecord
    else classifyRedirectChain question.name answers

end RustdResolved.Wire.Redirects
