import RustdResolved.Dnssec.Nsec3Denial
import RustdResolved.Dnssec.NsecPaths
import RustdResolved.Wire.Packet

/-! # What an authenticated response says

Once the records of a response are authenticated, `authenticatedResponseSemantics` asks whether they
answer the question: it follows the CNAME records of the answer section, looks for a record of the
type, and asks for a proof of denial where it finds none.

A verdict is that of the parts of the two packets and of the end of the aliases
(`authenticatedResponseSemantics_eq`). -/

namespace RustdResolved.Dnssec.Semantics

open Lib.Result Wire Octets Name Presentation PacketHeader Record DnssecRecords Packet
open Resolver.Error NameText CanonicalOrder NsecDenial NsecPaths Nsec3Denial

/-- What the validator says about a response. -/
inductive DnssecVerdict
  | secure
  | insecure
  | notValidated
  deriving DecidableEq, Repr

/-! ### Aliases -/

/-- The first CNAME record of a name. -/
def cnameAt (answers : List ResourceRecord) (name : Text) : Option ResourceRecord :=
  answers.find? fun record => record.rrType == typeCname && dnsNamesEqual record.name.text name

def terminalCnameLoop (packet : Bytes) (answers : List ResourceRecord) :
    Nat → Text → List Text → Except ResolveError Text
  | 0, _, _ => .error (.wire .cnameLoop)
  | rounds + 1, current, visited =>
    if visited.contains current then .error (.wire .cnameLoop)
    else
      match cnameAt answers current with
      | none => .ok current
      | some record => do
        let (target, stop) ← liftWire (readName packet record.rdataOffset)
        if stop ≠ record.nextOffset then .error (.wire .invalidRecord)
        else
          terminalCnameLoop packet answers rounds (normalizeDnsName target.text)
            (current :: visited)

/-- The name at the end of the CNAME records of the answer section. -/
def terminalCname (packet : Bytes) (answers : List ResourceRecord) (initial : Text) :
    Except ResolveError Text :=
  terminalCnameLoop packet answers 64 (normalizeDnsName initial) []

/-! ### Wildcards -/

def nsec3ProvesExpansion (sha1 : Bytes → Bytes) (parsed : List ParsedNsec3)
    (closest nextCloser : Text) (entry : ParsedNsec3) : Except ResolveError Bool :=
  if !dnsNameIsAtOrBelow closest entry.zone then .ok false
  else do
    let compatible := compatibleNsec3Records parsed entry.zone entry.nsec3
    let closestHash ← nsec3Hash sha1 closest entry.nsec3
    if !compatible.any (·.ownerHash == closestHash) then .ok false
    else do
      let nextHash ← nsec3Hash sha1 nextCloser entry.nsec3
      .ok (compatible.any fun candidate => candidate.nsec3.flags == 0 &&
        hashIntervalCovers candidate.ownerHash candidate.nsec3.nextHashedOwner nextHash)

def anyNsec3ProvesExpansion (sha1 : Bytes → Bytes) (parsed : List ParsedNsec3)
    (closest nextCloser : Text) : List ParsedNsec3 → Except ResolveError Bool
  | [] => .ok false
  | entry :: rest => do
    if ← nsec3ProvesExpansion sha1 parsed closest nextCloser entry then .ok true
    else anyNsec3ProvesExpansion sha1 parsed closest nextCloser rest

/-- A wildcard with `sourceLabels` labels was rightly expanded to the owner. -/
def wildcardExpansionIsProven (sha1 : Bytes → Bytes) (packet : Bytes)
    (records : List ResourceRecord) (expandedOwner : Text) (sourceLabels : Nat) :
    Except ResolveError Bool :=
  match dnsNameSuffix expandedOwner sourceLabels,
    dnsNameSuffix expandedOwner (sourceLabels + 1) with
  | some closest, some nextCloser =>
    if sourceLabels ≥ ((normalizeDnsName expandedOwner).splitOn '.').length then .ok false
    else
      let nsecRecords := nsecRecordsOf records
      if (nsecRecords.any fun record => dnsNameIsAtOrBelow record.name.text closest) &&
          nsecRecords.any fun record => isOkTrue (nsecCoversName packet record nextCloser) then
        .ok true
      else do
        let parsed ← parsedNsec3Records records
        anyNsec3ProvesExpansion sha1 parsed closest nextCloser parsed
  | _, _ => .ok false

/-- The signature is over the owner itself, or over a wildcard whose expansion is proven. -/
def checkSignatureLabels (sha1 : Bytes → Bytes) (response : Bytes) (records : List ResourceRecord)
    (signature : ResourceRecord) : Except ResolveError Unit := do
  let parsed ← liftWire (parseRrsig response signature)
  let ownerLabels ← dnsNameLabelCount signature.name.canonicalWire
  if parsed.labels.toNat < ownerLabels then do
    if ← wildcardExpansionIsProven sha1 response records signature.name.text
      parsed.labels.toNat then
      .ok ()
    else
      .error (dnssecValidationError "DNSSEC wildcard closest-encloser proof is missing".toList)
  else .ok ()

def checkSignatures (sha1 : Bytes → Bytes) (response : Bytes) (records : List ResourceRecord) :
    List ResourceRecord → Except ResolveError Unit
  | [] => .ok ()
  | signature :: rest => do
    checkSignatureLabels sha1 response records signature
    checkSignatures sha1 response records rest

/-! ### The verdict -/

/-- A record of the type of the question: of any type but signatures and OPT for the type ANY. -/
def isRequested (rrType : Nat) (record : ResourceRecord) : Bool :=
  if rrType = typeAny then !(record.rrType == typeRrsig || record.rrType == typeOpt)
  else record.rrType == rrType

def denialVerdict (responseCode : Nat) (denial : DnssecDenialResult) :
    Except ResolveError DnssecVerdict :=
  match responseCode, denial with
  | 3, .nxDomain | 0, .noData => .ok .secure
  | _, .optOut => .ok .insecure
  | 3, _ => .error (dnssecValidationError "DNSSEC NXDOMAIN proof is missing".toList)
  | 0, _ => .error (dnssecValidationError "DNSSEC NODATA proof is missing".toList)
  | _, _ => .error (.wire .panic)

def authenticatedResponseSemantics (sha1 : Bytes → Bytes) (query response : Bytes)
    (records : List ResourceRecord) : Except ResolveError DnssecVerdict := do
  let question ← liftWire (firstQuestion query)
  let header ← liftWire (Header.parse response)
  if header.answerCount > records.length then .error (.wire .panic)
  else do
    let answers := records.take header.answerCount
    let terminalName ← terminalCname response answers question.name.text
    let hasRedirect := !dnsNamesEqual terminalName question.name.text
    let hasRequestedAnswer := answers.any (isRequested question.rrType)
    if header.responseCode = 3 ∨
        (header.responseCode = 0 ∧ hasRequestedAnswer = false ∧ hasRedirect = false) then do
      let denial ← dnssecDenialResult sha1 response records terminalName question.rrType
      denialVerdict header.responseCode denial
    else do
      checkSignatures sha1 response records (answers.filter (·.rrType == typeRrsig))
      .ok .secure

/-! ### The parts of a verdict -/

variable {sha1 : Bytes → Bytes} {query response : Bytes} {records : List ResourceRecord}
  {question : Question} {header : Header} {terminal : Text}

/-- The verdict once the parts of the two packets and the end of the aliases are known. -/
theorem authenticatedResponseSemantics_eq (hquestion : firstQuestion query = .ok question)
    (hheader : Header.parse response = .ok header) (hcount : header.answerCount ≤ records.length)
    (hterminal : terminalCname response (records.take header.answerCount) question.name.text =
      .ok terminal) :
    authenticatedResponseSemantics sha1 query response records =
      if header.responseCode = 3 ∨ (header.responseCode = 0 ∧
          (records.take header.answerCount).any (isRequested question.rrType) = false ∧
          (!dnsNamesEqual terminal question.name.text) = false) then do
        let denial ← dnssecDenialResult sha1 response records terminal question.rrType
        denialVerdict header.responseCode denial
      else
        (checkSignatures sha1 response records
          ((records.take header.answerCount).filter (·.rrType == typeRrsig)) >>= fun _ =>
            .ok .secure) := by
  unfold authenticatedResponseSemantics
  rw [hquestion, hheader, liftWire_ok, liftWire_ok, ok_bind, ok_bind, if_neg (by omega)]
  dsimp only
  rw [hterminal, ok_bind]

/-- A response gets a verdict only with all its answer records and an end of its aliases. -/
theorem authenticatedResponseSemantics_ok {verdict : DnssecVerdict}
    (hquestion : firstQuestion query = .ok question) (hheader : Header.parse response = .ok header)
    (h : authenticatedResponseSemantics sha1 query response records = .ok verdict) :
    header.answerCount ≤ records.length ∧
      ∃ terminal, terminalCname response (records.take header.answerCount) question.name.text =
        .ok terminal := by
  unfold authenticatedResponseSemantics at h
  rw [hquestion, hheader, liftWire_ok, liftWire_ok, ok_bind, ok_bind] at h
  split_ifs at h with hcount
  obtain ⟨terminal, hterminal, -⟩ := of_bind h
  exact ⟨by omega, terminal, hterminal⟩

end RustdResolved.Dnssec.Semantics
