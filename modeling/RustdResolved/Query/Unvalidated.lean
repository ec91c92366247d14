import RustdResolved.Dnssec.SignerContainment
import RustdResolved.Query.Origins

/-! # Responses without validation

A request can ask for no validation, by the CD bit of its query or by its flags. Other requests may
get the response that it gets. The CD bit is part of the keys under which responses are passed on,
and the flags are not: a request that asks for validation is delivered a response without it
(`plain_request_gets_unvalidated`), unless no request with the flag shares a key with it
(`unvalidated_kept_apart`). -/

namespace RustdResolved.Query.Unvalidated

open Lib Result Runs Wire Octets PacketHeader Record Packet Resolver Error Modes
open Dnssec.Rrsets (negativeTrustAnchorMatches nearestAnchorIsNegative_nil)
open Dnssec Authenticate SignerContainment Store Upstreams OnLink Origins

variable {config : Config} {request : Request}

/-- The query of a request has the CD bit. -/
def ChecksDisabled (request : Request) : Prop :=
  ∃ header, Header.parse request.query = .ok header ∧ header.checkingDisabled = true

/-- The name that a request asks for is under a negative trust anchor. -/
def NegativelyAnchored (config : Config) (scope : ScopeKind) (request : Request) : Prop :=
  ∃ question, firstQuestion request.query = .ok question ∧
    negativeTrustAnchorMatches question.name.text (config.negativeAnchors scope)
      config.positiveAnchors = true

structure AsksForValidation (config : Config) (request : Request) : Prop where
  mode : ∀ scope, config.dnssec scope = .yes
  checks : ¬ ChecksDisabled request
  validates : hasFlag request.flags rustdResolveNoValidate = false
  anchors : hasFlag request.flags rustdResolveNoTrustAnchor = false
  uncovered : ∀ scope, ¬ NegativelyAnchored config scope request

/-- The response was not validated because the request that got it did not want it to be. -/
def SkippedByFlags (origin : Origin) : Prop :=
  origin.verdict = .notValidated ∧
    (ChecksDisabled origin.request ∨ hasFlag origin.request.flags rustdResolveNoValidate = true)

/-- The other request is not one that shares a key with this one and asks for no validation. -/
def KeptApart (request other : Request) : Prop :=
  Linked request other → hasFlag other.flags rustdResolveNoValidate = false

/-! ### The CD bit is part of the keys -/

theorem checksDisabled_iff_of_hasKey {key : CacheKey} (h : HasKey request key) :
    ChecksDisabled request ↔ key.checkingDisabled = true := by
  obtain ⟨id, h⟩ := h
  obtain ⟨header, hheader, h⟩ := of_bind h
  obtain ⟨question, -, h⟩ := of_bind h
  have hparse := liftWire_eq_ok.mp hheader
  cases h
  constructor
  · rintro ⟨other, hother, hdisabled⟩
    rw [hparse] at hother
    cases hother
    exact hdisabled
  · intro hdisabled
    exact ⟨header, hparse, hdisabled⟩

/-- Queries with one key in flight are equal but for their identifiers. -/
theorem checksDisabled_of_inflightKey {other : Request} {flight : InflightKey}
    (hrequest : request.inflightKey = .ok flight) (hother : other.inflightKey = .ok flight)
    (h : ChecksDisabled other) : ChecksDisabled request := by
  obtain ⟨query, hquery, hrequest⟩ := of_bind hrequest
  obtain ⟨query', hquery', hother⟩ := of_bind hother
  obtain ⟨hlength, hbytes⟩ := rewriteId_eq_ok.mp (liftWire_eq_ok.mp hquery)
  obtain ⟨hlength', hbytes'⟩ := rewriteId_eq_ok.mp (liftWire_eq_ok.mp hquery')
  have hdrop : request.query.drop 2 = other.query.drop 2 := by
    have hsame : query = query' := by
      cases hrequest
      exact congrArg InflightKey.query (Except.ok.inj hother).symm
    rw [hbytes, hbytes'] at hsame
    exact List.append_cancel_left hsame
  obtain ⟨header, hheader, hdisabled⟩ := h
  have hshort : ¬ other.query.length < dnsHeaderLen := by
    intro hshort
    rw [Header.parse, if_pos hshort] at hheader
    cases hheader
  have hlengths := congrArg List.length hdrop
  rw [List.length_drop, List.length_drop] at hlengths
  obtain ⟨header₁, hparse, hflags⟩ := @Header.parse_isOk request.query (by omega)
  obtain ⟨header₂, hparse', hflags'⟩ := @Header.parse_isOk other.query (by omega)
  rw [hheader] at hparse'
  cases hparse'
  have hread : readU16 request.query 2 = readU16 other.query 2 := by simp only [readU16, hdrop]
  rw [hflags, hflags'] at hread
  exact ⟨header₁, hparse, by rw [Header.checkingDisabled, Except.ok.inj hread]; exact hdisabled⟩

theorem checksDisabled_of_linked {origin : Request} (hlinked : Linked request origin)
    (h : ChecksDisabled origin) : ChecksDisabled request := by
  obtain ⟨between, key, flight, hbetween, hrequest, hkey, horigin⟩ := hlinked
  refine checksDisabled_of_inflightKey hrequest hbetween ?_
  rw [checksDisabled_iff_of_hasKey hkey, ← checksDisabled_iff_of_hasKey horigin]
  exact h

/-! ### Runs -/

section
variable {cacheSize maximumTtl staleRetention : Nat} {storeNegative : Bool} {inputs : List Input}
  {delivered : Delivered}

/-- **Responses without validation stay with those who asked for them**: in every run in which no
request with the flag shares a key with a request that asks for validation, the latter is not
delivered a response whose validation was skipped. -/
theorem unvalidated_kept_apart (hasks : AsksForValidation config request)
    (hinputs : AllSteps (step config) (Admitted (KeptApart request))
      (System.new cacheSize maximumTtl staleRetention storeNegative) inputs)
    (hdelivered : ⟨request, .done (.ok delivered)⟩ ∈ (run (step config)
      (System.new cacheSize maximumTtl staleRetention storeNegative) inputs).clients) :
    ¬ SkippedByFlags delivered.origin := by
  obtain ⟨hgenuine, hlinked⟩ := @run_originsOk _ _ (fun _ _ => True) _ _ _ _ _ _ _
    ⟨fun h _ => h, fun h _ => h⟩ hinputs
    (allSteps_of_forall fun _ _ _ _ _ _ _ _ _ _ _ _ _ _ _ _ _ => trivial) hdelivered
  rintro ⟨-, hdisabled | hflag⟩
  · exact hasks.checks (checksDisabled_of_linked hlinked hdisabled)
  · rw [hgenuine.admitted hlinked] at hflag
    cases hflag

end

/-! ### A request that does not want validation -/

/-- DNSSEC is required, with the key of the root as the only anchor. -/
def strictConfig : Config :=
  { cache := true
    cacheFromLocalhost := false
    attempts := 24
    dnssec := fun _ => .yes
    negativeAnchors := fun _ => []
    positiveAnchors := delegationSurroundings.positiveAnchors }

def answerMoment (answer : Bytes) : Moment :=
  { now := 0
    cancelled := false
    order := id
    routing := .ok [⟨.global, [⟨false, false⟩]⟩]
    outside := fun _ =>
      { attempt := fun _ =>
          ⟨false, false, some 0, .ok answer, delegationSurroundings, startWorld, false⟩
        expired := false
        exhausted := false }
    arrivals := id }

/-- An address of `www.victim`, without a signature. -/
def forgedAddress : Bytes :=
  responseWire 0x8180 victim typeA [recordWire victim typeA 60 [192, 0, 2, 66]] []

def victimRequest (flags : Nat) : Request := ⟨addressQuery victim, flags, none, 1⟩

/-- A request arrives and takes some steps. -/
def ofRequest (place steps : Nat) (query : Bytes) (flags : Nat) (answer : Bytes) : List Input :=
  .arrive query flags none :: List.replicate steps (.advance place (answerMoment answer))

/-- The resolver at its start, with the configured defaults for the cache. -/
def newSystem : System := System.new 4096 (2 * 60 * 60 * 1000000000) 0 true

/-- The forged address, as it is delivered from the cache. -/
def leaked : Delivered :=
  ⟨forgedAddress, rustdResolveDns ||| rustdResolveFromCache, none,
    ⟨victimRequest rustdResolveNoValidate, .notValidated, .global⟩⟩

theorem asksForValidation_strict {owner : List Bytes} (header : Header)
    (hparse : Header.parse (addressQuery owner) = .ok header)
    (hchecks : header.checkingDisabled = false) :
    AsksForValidation strictConfig ⟨addressQuery owner, 0, none, 1⟩ := by
  refine ⟨fun _ => rfl, ?_, hasFlag_zero _, hasFlag_zero _, ?_⟩
  · rintro ⟨other, hother, hdisabled⟩
    rw [hparse] at hother
    cases hother
    rw [hchecks] at hdisabled
    cases hdisabled
  · rintro scope ⟨question, -, hmatches⟩
    rw [negativeTrustAnchorMatches, strictConfig, nearestAnchorIsNegative_nil] at hmatches
    cases hmatches

/-- **A request without flags is delivered the forged address** that a request with the flag
`NO_VALIDATE` got before it. Alone, it gets an error. -/
theorem plain_request_gets_unvalidated :
    AsksForValidation strictConfig (victimRequest 0) ∧ SkippedByFlags leaked.origin ∧
      ⟨victimRequest 0, .done (.ok leaked)⟩ ∈ (run (step strictConfig) newSystem
        (ofRequest 0 7 (addressQuery victim) rustdResolveNoValidate forgedAddress ++
          ofRequest 1 1 (addressQuery victim) 0 forgedAddress)).clients ∧
      ⟨victimRequest 0,
          .done (.error (dnssecValidationError "DNSSEC signature is missing".toList))⟩ ∈
        (run (step strictConfig) newSystem
          (ofRequest 0 7 (addressQuery victim) 0 forgedAddress)).clients :=
  ⟨asksForValidation_strict ⟨0, flagRd, 1, 0, 0, 0⟩ (by decide) (by decide),
    ⟨rfl, Or.inr (by decide)⟩, by decide +kernel, by decide +kernel⟩

def ownRequest : Request := ⟨addressQuery ownName, 0, none, 1⟩

/-- An address of `www.evil`, signed by its zone, as it is delivered. -/
def ownDelivered : Delivered :=
  ⟨match setAuthenticatedData (addressByEvil ownName) true with
    | .ok packet => packet
    | .error _ => [],
    rustdResolveAuthenticated ||| rustdResolveDns ||| rustdResolveFromNetwork, none,
    ⟨ownRequest, .secure, .global⟩⟩

def uncheckedQuery : Bytes := (addressQuery ownName).set 3 0x10

/-- A request with the CD bit that does not want validation, and one for the same name that does. -/
def uncheckedThenOwn : List Input :=
  ofRequest 0 7 uncheckedQuery rustdResolveNoValidate (addressByEvil ownName) ++
    ofRequest 1 7 (addressQuery ownName) 0 (addressByEvil ownName)

/-- The second of the requests is delivered a response that was validated for it. -/
theorem unvalidated_kept_apart_second :
    ⟨ownRequest, .done (.ok ownDelivered)⟩ ∈
        (run (step strictConfig) newSystem uncheckedThenOwn).clients ∧
      ¬ SkippedByFlags ownDelivered.origin := by
  have hmem : ⟨ownRequest, .done (.ok ownDelivered)⟩ ∈
      (run (step strictConfig) newSystem uncheckedThenOwn).clients := by
    decide +kernel
  have hasks : AsksForValidation strictConfig ownRequest :=
    asksForValidation_strict ⟨0, flagRd, 1, 0, 0, 0⟩ (by decide) (by decide)
  have hparse : Header.parse uncheckedQuery = .ok ⟨0, flagRd ||| flagCd, 1, 0, 0, 0⟩ := by decide
  refine ⟨hmem, unvalidated_kept_apart hasks (allSteps_of_forall ?_) hmem⟩
  rintro input hinput system other harriving hlinked
  rcases List.mem_append.mp hinput with hfirst | hsecond
  · rcases List.mem_cons.mp hfirst with rfl | hadvance
    · cases harriving
      exact absurd (checksDisabled_of_linked hlinked ⟨_, hparse, by decide⟩) hasks.checks
    · rw [List.eq_of_mem_replicate hadvance] at harriving
      cases harriving
  · rcases List.mem_cons.mp hsecond with rfl | hadvance
    · cases harriving
      exact hasFlag_zero _
    · rw [List.eq_of_mem_replicate hadvance] at harriving
      cases harriving

end RustdResolved.Query.Unvalidated
