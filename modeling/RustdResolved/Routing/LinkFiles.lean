import RustdResolved.Routing.Links
import RustdResolved.Routing.SpecText

/-! # The link files of networkd

`networkd.rs` reads one file for each link, which is named by the index of the link. A file that has
vanished is passed over, and one that cannot be read or parsed ends the reading for all links. -/

namespace RustdResolved.Routing.LinkFiles

open Lib Maps Result Distinct Wire.Octets Resolver.Modes
open Dnssec.NameText (trim)
open Dnssec.TrustAnchors (lines splitWhitespace parseUnsigned)
open Routing.Table (DnsServerSpec Domain)
open Links SpecText

inductive IoError
  | invalidData (message : Text)
  | other
  deriving DecidableEq

inductive OperationalState
  | missing | off | noCarrier | dormant | degradedCarrier | carrier | degraded | enslaved | routable
  | unknown
  deriving DecidableEq

structure LinkFile extends NetworkdLinkState where
  operstate : OperationalState
  deriving DecidableEq

/-! ### Values -/

section
variable {α : Type}

def named (table : List (String × α)) (value : Text) : Option α :=
  (table.find? (·.1.toList = value)).map (·.2)

def OperationalState.parse : Option Text → OperationalState
  | none => .missing
  | some value => (named [("off", .off), ("no-carrier", .noCarrier), ("dormant", .dormant),
      ("degraded-carrier", .degradedCarrier), ("carrier", .carrier), ("degraded", .degraded),
      ("enslaved", .enslaved), ("routable", .routable)] value).getD .unknown

def parseNamed (table : List (String × α)) (message : String) (value : Text) : Except IoError α :=
  match named table ((trim value).map Char.toLower) with
  | some meaning => .ok meaning
  | none => .error (.invalidData (message.toList ++ value))

end

def parseBool : Text → Except IoError Bool :=
  parseNamed [("yes", true), ("true", true), ("on", true), ("1", true), ("no", false),
    ("false", false), ("off", false), ("0", false)] "invalid networkd boolean "

def parseSupportMode : Text → Except IoError SupportMode :=
  parseNamed [("yes", .yes), ("resolve", .resolve), ("no", .no)]
    "invalid networkd resolver support mode "

def parseTlsMode : Text → Except IoError TlsMode :=
  parseNamed [("no", .no), ("opportunistic", .opportunistic), ("yes", .yes)]
    "invalid networkd DNS-over-TLS mode "

def parseValidationMode : Text → Except IoError ValidationMode :=
  parseNamed [("no", .no), ("allow-downgrade", .allowDowngrade), ("yes", .yes)]
    "invalid networkd DNSSEC mode "

section
variable (value : Text)

def normalizeName : Except IoError Text :=
  let value := trim value
  if [".", "~", "~."].any (·.toList = value) then .ok ['.']
  else
    let value := (if value.head? = some '~' then value.tail else value).rdropWhile (· == '.')
    if value.isEmpty || !value.all (·.toNat < 128) || 253 < value.length ||
        (value.splitOn '.').any (fun label => label.isEmpty || 63 < label.length) then
      .error (.invalidData ("invalid networkd DNS domain ".toList ++ value))
    else .ok (value.map Char.toLower)

def parseNames : Except IoError (List Text) := do
  return pushAllNew [] (← (splitWhitespace value).mapM normalizeName)

def parseDomains (routeOnly : Bool) : Except IoError (List Domain) := do
  return (← parseNames value).map (⟨·, routeOnly⟩)

/-! ### A file -/

def unquote : Text :=
  if 2 ≤ value.length ∧ (value.head? = some '"' ∧ value.getLast? = some '"' ∨
      value.head? = some (.ofNat 39) ∧ value.getLast? = some (.ofNat 39)) then value.tail.dropLast
  else value

end

/-- A later line of a key replaces an earlier one. -/
def parseEnvironment (text : Text) : FiniteMap Text Text :=
  let addLine (values : FiniteMap Text Text) (line : Text) :=
    if line.head? = some '#' then values
    else
      match line.dropWhile (· != '=') with
      | [] => values
      | _ :: value => values.insert (trim (line.takeWhile (· != '='))) (unquote (trim value))
  ((lines text).map trim).foldl addLine ∅

section
variable (net : Net)

def parseDnsSpecs (value : Text) : Except IoError (List DnsServerSpec) := do
  return pushAllNew [] (← (splitWhitespace value).mapM fun token =>
    (parseServerSpec net token).mapError (.invalidData ·.toText))

def parseLinkState (ifindex : Int) (text : Text) : Except IoError LinkFile :=
  let get (key : String) := (parseEnvironment text).lookup key.toList
  let operstate := OperationalState.parse (get "OPER_STATE")
  if (get "ADMIN_STATE").all fun state =>
      ["pending", "initialized", "unmanaged"].any (·.toList = state) then
    .ok ⟨⟨ifindex, false, [], [], [], none, .yes, .yes, none, none, []⟩, operstate⟩
  else do
    let dnsServerSpecs ← parseDnsSpecs net ((get "DNS").getD [])
    let domains ← parseDomains ((get "DOMAINS").getD []) false
    let routeDomains ← parseDomains ((get "ROUTE_DOMAINS").getD []) true
    let defaultRoute ← (get "DNS_DEFAULT_ROUTE").mapM parseBool
    let llmnr ← (get "LLMNR").mapM parseSupportMode
    let multicastDns ← (get "MDNS").mapM parseSupportMode
    let dnsOverTls ← (get "DNS_OVER_TLS").mapM parseTlsMode
    let dnssec ← (get "DNSSEC").mapM parseValidationMode
    let anchors ← parseNames ((get "DNSSEC_NTA").getD [])
    return ⟨⟨ifindex, true, pushAllNew [] (dnsServerSpecs.map (·.address)), dnsServerSpecs,
      pushAllNew domains routeDomains, defaultRoute, llmnr.getD .yes, multicastDns.getD .yes,
      dnsOverTls, dnssec, anchors⟩, operstate⟩

/-! ### The directory -/

/-- What the reading of a file gives. -/
inductive Content
  | text (text : Text)
  | vanished
  | failed (error : IoError)

/-- A file, with its name if it is UTF-8. -/
structure DirEntry where
  name : Option Text
  content : Content

def DirEntry.ifindex (entry : DirEntry) : Option Nat :=
  (entry.name.bind (parseUnsigned (2 ^ 31))).filter (0 < ·)

def readEntry : Except IoError DirEntry → Except IoError (Option LinkFile)
  | .error error => .error error
  | .ok entry =>
    match entry.ifindex, entry.content with
    | none, _ => .ok none
    | some ifindex, .text text => return some (← parseLinkState net ifindex text)
    | some _, .vanished => .ok none
    | some _, .failed error => .error error

/-- `listing` is what the directory holds, if it is there. -/
def readDirectory (listing : Except IoError (Option (List (Except IoError DirEntry)))) :
    Except IoError (List LinkFile) :=
  match listing with
  | .error error => .error error
  | .ok entries => do
    let states ← (entries.getD []).mapM (readEntry net)
    return (states.filterMap id).insertionSort (·.ifindex ≤ ·.ifindex)

variable {net}

theorem ifindex_parseLinkState {ifindex : Int} {text : Text} {state : LinkFile}
    (h : parseLinkState net ifindex text = .ok state) : state.ifindex = ifindex := by
  unfold parseLinkState at h
  dsimp only at h
  split_ifs at h
  · cases h
    rfl
  · simp only [bind_eq_ok, pure_eq] at h
    grind

/-- **A link is reported as its own file says exactly if every other file can be read**, or has
vanished, and no other file of the link says something else. -/
theorem link_files_isolated (net : Net) {entries : List (Except IoError DirEntry)}
    {own : DirEntry} {ifindex : Nat} {text : Text} {state : LinkFile} (hown : .ok own ∈ entries)
    (hindex : own.ifindex = some ifindex) (htext : own.content = .text text)
    (hparse : parseLinkState net ifindex text = .ok state) :
    (∃ states, readDirectory net (.ok (some entries)) = .ok states ∧
      ∀ other, other ∈ states ∧ other.ifindex = ifindex ↔ other = state) ↔
      ∀ entry ∈ entries, ∃ found, readEntry net entry = .ok found ∧
        ∀ other ∈ found, other.ifindex = ifindex → other = state := by
  have hread : readEntry net (.ok own) = .ok (some state) := by
    simp [readEntry, hindex, htext, hparse, ok_bind, pure_eq]
  have hmem : ∀ {found other}, entries.mapM (readEntry net) = .ok found →
      (other ∈ (found.filterMap id).insertionSort (·.ifindex ≤ ·.ifindex) ↔
        ∃ entry ∈ entries, readEntry net entry = .ok (some other)) := fun hfound => by
    simp [← mem_mapM_iff hfound]
  constructor
  · rintro ⟨states, hstates, hsame⟩ entry hentry
    obtain ⟨found, hfound, hstates⟩ := of_bind hstates
    cases hstates
    obtain ⟨result, hresult⟩ := exists_mapM_ok_iff.mp ⟨found, hfound⟩ entry hentry
    refine ⟨result, hresult, ?_⟩
    rintro other rfl hother
    exact (hsame other).mp ⟨(hmem hfound).mpr ⟨entry, hentry, hresult⟩, hother⟩
  · intro hall
    obtain ⟨found, hfound⟩ := exists_mapM_ok_iff.mpr fun entry hentry =>
      (hall entry hentry).imp fun _ h => h.1
    refine ⟨_, bind_eq_ok.mpr ⟨found, hfound, rfl⟩, fun other => ?_⟩
    rw [hmem hfound]
    constructor
    · rintro ⟨⟨entry, hentry, hother⟩, hindex⟩
      obtain ⟨result, hresult, hsame⟩ := hall entry hentry
      cases hresult.symm.trans hother
      exact hsame other rfl hindex
    · rintro rfl
      exact ⟨⟨_, hown, hread⟩, ifindex_parseLinkState hparse⟩

end

def routableFile : Content :=
  .text "ADMIN_STATE=configured\nOPER_STATE=routable\nDNS=192.0.2.53\n".toList

def routableLink : LinkFile :=
  let server := .v4 (.new 192 0 2 53) 53
  ⟨⟨2, true, [server], [⟨server, none, none⟩], [], none, .yes, .yes, none, none, []⟩, .routable⟩

theorem link_files_isolated_vanished : ∃ states, readDirectory Full.net (.ok (some
    [.ok ⟨some ['2'], routableFile⟩, .ok ⟨some ['3'], .vanished⟩])) = .ok states ∧
      ∀ other, other ∈ states ∧ other.ifindex = 2 ↔ other = routableLink := by
  refine (link_files_isolated Full.net List.mem_cons_self (by decide +kernel) rfl
    (by decide +kernel)).mpr ?_
  rw [List.forall_mem_cons, List.forall_mem_singleton]
  exact ⟨⟨some routableLink, by decide +kernel, by simp⟩, none, by decide +kernel, by simp⟩

/-- A value of link 3 is malformed, and link 2 is not reported. -/
theorem malformed_file_hides_link :
    readEntry Full.net (.ok ⟨some ['2'], routableFile⟩) = .ok (some routableLink) ∧
      readDirectory Full.net (.ok (some [.ok ⟨some ['2'], routableFile⟩,
        .ok ⟨some ['3'], .text "ADMIN_STATE=configured\nLLMNR=maybe\n".toList⟩])) =
      .error (.invalidData "invalid networkd resolver support mode maybe".toList) := by
  decide +kernel

end RustdResolved.Routing.LinkFiles
