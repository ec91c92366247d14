import RustdResolved.Dnssec.PublishedAnchors
import RustdResolved.Routing.Table

/-! # Servers as text

A server is written as its address, its interface after `%` and its name for TLS after `#`. Reading
and printing addresses is left to the standard library, and `Net` says what is taken for granted of
it; `Full.net` has it for addresses that are written in full. -/

namespace RustdResolved.Routing.SpecText

open List Lib.Result Wire.Octets Dnssec.NameText Table
open Wire.Redirects (Ipv4Addr Ipv6Addr IpAddr ipv4Of ipv6Of ipv4Of_toList ipv6Of_toList)
open Dnssec.TrustAnchors (parseUnsigned)
open Dnssec.PublishedAnchors (parseUnsigned_decimal)

/-- `SocketAddr::new`. -/
def socketAddr : IpAddr → UInt16 → SocketAddr
  | .v4 ip, port => .v4 ip port
  | .v6 ip, port => .v6 ip port 0 0

def portOf : SocketAddr → UInt16
  | .v4 _ port | .v6 _ port _ _ => port

/-- The text of an address with its port, in brackets for IPv6. -/
def withPort : IpAddr → Text → UInt16 → Text
  | .v4 _, ip, port => ip ++ ':' :: decimal port.toNat
  | .v6 _, ip, port => '[' :: ip ++ ']' :: ':' :: decimal port.toNat

/-- No white space and no sign of a field. -/
def isPlain (c : Char) : Bool := !isWhitespace c && c != '#' && c != '%'

structure Net where
  parseIp : Text → Option IpAddr
  printIp : IpAddr → Text
  parseSocketAddr : Text → Option SocketAddr
  parseIp_printIp : ∀ ip, parseIp (printIp ip) = some ip
  parseSocketAddr_printIp : ∀ ip, parseSocketAddr (printIp ip) = none
  parseSocketAddr_withPort : ∀ ip port,
    parseSocketAddr (withPort ip (printIp ip) port) = some (socketAddr ip port)
  /-- Only a zone, after `%`, gives an address a scope. -/
  unscoped : ∀ {text address}, parseSocketAddr text = some address → '%' ∉ text →
    address = socketAddr (ipOf address) (portOf address)
  printIp_plain : ∀ ip, printIp ip ≠ [] ∧ ∀ c ∈ printIp ip, isPlain c = true

inductive ConfigError
  | invalidServer (server : Text)
  deriving DecidableEq, Repr

def ConfigError.toText : ConfigError → Text
  | .invalidServer server => "invalid DNS server: ".toList ++ server

def validInterface (value : Text) : Bool :=
  !value.isEmpty && value.all (·.toNat < 128) && !value.any isWhitespace && !value.contains '%' &&
    !value.contains '#'

def validServerName (value : Text) : Bool :=
  let value := if value.getLast? = some '.' then value.dropLast else value
  !value.isEmpty && value.all (·.toNat < 128) && value.length ≤ 253 && !value.contains '%' &&
    !value.contains '#' && (value.splitOn '.').all fun label => !label.isEmpty && label.length ≤ 63

/-- Takes a field after a sign off a text; `value` is the whole text, for the error. -/
def splitField (value : Text) (sign : Char) (valid : Text → Bool) (text : Text) :
    Except ConfigError (Text × Option Text) :=
  match text.dropWhile (· != sign) with
  | [] => .ok (text, none)
  | _ :: field =>
    if valid field then .ok (text.takeWhile (· != sign), some field) else .error
      (.invalidServer value)

def parseServerSpec (net : Net) (value : Text) : Except ConfigError DnsServerSpec :=
  let original := trim value
  if original.isEmpty then .error (.invalidServer value)
  else do
    let (addressAndInterface, serverName) ← splitField value '#' validServerName original
    let (address, interface) ← splitField value '%' validInterface addressAndInterface
    if '#' ∈ address ∨ '%' ∈ address then .error (.invalidServer value)
    else
      match net.parseSocketAddr address with
      | some address => .ok ⟨address, interface, serverName⟩
      | none =>
        match net.parseIp address with
        | some ip => .ok ⟨socketAddr ip 53, interface, serverName⟩
        | none => .error (.invalidServer value)

/-- A field behind its sign. -/
def putField (sign : Char) : Option Text → Text
  | some field => sign :: field
  | none => []

def formatAddress (net : Net) (address : SocketAddr) : Text :=
  let ip := ipOf address
  if portOf address = 53 then net.printIp ip else withPort ip (net.printIp ip) (portOf address)

def formatServerSpec (net : Net) (spec : DnsServerSpec) : Text :=
  formatAddress net spec.address ++ putField '%' spec.interface ++ putField '#' spec.serverName

/-! ### Addresses in full

Texts as the standard library reads and prints them, with IPv6 addresses in eight groups of four
digits, none left out. -/

namespace Full

def octet (field : Text) : Option UInt8 :=
  ((parseUnsigned 256 field).filter (decimal · = field)).map UInt8.ofNat

def parseV4 (text : Text) : Option IpAddr :=
  ((text.splitOn '.').mapM octet).bind fun octets => (ipv4Of octets).toOption

def hexDigit (c : Char) : Option Nat := (range 16).find? (Nat.digitChar · == c)

def hexPair (octet : UInt8) : Text :=
  [Nat.digitChar (octet.toNat / 16), Nat.digitChar (octet.toNat % 16)]

def groups : Bytes → List Text
  | a :: b :: rest => (hexPair a ++ hexPair b) :: groups rest
  | _ => []

def group : Text → Option Bytes
  | [a, b, c, d] => do
    return [UInt8.ofNat ((← hexDigit a) * 16 + (← hexDigit b)),
      UInt8.ofNat ((← hexDigit c) * 16 + (← hexDigit d))]
  | _ => none

def parseV6 (text : Text) : Option IpAddr :=
  ((text.splitOn ':').mapM group).bind fun octets => (ipv6Of octets.flatten).toOption

def parseIp (text : Text) : Option IpAddr := if ':' ∈ text then parseV6 text else parseV4 text

def printIp : IpAddr → Text
  | .v4 octets => ['.'].intercalate (octets.toList.map fun octet => decimal octet.toNat)
  | .v6 octets => [':'].intercalate (groups octets.toList)

def parsePort (ip : Option IpAddr) (port : Text) : Option SocketAddr := do
  return socketAddr (← ip) (UInt16.ofNat (← parseUnsigned 65536 port))

def parseSocketAddr : Text → Option SocketAddr
  | '[' :: rest =>
    match rest.splitOn ']' with
    | [ip, ':' :: port] => parsePort (parseV6 ip) port
    | _ => none
  | text =>
    match text.splitOn ':' with
    | [ip, port] => parsePort (parseV4 ip) port
    | _ => none

theorem hexDigit_digitChar : ∀ d < 16, hexDigit (Nat.digitChar d) = some d := by decide

theorem group_hexPair (a b : UInt8) : group (hexPair a ++ hexPair b) = some [a, b] := by
  have hhigh : ∀ octet : UInt8, hexDigit (Nat.digitChar (octet.toNat / 16)) =
      some (octet.toNat / 16) :=
    fun octet => hexDigit_digitChar _ (Nat.div_lt_of_lt_mul octet.toNat_lt)
  have hlow : ∀ octet : UInt8, hexDigit (Nat.digitChar (octet.toNat % 16)) =
      some (octet.toNat % 16) :=
    fun octet => hexDigit_digitChar _ (Nat.mod_lt _ (by decide))
  have hvalue : ∀ octet : UInt8, UInt8.ofNat (octet.toNat / 16 * 16 + octet.toNat % 16) = octet :=
    fun octet => by rw [Nat.div_add_mod', UInt8.ofNat_toNat]
  simp only [hexPair, cons_append, nil_append, group, hhigh, hlow, Option.bind_eq_bind,
    Option.bind_some, hvalue]
  rfl

theorem mapM_octet (octets : Bytes) :
    (octets.map fun octet => decimal octet.toNat).mapM octet = some octets := by
  induction octets with
  | nil => rfl
  | cons a octets ih =>
    have hfirst : octet (decimal a.toNat) = some a := by
      simp [octet, parseUnsigned_decimal a.toNat_lt]
    simp [hfirst, ih]

theorem mapM_group : ∀ octets : Bytes, octets.length % 2 = 0 →
    ∃ read, (groups octets).mapM group = some read ∧ read.flatten = octets
  | [], _ => ⟨[], rfl, rfl⟩
  | a :: b :: rest, h => by
    obtain ⟨read, hread, hflat⟩ := mapM_group rest (by simpa [Nat.add_assoc] using h)
    exact ⟨[a, b] :: read, by simp [groups, group_hexPair, hread], by simp [hflat]⟩

theorem forall_groups {p : Char → Prop} (hdigit : ∀ d < 16, p (Nat.digitChar d)) :
    ∀ octets, ∀ field ∈ groups octets, ∀ c ∈ field, p c
  | a :: b :: rest => by
    have hpair : ∀ octet, ∀ c ∈ hexPair octet, p c := fun octet => by
      simpa [hexPair] using ⟨hdigit _ (Nat.div_lt_of_lt_mul octet.toNat_lt),
        hdigit _ (Nat.mod_lt _ (by decide))⟩
    exact forall_mem_cons.mpr ⟨forall_mem_append.mpr ⟨hpair a, hpair b⟩, forall_groups hdigit rest⟩
  | [_] | [] => by simp [groups]

theorem forall_intercalate {p : Char → Prop} {sign : Char} (hsign : p sign) :
    ∀ {fields : List Text}, (∀ field ∈ fields, ∀ c ∈ field, p c) →
      ∀ c ∈ [sign].intercalate fields, p c
  | [], _ => by simp
  | [field], h => by simpa using h
  | field :: next :: rest, h => by
    obtain ⟨hfirst, hrest⟩ := forall_mem_cons.mp h
    have hsplit : [sign].intercalate (field :: next :: rest) =
        field ++ sign :: [sign].intercalate (next :: rest) := by simp [intercalate, intersperse]
    rw [hsplit]
    exact forall_mem_append.mpr
      ⟨hfirst, forall_mem_cons.mpr ⟨hsign, forall_intercalate hsign hrest⟩⟩

theorem forall_v4 {p : Char → Prop} (hdigit : ∀ d < 10, p (Char.ofNat (48 + d))) (hdot : p '.')
    (octets : Ipv4Addr) : ∀ c ∈ printIp (.v4 octets), p c :=
  forall_intercalate hdot (forall_mem_map.mpr fun _ _ => forall_decimal hdigit)

theorem forall_v6 {p : Char → Prop} (hdigit : ∀ d < 16, p (Nat.digitChar d)) (hcolon : p ':')
    (octets : Ipv6Addr) : ∀ c ∈ printIp (.v6 octets), p c :=
  forall_intercalate hcolon (forall_groups hdigit octets.toList)

theorem parseV4_printIp (octets : Ipv4Addr) :
    parseV4 (printIp (.v4 octets)) = some (.v4 octets) := by
  have hdots : ∀ field ∈ octets.toList.map fun octet => decimal octet.toNat, '.' ∉ field := by
    intro field hfield hbad
    obtain ⟨octet, -, rfl⟩ := mem_map.mp hfield
    exact forall_decimal (p := (· ≠ '.')) (by decide) _ hbad rfl
  have hsome : (octets.toList.map fun octet => decimal octet.toNat) ≠ [] := by
    simp
  rw [parseV4, printIp, splitOn_intercalate '.' hdots hsome, mapM_octet, Option.bind_some,
    ipv4Of_toList]
  rfl

theorem length_groups : ∀ octets : Bytes, (groups octets).length = octets.length / 2
  | a :: b :: rest => by
    rw [groups, length_cons, length_groups rest, length_cons, length_cons]
    omega
  | [_] | [] => by simp [groups]

theorem splitOn_printIp (octets : Ipv6Addr) :
    (printIp (.v6 octets)).splitOn ':' = groups octets.toList := by
  refine splitOn_intercalate ':' (fun field hfield hbad => ?_) ?_
  · exact forall_groups (p := (· ≠ ':')) (by decide) _ field hfield _ hbad rfl
  · simp [← length_pos_iff, length_groups]

theorem parseV6_printIp (octets : Ipv6Addr) :
    parseV6 (printIp (.v6 octets)) = some (.v6 octets) := by
  obtain ⟨read, hread, hflat⟩ := mapM_group octets.toList (by simp)
  rw [parseV6, splitOn_printIp, hread, Option.bind_some, hflat, ipv6Of_toList]
  rfl

theorem splitOn_of_notMem {sign : Char} {text : Text} (h : sign ∉ text) :
    text.splitOn sign = [text] := by
  have hparts : ∀ part ∈ [text], sign ∉ part := by simpa using h
  simpa using splitOn_intercalate sign hparts (by simp)

theorem parsePort_some (ip : IpAddr) (port : UInt16) :
    parsePort (some ip) (decimal port.toNat) = some (socketAddr ip port) := by
  simp [parsePort, parseUnsigned_decimal port.toNat_lt]

theorem notMem_decimal {c : Char} (h : ∀ d < 10, Char.ofNat (48 + d) ≠ c) (n : Nat) :
    c ∉ decimal n := fun hbad => forall_decimal (p := (· ≠ c)) h _ hbad rfl

theorem parseSocketAddr_of_notMem {text : Text} (h : '[' ∉ text) :
    parseSocketAddr text = match text.splitOn ':' with
      | [ip, port] => parsePort (parseV4 ip) port
      | _ => none := by
  unfold parseSocketAddr
  split
  · simp at h
  · rfl

theorem bracket_notMem (octets : Ipv4Addr) : '[' ∉ printIp (.v4 octets) := fun hbad =>
  forall_v4 (p := (· ≠ '[')) (by decide) (by decide) octets _ hbad rfl

theorem colon_notMem (octets : Ipv4Addr) : ':' ∉ printIp (.v4 octets) := fun hbad =>
  forall_v4 (p := (· ≠ ':')) (by decide) (by decide) octets _ hbad rfl

theorem parseIp_printIp : ∀ ip, parseIp (printIp ip) = some ip
  | .v4 octets => by rw [parseIp, if_neg (colon_notMem octets), parseV4_printIp]
  | .v6 octets => by
    have hcolon : ':' ∈ printIp (.v6 octets) := by
      by_contra hnone
      have hlength := congrArg length (splitOn_printIp octets)
      rw [splitOn_of_notMem hnone, length_groups] at hlength
      simp at hlength
    rw [parseIp, if_pos hcolon, parseV6_printIp]

/-- An address alone is no socket address. -/
theorem parseSocketAddr_printIp : ∀ ip, parseSocketAddr (printIp ip) = none
  | .v4 octets => by
    rw [parseSocketAddr_of_notMem (bracket_notMem octets), splitOn_of_notMem (colon_notMem octets)]
  | .v6 octets => by
    have hopen : '[' ∉ printIp (.v6 octets) := fun hbad =>
      forall_v6 (p := (· ≠ '[')) (by decide) (by decide) octets _ hbad rfl
    have hlength := length_groups octets.toList
    rw [parseSocketAddr_of_notMem hopen, splitOn_printIp]
    split
    case h_1 heq =>
      rw [heq] at hlength
      simp at hlength
    case h_2 => rfl

theorem parseSocketAddr_withPort : ∀ ip port,
    parseSocketAddr (withPort ip (printIp ip) port) = some (socketAddr ip port)
  | .v4 octets, port => by
    have hfields : withPort (.v4 octets) (printIp (.v4 octets)) port =
        [':'].intercalate [printIp (.v4 octets), decimal port.toNat] := by
      simp [withPort, intercalate, intersperse]
    have hopen : '[' ∉ withPort (.v4 octets) (printIp (.v4 octets)) port := by
      simpa [withPort] using ⟨bracket_notMem octets, notMem_decimal (by decide) _⟩
    rw [parseSocketAddr_of_notMem hopen, hfields, splitOn_intercalate ':' (by
      simpa using ⟨colon_notMem octets, notMem_decimal (by decide) _⟩) (by simp)]
    dsimp only
    rw [parseV4_printIp, parsePort_some]
  | .v6 octets, port => by
    have hclose : ']' ∉ printIp (.v6 octets) := fun hbad =>
      forall_v6 (p := (· ≠ ']')) (by decide) (by decide) octets _ hbad rfl
    have hfields : printIp (.v6 octets) ++ ']' :: ':' :: decimal port.toNat =
        [']'].intercalate [printIp (.v6 octets), ':' :: decimal port.toNat] := by
      simp [intercalate, intersperse]
    rw [withPort, cons_append, parseSocketAddr, hfields, splitOn_intercalate ']' (by
      simpa using ⟨hclose, notMem_decimal (by decide) _⟩) (by simp)]
    change parsePort (parseV6 (printIp (.v6 octets))) (decimal port.toNat) = _
    rw [parseV6_printIp, parsePort_some]

theorem parsePort_unscoped {ip : Option IpAddr} {port : Text} {address : SocketAddr}
    (h : parsePort ip port = some address) :
    address = socketAddr (ipOf address) (portOf address) := by
  obtain ⟨ip, -, h⟩ := Option.bind_eq_some_iff.mp h
  obtain ⟨port, -, h⟩ := Option.bind_eq_some_iff.mp h
  cases h
  cases ip <;> rfl

theorem parseSocketAddr_unscoped {text : Text} {address : SocketAddr}
    (h : parseSocketAddr text = some address) :
    address = socketAddr (ipOf address) (portOf address) := by
  unfold parseSocketAddr at h
  split at h <;> split at h
  · exact parsePort_unscoped h
  · cases h
  · exact parsePort_unscoped h
  · cases h

theorem printIp_plain : ∀ ip, printIp ip ≠ [] ∧ ∀ c ∈ printIp ip, isPlain c = true
  | .v4 octets => by
    refine ⟨fun hnil => ?_, forall_v4 (by decide) (by decide) octets⟩
    have hparsed := parseV4_printIp octets
    rw [hnil, show parseV4 [] = none by decide] at hparsed
    cases hparsed
  | .v6 octets => by
    refine ⟨fun hnil => ?_, forall_v6 (by decide) (by decide) octets⟩
    have hparsed := parseV6_printIp octets
    rw [hnil] at hparsed
    cases hparsed

def net : Net where
  parseIp := parseIp
  printIp := printIp
  parseSocketAddr := parseSocketAddr
  parseIp_printIp := parseIp_printIp
  parseSocketAddr_printIp := parseSocketAddr_printIp
  parseSocketAddr_withPort := parseSocketAddr_withPort
  unscoped h _ := parseSocketAddr_unscoped h
  printIp_plain := printIp_plain

end Full

/-! ### What is read -/

variable {net : Net} {spec : DnsServerSpec} {text value : Text}

theorem splitField_eq_ok {sign : Char} {valid : Text → Bool} {front : Text} {field : Option Text} :
    splitField value sign valid text = .ok (front, field) ↔
      text = front ++ putField sign field ∧ sign ∉ front ∧ ∀ f ∈ field, valid f = true := by
  have hfront : sign ∉ text.takeWhile (· != sign) := fun h => by
    simpa using mem_takeWhile_imp h
  unfold splitField
  constructor
  · intro h
    have htext := takeWhile_append_dropWhile (p := (· != sign)) (l := text)
    split at h
    case h_1 hnone =>
      cases h
      rw [hnone, append_nil] at htext
      exact ⟨by simp [putField], htext ▸ hfront, by simp⟩
    case h_2 c rest hsome =>
      split_ifs at h with hvalid
      cases h
      have hc : c = sign := by
        simpa [hsome] using head_dropWhile_not (p := (· != sign)) (l := text) (by simp [hsome])
      rw [hsome, hc] at htext
      exact ⟨htext.symm, hfront, by simpa using hvalid⟩
  · rintro ⟨rfl, hnot, hvalid⟩
    have hne : ∀ c ∈ front, (c != sign) = true := fun c hc => by
      simpa using fun h : c = sign => hnot (h ▸ hc)
    cases field with
    | none => simp [putField, dropWhile_eq_nil_iff.mpr hne]
    | some field =>
      rw [putField, dropWhile_append_of_pos hne, takeWhile_append_of_pos hne]
      simp [hvalid field rfl]

/-- What a server that was read has: no scope, a valid interface and a valid name, and what is
printed last ends a trimmed text. -/
structure Read (spec : DnsServerSpec) : Prop where
  address : spec.address = socketAddr (ipOf spec.address) (portOf spec.address)
  interface : ∀ field ∈ spec.interface, validInterface field = true
  serverName : ∀ field ∈ spec.serverName, validServerName field = true
  last : ∀ c, (putField '#' spec.serverName).getLast? = some c → isWhitespace c = false

theorem read_of_parse (h : parseServerSpec net value = .ok spec) : Read spec := by
  unfold parseServerSpec at h
  dsimp only at h
  split_ifs at h with hempty
  obtain ⟨⟨front, name⟩, hname, h⟩ := of_bind h
  obtain ⟨⟨address, interface⟩, hinterface, h⟩ := of_bind h
  obtain ⟨htext, -, hvalidName⟩ := splitField_eq_ok.mp hname
  obtain ⟨-, hplain, hvalid⟩ := splitField_eq_ok.mp hinterface
  have hlast : ∀ c, (putField '#' name).getLast? = some c → isWhitespace c = false := by
    intro c hc
    have hend : (trim value).getLast? = some c := by rw [htext, getLast?_append, hc, Option.some_or]
    rw [getLast?_eq_some_getLast (by simpa using hempty)] at hend
    rw [← Option.some.inj hend]
    exact Bool.eq_false_iff.mpr (rdropWhile_last_not _ _ _)
  split_ifs at h
  split at h
  case h_1 socket hsocket =>
    cases h
    exact ⟨net.unscoped hsocket hplain, hvalid, hvalidName, hlast⟩
  case h_2 =>
    split at h
    case h_1 ip _ =>
      cases h
      exact ⟨by cases ip <;> rfl, hvalid, hvalidName, hlast⟩
    case h_2 => cases h

/-! ### What is printed -/

theorem formatAddress_plain (net : Net) (address : SocketAddr) :
    formatAddress net address ≠ [] ∧ ∀ c ∈ formatAddress net address, isPlain c = true := by
  obtain ⟨hne, hip⟩ := net.printIp_plain (ipOf address)
  have hport : ∀ c ∈ decimal (portOf address).toNat, isPlain c = true := forall_decimal (by decide)
  have hsigns : isPlain '[' = true ∧ isPlain ']' = true ∧ isPlain ':' = true := by decide
  unfold formatAddress
  dsimp only
  split_ifs
  · exact ⟨hne, hip⟩
  · cases hkind : ipOf address <;> rw [hkind] at hip <;>
      simpa [withPort, or_imp, forall_and, hsigns] using ⟨hip, hport⟩

theorem parse_format (h : Read spec) :
    parseServerSpec net (formatServerSpec net spec) = .ok spec := by
  obtain ⟨hne, haddress⟩ := formatAddress_plain net spec.address
  simp only [isPlain, Bool.and_eq_true, Bool.not_eq_true', bne_iff_ne] at haddress
  have hfront : ∀ c ∈ formatAddress net spec.address ++ putField '%' spec.interface,
      isWhitespace c = false ∧ c ≠ '#' := by
    refine forall_mem_append.mpr ⟨fun c hc => (haddress c hc).1, ?_⟩
    cases hfield : spec.interface with
    | none => simp [putField]
    | some field =>
      have hvalid := h.interface field hfield
      simp only [validInterface, Bool.and_eq_true, Bool.not_eq_true', any_eq_false,
        contains_eq_mem, decide_eq_false_iff_not] at hvalid
      refine forall_mem_cons.mpr ⟨by decide, fun c hc => ⟨?_, fun hbad => hvalid.2 (hbad ▸ hc)⟩⟩
      simpa using hvalid.1.1.2 c hc
  have htrim : trim (formatServerSpec net spec) = formatServerSpec net spec := by
    refine trim_eq_of_ends (fun c hc => ?_) fun c hc => ?_
    · rw [formatServerSpec, append_assoc, head?_append_of_ne_nil _ hne] at hc
      exact (haddress c (mem_of_head? hc)).1.1
    · rw [formatServerSpec, getLast?_append, Option.or_eq_some_iff] at hc
      rcases hc with hc | ⟨-, hc⟩
      · exact h.last c hc
      · exact (hfront c (mem_of_getLast? hc)).1
  have hname : ∀ value, splitField value '#' validServerName (formatServerSpec net spec) =
      .ok (formatAddress net spec.address ++ putField '%' spec.interface, spec.serverName) := by
    intro value
    exact splitField_eq_ok.mpr ⟨rfl, fun hbad => (hfront _ hbad).2 rfl, h.serverName⟩
  have hinterface : ∀ value, splitField value '%' validInterface
      (formatAddress net spec.address ++ putField '%' spec.interface) =
      .ok (formatAddress net spec.address, spec.interface) := fun value =>
    splitField_eq_ok.mpr ⟨rfl, fun hbad => (haddress _ hbad).2 rfl, h.interface⟩
  have hsigns : ¬ ('#' ∈ formatAddress net spec.address ∨ '%' ∈ formatAddress net spec.address) :=
    not_or.mpr ⟨fun hbad => (haddress _ hbad).1.2 rfl, fun hbad => (haddress _ hbad).2 rfl⟩
  rw [parseServerSpec, htrim, if_neg (by simp [formatServerSpec, hne])]
  simp only [hname, ok_bind, hinterface, if_neg hsigns]
  have hnew := h.address
  unfold formatAddress
  dsimp only
  split_ifs with hport
  · rw [hport] at hnew
    rw [net.parseSocketAddr_printIp, net.parseIp_printIp]
    dsimp only
    rw [← hnew]
  · rw [net.parseSocketAddr_withPort, ← hnew]

/-- **What is printed for a server reads back as that server**, so two servers are never printed
alike. -/
theorem server_specs_round_trip (net : Net) :
    (∀ value spec, parseServerSpec net value = .ok spec →
      parseServerSpec net (formatServerSpec net spec) = .ok spec) ∧
    Set.InjOn (formatServerSpec net) {spec | ∃ value, parseServerSpec net value = .ok spec} := by
  have hback : ∀ value spec, parseServerSpec net value = .ok spec →
      parseServerSpec net (formatServerSpec net spec) = .ok spec :=
    fun _ _ h => parse_format (read_of_parse h)
  refine ⟨hback, ?_⟩
  rintro first ⟨_, hfirst⟩ second ⟨_, hsecond⟩ heq
  have h := hback _ _ hfirst
  rw [heq, hback _ _ hsecond] at h
  exact (Except.ok.inj h).symm

def resolverSpec : DnsServerSpec :=
  ⟨.v4 (.new 192 0 2 53) 853, some ['2'], some "resolver.example".toList⟩

theorem server_specs_round_trip_full :
    parseServerSpec Full.net " 192.0.2.53:853%2#resolver.example".toList = .ok resolverSpec ∧
      parseServerSpec Full.net (formatServerSpec Full.net resolverSpec) = .ok resolverSpec := by
  have hparse : parseServerSpec Full.net " 192.0.2.53:853%2#resolver.example".toList =
      .ok resolverSpec := by decide
  exact ⟨hparse, (server_specs_round_trip Full.net).1 _ _ hparse⟩

end RustdResolved.Routing.SpecText
