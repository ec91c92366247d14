import RustdResolved.Lib.Index
import RustdResolved.Wire.Reply
import RustdResolved.Wire.Redirects
import RustdResolved.Dnssec.TrustAnchors

/-! # The hosts file

A hosts file gives addresses names. The resolver reads it into tables from names to addresses and
back, and answers questions about those names itself. Some names have addresses without the file:
those of the local host and of the stub, and a name that is an address.

The parser of addresses is that of the standard library and a parameter. -/

namespace RustdResolved.HostsFile.Table

open Lib Distinct Index Maps Wire Octets Presentation PacketHeader Record Reply Redirects
open Dnssec.TrustAnchors

/-! ### Names and addresses -/

variable (name : Text)

/-- The name without a dot at its end, in lower case. -/
def canonicalName : Text :=
  (if name.getLast? = some '.' then name.dropLast else name).map Char.toLower

def validLdhLabel (label : Text) : Bool :=
  let bytes := asBytes label
  !label.isEmpty && bytes.length ≤ 63 && bytes.head?.any isAsciiAlphanumeric &&
    bytes.getLast?.any isAsciiAlphanumeric &&
    bytes.all fun byte => isAsciiAlphanumeric byte || byte == 45

/-- A name of letters, digits and hyphens. -/
def validLdhName : Bool :=
  !name.isEmpty && (asBytes name).length ≤ 253 && (name.splitOn '.').all validLdhLabel

def ipv4Localhost : IpAddr := .v4 #v[127, 0, 0, 1]

def ipv6Localhost : IpAddr := .v6 .localhost

def isUnspecified : IpAddr → Bool
  | .v4 octets => octets == Vector.replicate 4 0
  | .v6 octets => octets == Vector.replicate 16 0

def isLoopbackAddress : IpAddr → Bool
  | .v4 octets => octets.head == 127
  | .v6 octets => IpAddr.v6 octets == ipv6Localhost

def isLocalhostName : Bool :=
  name == "localhost".toList || name == "localhost.localdomain".toList ||
    name == "localhost4".toList || name == "localhost4.localdomain4".toList ||
    name == "localhost6".toList || name == "localhost6.localdomain6".toList ||
    ".localhost".toList.isSuffixOf name || ".localhost.localdomain".toList.isSuffixOf name

def syntheticAddresses : List IpAddr :=
  if isLocalhostName name then [ipv4Localhost, ipv6Localhost]
  else if name = "localhost4".toList ∨ name = "localhost4.localdomain4".toList then [ipv4Localhost]
  else if name = "localhost6".toList ∨ name = "localhost6.localdomain6".toList then [ipv6Localhost]
  else if name = "_localdnsstub".toList then [.v4 #v[127, 0, 0, 53]]
  else if name = "_localdnsproxy".toList then [.v4 #v[127, 0, 0, 54]]
  else []

def syntheticNames (address : IpAddr) : List Text :=
  if address = ipv4Localhost then ["localhost".toList]
  else if address = ipv6Localhost then ["localhost".toList]
  else if address = .v4 #v[127, 0, 0, 53] then ["_localdnsstub".toList]
  else if address = .v4 #v[127, 0, 0, 54] then ["_localdnsproxy".toList]
  else []

/-- `u8::from_str_radix` with radix 16. -/
def parseHexOctet (text : Text) : Option UInt8 := do
  let digits := if text.head? = some '+' then text.tail else text
  let values ← (asBytes digits).mapM hexDigit
  let value := values.foldl (fun value digit => value * 16 + digit.toNat) 0
  if digits.isEmpty ∨ 256 ≤ value then none else some (UInt8.ofNat value)

/-- The octets of an address from its nibbles, the last of the address first. -/
def octetsOfNibbles : List UInt8 → List UInt8
  | low :: high :: rest => octetsOfNibbles rest ++ [low ||| (high <<< 4)]
  | _ => []

/-- The address that a name below `in-addr.arpa` or `ip6.arpa` stands for. -/
def parseReverseName : Option IpAddr :=
  let lower := (name.rdropWhile (· == '.')).map Char.toLower
  match ".in-addr.arpa".toList.isSuffixOf? lower with
  | some front =>
    match (front.splitOn '.').mapM (parseUnsigned 256) with
    | some [d, c, b, a] =>
      some (.v4 #v[UInt8.ofNat a, UInt8.ofNat b, UInt8.ofNat c, UInt8.ofNat d])
    | _ => none
  | none =>
    match ".ip6.arpa".toList.isSuffixOf? lower with
    | some front => do
      let nibbles ← (front.splitOn '.').mapM parseHexOctet
      if nibbles.length ≠ 32 ∨ nibbles.any (15 < ·) then none
      else
        let octets := (octetsOfNibbles nibbles).toArray
        if h : octets.size = 16 then some (.v6 ⟨octets, h⟩) else none
    | none => none

/-! ### Records of addresses -/

/-- The question asks for addresses of this family. -/
def typeMatches (rrType : Nat) : IpAddr → Bool
  | .v4 _ => rrType == typeA || rrType == 255
  | .v6 _ => rrType == typeAaaa || rrType == 255

/-- The record of an address, at the name of the question or at its canonical name. -/
def addressRecord : IpAddr → Option Text → LocalRecord
  | .v4 address, some canonical => .namedA canonical address
  | .v6 address, some canonical => .namedAaaa canonical address
  | .v4 address, none => .a address
  | .v6 address, none => .aaaa address

/-- Adds the record of an address, after a CNAME record to its canonical name if it has one. -/
def addAnswer (canonicalOf : IpAddr → Option Text) (records : List LocalRecord) (address : IpAddr) :
    List LocalRecord :=
  match canonicalOf address with
  | some canonical =>
    pushNew records (.cname canonical) ++ [addressRecord address (some canonical)]
  | none => records ++ [addressRecord address none]

/-! ### The tables -/

structure Hosts where
  byName : FiniteMap Text (List IpAddr)
  byAddress : FiniteMap IpAddr (List Text)
  canonicalByAddress : FiniteMap IpAddr Text
  noAddress : List Text

namespace Hosts

def default : Hosts := ⟨∅, ∅, ∅, []⟩

/-- Reads one name of a line. An unspecified address says that the name has none. -/
def addName (hosts : Hosts) (address : IpAddr) (name : Text) : Hosts :=
  let canonical := canonicalName name
  if !validLdhName canonical then hosts
  else if isUnspecified address then { hosts with noAddress := pushNew hosts.noAddress canonical }
  else
    { hosts with
      byName := addTo hosts.byName canonical address
      canonicalByAddress := addFirst hosts.canonicalByAddress address canonical
      byAddress := addTo hosts.byAddress address canonical }

/-- Nothing but names of the local host have the address, and those have loopback addresses only. -/
def isRedundant (hosts : Hosts) (address : IpAddr) : Bool :=
  match hosts.byAddress.lookup address with
  | none => false
  | some names =>
    names.all isLocalhostName &&
      names.all fun name => (hosts.byName.lookup name).any (·.all isLoopbackAddress)

def removeAddress (hosts : Hosts) (address : IpAddr) : Hosts :=
  let names := (hosts.byAddress.lookup address).getD []
  { hosts with
    byName := eraseAll names hosts.byName
    byAddress := hosts.byAddress.erase address
    canonicalByAddress := hosts.canonicalByAddress.erase address }

def stripRedundantLocalhost (hosts : Hosts) : Hosts :=
  ([ipv4Localhost, ipv6Localhost].filter hosts.isRedundant).foldl removeAddress hosts

section
variable (parseIp : Text → Option IpAddr)

/-- Reads one line: an address and the names it gets, up to a comment. -/
def addLine (hosts : Hosts) (rawLine : Text) : Hosts :=
  match splitWhitespace (rawLine.takeWhile (· != '#')) with
  | [] => hosts
  | field :: names =>
    match parseIp field with
    | none => hosts
    | some address => names.foldl (fun hosts name => hosts.addName address name) hosts

def parse (text : Text) : Hosts :=
  ((lines text).foldl (addLine parseIp) default).stripRedundantLocalhost

/-! ### Answers -/

def lookupForward (hosts : Hosts) (question : Question) (includeSynthetic : Bool) :
    Option (List LocalRecord) :=
  let name := canonicalName question.name.text
  let synthetic := if includeSynthetic then syntheticAddresses name else []
  let addresses := if includeSynthetic then synthetic ++ (parseIp name).toList else synthetic
  let addresses := pushAllNew addresses ((hosts.byName.lookup name).getD [])
  if addresses.isEmpty then if hosts.noAddress.contains name then some [] else none
  else
    let canonicalOf (address : IpAddr) : Option Text :=
      if synthetic.contains address then none
      else (hosts.canonicalByAddress.lookup address).filter (· != name)
    some (addresses.foldl (fun records address =>
      if typeMatches question.rrType address then addAnswer canonicalOf records address
      else records) [])

def lookupReverse (hosts : Hosts) (question : Question) (includeSynthetic : Bool) :
    Option (List LocalRecord) := do
  let address ← parseReverseName question.name.text
  let names := if includeSynthetic then syntheticNames address else []
  let names := pushAllNew names ((hosts.byAddress.lookup address).getD [])
  if names.isEmpty then none else some (names.map .ptr)

def knownName (hosts : Hosts) (name : Text) (includeSynthetic : Bool) : Bool :=
  let name := canonicalName name
  (hosts.byName.lookup name).isSome || hosts.noAddress.contains name ||
    (includeSynthetic && (!(syntheticAddresses name).isEmpty || (parseIp name).isSome))

def lookupWithSynthetic (hosts : Hosts) (question : Question) (includeSynthetic : Bool) :
    Option (List LocalRecord) :=
  if question.rrClass ≠ classIn ∧ question.rrClass ≠ classAny then none
  else if question.rrType = typeA ∨ question.rrType = typeAaaa ∨ question.rrType = 255 then
    hosts.lookupForward parseIp question includeSynthetic
  else if question.rrType = typePtr then hosts.lookupReverse question includeSynthetic
  else if hosts.knownName parseIp question.name.text includeSynthetic then some []
  else none

def lookup (hosts : Hosts) (question : Question) : Option (List LocalRecord) :=
  hosts.lookupWithSynthetic parseIp question true

end

end Hosts

end RustdResolved.HostsFile.Table
