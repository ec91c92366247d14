import Mathlib.Data.Nat.Bitwise

/-! # Modes and request flags -/

namespace RustdResolved.Resolver.Modes

/-- The `DNSSEC=` setting. -/
inductive ValidationMode
  | no
  | allowDowngrade
  | yes
  deriving DecidableEq, Repr

/-- The `DNSOverTLS=` setting. -/
inductive TlsMode
  | no
  | opportunistic
  | yes
  deriving DecidableEq, Repr

/-- The `LLMNR=` and `MulticastDNS=` settings. -/
inductive SupportMode
  | no
  | resolve
  | yes
  deriving DecidableEq, Repr

/-! ### Flags of a request and of its result -/

def rustdResolveDns : Nat := 1 <<< 0
def rustdResolveLlmnrIpv4 : Nat := 1 <<< 1
def rustdResolveLlmnrIpv6 : Nat := 1 <<< 2
def rustdResolveMdnsIpv4 : Nat := 1 <<< 3
def rustdResolveMdnsIpv6 : Nat := 1 <<< 4
def rustdResolveAuthenticated : Nat := 1 <<< 9
def rustdResolveNoValidate : Nat := 1 <<< 10
def rustdResolveNoCache : Nat := 1 <<< 12
def rustdResolveNoZone : Nat := 1 <<< 13
def rustdResolveNoTrustAnchor : Nat := 1 <<< 14
def rustdResolveNoNetwork : Nat := 1 <<< 15
def rustdResolveFromCache : Nat := 1 <<< 20
def rustdResolveFromNetwork : Nat := 1 <<< 23
def rustdResolveNoStale : Nat := 1 <<< 24

def hasFlag (requestFlags flag : Nat) : Bool := requestFlags &&& flag != 0

@[simp] theorem hasFlag_zero (flag : Nat) : hasFlag 0 flag = false := by
  simp [hasFlag]

def llmnrProtocolMask : Nat := rustdResolveLlmnrIpv4 ||| rustdResolveLlmnrIpv6

def mdnsProtocolMask : Nat := rustdResolveMdnsIpv4 ||| rustdResolveMdnsIpv6

def resolverProtocolMask : Nat := rustdResolveDns ||| llmnrProtocolMask ||| mdnsProtocolMask

def requestProtocolEnabled (flags protocol : Nat) : Bool :=
  if hasFlag flags rustdResolveNoZone &&
    hasFlag protocol (llmnrProtocolMask ||| mdnsProtocolMask) then
    false
  else
    let configured := flags &&& resolverProtocolMask
    configured == 0 || hasFlag configured protocol

end RustdResolved.Resolver.Modes
