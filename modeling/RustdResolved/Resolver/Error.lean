import RustdResolved.Wire.Octets

/-! # Errors of the resolver

`ResolveError` is what a query can end with. A wire error becomes one through `liftWire`, the
source's `From` conversion at each `?`. -/

namespace RustdResolved.Resolver.Error

open Wire.Octets

/-- The kinds of I/O errors that the resolver tells apart. -/
inductive IoErrorKind
  | timedOut
  | wouldBlock
  | notFound
  | invalidData
  | other
  deriving DecidableEq, Repr

/-- What a query ends with when it does not succeed. -/
inductive ResolveError
  | io (kind : IoErrorKind)
  | wire (error : WireError)
  | link
  | noNameServers
  | noSuchResourceRecord
  | dnsError (rcode : Nat) (query : Text) (extendedCode : Option Nat)
      (extendedMessage : Option Text)
  | dnssecValidationFailed (result : Text) (extendedCode : Option Nat)
      (extendedMessage : Option Text)
  | noTrustAnchor
  | queryAborted
  | queryRefused
  | maxAttemptsReached
  | resourceRecordTypeUnsupported
  | resourceRecordTypeObsolete
  | inconsistentServiceRecords
  | stubLoop
  | unsupportedFamily (family : Int)
  | protocol (message : Text)
  deriving DecidableEq, Repr

def dnssecValidationError (result : Text) : ResolveError := .dnssecValidationFailed result none none

/-- `From<WireError> for ResolveError`, at a `?`. -/
def liftWire {α : Type} : Except WireError α → Except ResolveError α
  | .ok value => .ok value
  | .error error => .error (.wire error)

@[simp] theorem liftWire_ok {α : Type} (value : α) : liftWire (.ok value) = .ok value := rfl

theorem liftWire_eq_ok {α : Type} {x : Except WireError α} {value : α} :
    liftWire x = .ok value ↔ x = .ok value := by
  cases x <;> simp [liftWire]

end RustdResolved.Resolver.Error
