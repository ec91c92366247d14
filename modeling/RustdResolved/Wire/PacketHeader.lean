import RustdResolved.Wire.Octets

/-! # Record types, classes and the header of a packet -/

namespace RustdResolved.Wire.PacketHeader

open Octets

def dnsHeaderLen : Nat := 12

def classIn : Nat := 1
def classAny : Nat := 255

def typeA : Nat := 1
def typeNs : Nat := 2
def typeCname : Nat := 5
def typeSoa : Nat := 6
def typePtr : Nat := 12
def typeTxt : Nat := 16
def typeAaaa : Nat := 28
def typeSrv : Nat := 33
def typeDname : Nat := 39
def typeOpt : Nat := 41
def typeDs : Nat := 43
def typeRrsig : Nat := 46
def typeNsec : Nat := 47
def typeDnskey : Nat := 48
def typeNsec3 : Nat := 50
def typeNsec3param : Nat := 51
def typeTsig : Nat := 250
def typeIxfr : Nat := 251
def typeAxfr : Nat := 252
def typeAny : Nat := 255

def flagQr : Nat := 0x8000
def flagOpcode : Nat := 0x7800
def flagAa : Nat := 0x0400
def flagTc : Nat := 0x0200
def flagRd : Nat := 0x0100
def flagRa : Nat := 0x0080
def flagAd : Nat := 0x0020
def flagCd : Nat := 0x0010
def rcodeMask : Nat := 0x000f

def clearFlags (flags mask : Nat) : Nat := flags &&& (0xffff ^^^ mask)

structure Header where
  id : Nat
  flags : Nat
  questionCount : Nat
  answerCount : Nat
  authorityCount : Nat
  additionalCount : Nat
  deriving DecidableEq, Repr

def Header.parse (packet : Bytes) : Except WireError Header :=
  if packet.length < dnsHeaderLen then .error .shortPacket
  else do
    let id ← readU16 packet 0
    let flags ← readU16 packet 2
    let questionCount ← readU16 packet 4
    let answerCount ← readU16 packet 6
    let authorityCount ← readU16 packet 8
    let additionalCount ← readU16 packet 10
    .ok ⟨id, flags, questionCount, answerCount, authorityCount, additionalCount⟩

/-- The header of a packet is there as soon as its octets are. -/
theorem Header.parse_isOk {packet : Bytes} (h : dnsHeaderLen ≤ packet.length) :
    ∃ header, Header.parse packet = .ok header ∧ readU16 packet 2 = .ok header.flags := by
  have hread : ∀ offset, offset + 2 ≤ packet.length → ∃ value, readU16 packet offset =
      .ok value := by
    intro offset hoffset
    have hlength : 2 ≤ (packet.drop offset).length := by
      rw [List.length_drop]
      omega
    unfold readU16
    match packet.drop offset, hlength with
    | a :: b :: _, _ => exact ⟨_, rfl⟩
  simp only [dnsHeaderLen] at h
  obtain ⟨id, hid⟩ := hread 0 (by omega)
  obtain ⟨flags, hflags⟩ := hread 2 (by omega)
  obtain ⟨questions, hquestions⟩ := hread 4 (by omega)
  obtain ⟨answers, hanswers⟩ := hread 6 (by omega)
  obtain ⟨authorities, hauthorities⟩ := hread 8 (by omega)
  obtain ⟨additionals, hadditionals⟩ := hread 10 (by omega)
  refine ⟨⟨id, flags, questions, answers, authorities, additionals⟩, ?_, hflags⟩
  simp [Header.parse, dnsHeaderLen, Nat.not_lt.mpr h, hid, hflags, hquestions, hanswers,
    hauthorities, hadditionals]

variable (header : Header)

def Header.isResponse : Bool := header.flags &&& flagQr != 0

def Header.truncated : Bool := header.flags &&& flagTc != 0

def Header.responseCode : Nat := header.flags &&& rcodeMask

def Header.checkingDisabled : Bool := header.flags &&& flagCd != 0

def Header.authenticData : Bool := header.flags &&& flagAd != 0

def Header.opcode : Nat := (header.flags &&& flagOpcode) / 2048

def Header.totalRecords : Nat :=
  header.answerCount + header.authorityCount + header.additionalCount

/-- Sets or clears the AD bit of a packet. -/
def setAuthenticatedData (packet : Bytes) (authenticated : Bool) : Except WireError Bytes :=
  if packet.length < dnsHeaderLen then .error .shortPacket
  else do
    let flags ← readU16 packet 2
    writeU16 packet 2 (if authenticated then flags ||| flagAd else clearFlags flags flagAd)

end RustdResolved.Wire.PacketHeader
