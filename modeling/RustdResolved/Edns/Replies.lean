import RustdResolved.Edns.Layout
import RustdResolved.Wire.ReplyMatches

/-! # Replies of the resolver's own

The error replies and the local answers match the query they reply to, unless the name of its
question is read through octets that a reply rewrites. All but the one of SERVFAIL keep the AD bit
of the query. -/

namespace RustdResolved.Edns.Replies

open Lib.Result Wire Octets PacketHeader Record Packet Reply Overwrite RelocatePacket ReplyMatches
open Opt Layout

/-! ### The flags of an error reply -/

section

variable {query response : Bytes} {header : Header} {question : Question} {nameEnd : Nat}

/-- A packet whose AD bit is not set. -/
def AdClear (packet : Bytes) : Prop :=
  ∃ header, Header.parse packet = .ok header ∧ header.authenticData = false

theorem adClear_iff {packet : Bytes} {flags : Nat} (hlength : 12 ≤ packet.length)
    (hflags : readU16 packet 2 = .ok flags) : AdClear packet ↔ flags &&& flagAd = 0 := by
  obtain ⟨header, hheader, hread⟩ :=
    Header.parse_isOk (show dnsHeaderLen ≤ packet.length from hlength)
  cases hflags.symm.trans hread
  constructor
  · rintro ⟨_, hparse, hclear⟩
    cases hheader.symm.trans hparse
    simpa [Header.authenticData] using hclear
  · intro hclear
    exact ⟨header, hheader, by simpa [Header.authenticData] using hclear⟩

/-- A reply that matches its query, with its AD bit. -/
structure GoodReply (query response : Bytes) (ad : Nat) : Prop where
  matching : QuestionKept query → responseMatches query response = .ok ()
  adClear : AdClear response ↔ ad = 0

/-- **The error replies** whose flags are those of the query with some set and some cleared. -/
theorem replyWithFlags_replies (hquery : QueryAt query header question nameEnd)
    {set clear code : Nat} (h : replyWithFlags query (replyFlags set clear code) = .ok response)
    (hclear : clear < 65536) (hcode : code < 65536)
    (hset : set &&& ((0xffff ^^^ clear) &&& flagQr) = flagQr)
    (hclear' : (0xffff ^^^ clear) &&& flagOpcode = flagOpcode) (hset' : set &&& flagOpcode = 0)
    (hcode' : code &&& flagOpcode = 0) :
    ErrorReply query response nameEnd (replyFlags set clear code header.flags) ∧
      GoodReply query response (replyFlags set clear code header.flags &&& flagAd) := by
  obtain ⟨response', hresponse, hreply⟩ := replyWithFlags_ok hquery
  cases h.symm.trans hresponse
  rw [replyFlags_mod _ _ hclear hcode] at hreply
  obtain ⟨hqr, hopcode⟩ := replyFlags_isReply header.flags hset hclear' hset' hcode'
  have hstart := hquery.bounds.1
  refine ⟨hreply, fun hkept => ?_, adClear_iff (by rw [hreply.length]; omega) hreply.flags⟩
  refine hreply.responseMatches hquery hkept hqr ?_
  rw [hopcode]
  exact hquery.opcode

/-- SERVFAIL clears the AD bit. -/
theorem servfailFor_replies (hquery : QueryAt query header question nameEnd)
    (h : servfailFor query = .ok response) : GoodReply query response 0 := by
  have hreply := (replyWithFlags_replies hquery (show replyWithFlags query (replyFlags
    (flagQr ||| flagRa) (flagAa ||| flagTc ||| flagAd ||| rcodeMask) 2) = .ok response from h)
    (by decide) (by decide) (by decide) (by decide) (by decide) (by decide)).2
  rwa [replyFlags_and,
    show (0xffff ^^^ (flagAa ||| flagTc ||| flagAd ||| rcodeMask)) &&& flagAd = 0 by decide,
    Nat.and_zero, Nat.and_zero, show 2 &&& flagAd = 0 by decide] at hreply

theorem responseWithCode_eq (query : Bytes) (responseCode : Nat) (authoritative : Bool) :
    responseWithCode query responseCode authoritative = replyWithFlags query
      (replyFlags (flagQr ||| flagRa) (flagAa ||| flagTc ||| rcodeMask)
        ((if authoritative then flagAa else 0) ||| responseCode)) := by
  unfold responseWithCode
  congr 1
  funext flags
  cases authoritative
  · simp [replyFlags]
  · simp [replyFlags, Nat.or_assoc]

/-- The other error replies keep the AD bit of the query. -/
theorem responseWithCode_replies (hquery : QueryAt query header question nameEnd)
    {responseCode : Nat} {authoritative : Bool}
    (h : responseWithCode query responseCode authoritative = .ok response)
    (hcode : ((if authoritative then flagAa else 0) ||| responseCode) < 65536)
    (hopcode : ((if authoritative then flagAa else 0) ||| responseCode) &&& flagOpcode = 0)
    (had : ((if authoritative then flagAa else 0) ||| responseCode) &&& flagAd = 0) :
    (∃ flags, ErrorReply query response nameEnd flags ∧ flags &&& flagQr ≠ 0 ∧
      flags &&& flagOpcode = header.flags &&& flagOpcode ∧
      flags &&& flagAd = header.flags &&& flagAd) ∧
    GoodReply query response (header.flags &&& flagAd) := by
  rw [responseWithCode_eq] at h
  obtain ⟨herror, hreply⟩ :=
    replyWithFlags_replies hquery h (by decide) hcode (by decide) (by decide)
    (by decide) hopcode
  have hkeep : replyFlags (flagQr ||| flagRa) (flagAa ||| flagTc ||| rcodeMask)
      ((if authoritative then flagAa else 0) ||| responseCode) header.flags &&& flagAd =
      header.flags &&& flagAd := by
    rw [replyFlags_and, show (0xffff ^^^ (flagAa ||| flagTc ||| rcodeMask)) &&& flagAd =
      flagAd by decide, had, show (flagQr ||| flagRa) &&& flagAd = 0 by decide,
      Nat.or_zero, Nat.or_zero]
  rw [hkeep] at hreply
  have hflags := replyFlags_isReply header.flags
    (show (flagQr ||| flagRa) &&&
      ((0xffff ^^^ (flagAa ||| flagTc ||| rcodeMask)) &&& flagQr) = flagQr by decide)
    (by decide) (by decide) hopcode
  exact ⟨⟨_, herror, hflags.1, hflags.2, hkeep⟩, hreply⟩

theorem inspectOpt_lt {request : OptRecord} (h : inspectOpt query = .ok (some request)) :
    request.udpPayloadSize < 65536 := by
  obtain ⟨layout, hlayout, h⟩ := of_bind h
  obtain ⟨sections, -, -, -, hopt⟩ := scanPacket_ok hlayout
  rcases hopt with ⟨-, hnone⟩ | ⟨before, opt, after, span, offset, -, -, hspan, hamong, -⟩
  · rw [hnone] at h
    cases h
  · rw [hspan] at h
    obtain ⟨record, -, hrequest⟩ := of_bind h
    cases hrequest
    obtain ⟨nameEnd, rawTtl, hat⟩ := Wire.RelocateRecord.parseRecord_eq_ok.mp hamong.parseOpt
    rw [hamong.udpPayloadSize]
    exact readU16_lt_65536 hat.rrClass

/-- The reply to another version of EDNS is the one of REFUSED, with no error and an OPT record. -/
theorem badVersionResponse_replies (hquery : QueryAt query header question nameEnd)
    (h : badVersionResponse query = .ok response) :
    GoodReply query response (header.flags &&& flagAd) := by
  obtain ⟨asked, hasked, h⟩ := of_bind h
  cases asked with
  | none => cases h
  | some request =>
    obtain ⟨refused, hrefused, h⟩ := of_bind h
    obtain ⟨flags, hflags, h⟩ := of_bind h
    obtain ⟨first, hfirst, h⟩ := of_bind h
    obtain ⟨second, hsecond, h⟩ := of_bind h
    obtain ⟨opt, hopt, hresponse⟩ := of_bind h
    cases hresponse
    rw [patchU16_eq_ok] at hfirst hsecond
    obtain ⟨⟨_, herror, hqr, hopcode, had⟩, -⟩ :=
      responseWithCode_replies hquery hrefused (by decide)
      (by decide) (by decide)
    cases hflags.symm.trans herror.flags
    obtain ⟨hstart, -⟩ := hquery.bounds
    have hlength : second.length = nameEnd + 4 := by
      rw [length_writeAt hsecond, length_writeAt hfirst, herror.length]
    have hkeeps := (herror.keeps.writeU16 hfirst (by decide)).writeU16 hsecond (by decide)
    obtain ⟨rdata, hrdata, hshort, hbytes⟩ := encodeOpt_ok hopt
    cases hrdata
    have hclear : clearFlags flags rcodeMask < 65536 := clearFlags_lt (by decide)
    have hread : readU16 (second ++ opt) 2 = .ok (clearFlags flags rcodeMask) := by
      rw [readU16_append (by omega), readU16_writeAt_of_out hsecond (by omega),
        readU16_writeU16 hfirst, Nat.mod_eq_of_lt hclear]
    have hcount : ∀ offset, 6 ≤ offset → offset + 1 < 10 →
        readU16 (second ++ opt) offset = .ok 0 := by
      intro offset h1 h2
      rw [readU16_append (by omega), readU16_writeAt_of_out hsecond (by omega),
        readU16_writeAt_of_out hfirst (.inr (by simp; omega)), herror.zero h1 (by omega)]
    have hone : readU16 (second ++ opt) 10 = .ok 1 := by
      rw [readU16_append (by omega), readU16_writeU16 hsecond]
    have hsize := inspectOpt_lt hasked
    have hparse := parseRecord_optBytes hshort
      (show max request.udpPayloadSize 512 % 65536 ≠ classAny by unfold classAny; omega)
      (show (second ++ opt).drop (nameEnd + 4) =
        optBytes (max request.udpPayloadSize 512) 1 0 0 [] ++ [] by
          rw [← hlength, List.drop_left, List.append_nil, hbytes])
    have hrecords : parseRecords (second ++ opt) (0 + 0 + 1) (nameEnd + 4) =
        .ok ([optRecordAt (nameEnd + 4) (max request.udpPayloadSize 512) 1 0 0 []],
          (second ++ opt).length) := by
      simp only [parseRecords, ok_bind, hparse]
      rw [List.length_append, hbytes, length_optBytes, hlength]
      rfl
    have hmask : ∀ mask, (0xffff ^^^ rcodeMask) &&& mask = mask →
        clearFlags flags rcodeMask &&& mask = flags &&& mask := fun mask hmask => by
      rw [clearFlags_and, hmask]
    refine ⟨fun hkept => ?_, ?_⟩
    · refine (hkeeps.append _).responseMatches hquery hkept hread ?_ ?_
        (hcount 6 (by omega) (by omega)) (hcount 8 (by omega) (by omega)) hone hrecords
      · rw [hmask flagQr (by decide)]
        exact hqr
      · rw [hmask flagOpcode (by decide), hopcode]
        exact hquery.opcode
    · rw [adClear_iff (by rw [List.length_append]; omega) hread, hmask flagAd (by decide), had]

end

/-! ### All replies of the resolver's own -/

def errorReplies : List (Bytes → Except WireError Bytes) :=
  [servfailFor, refusedFor, nxdomainFor, authoritativeNxdomainFor, badVersionResponse]

theorem errorReplies_good {query : Bytes} {header : Header} {question : Question} {nameEnd : Nat}
    (hquery : QueryAt query header question nameEnd) :
    ∀ reply ∈ errorReplies, ∀ response, reply query = .ok response →
      GoodReply query response 0 ∨ GoodReply query response (header.flags &&& flagAd) := by
  simp only [errorReplies, List.mem_cons, forall_eq_or_imp, List.not_mem_nil, false_imp_iff,
    implies_true, and_true]
  refine ⟨fun response h => Or.inl (servfailFor_replies hquery h), fun response h => Or.inr ?_,
    fun response h => Or.inr ?_, fun response h => Or.inr ?_,
    fun response h => Or.inr (badVersionResponse_replies hquery h)⟩
  all_goals exact (responseWithCode_replies hquery h (by decide) (by decide) (by decide)).2

/-- The replies to a query match it, if the name of its question is only read at octets that a reply
keeps; and the AD bit of the error replies is clear exactly if that of the query is. -/
theorem own_replies_match {query : Bytes} (h : validate query false = .ok ()) :
    (QuestionKept query →
      (∀ reply ∈ errorReplies, ∀ response, reply query = .ok response →
        responseMatches query response = .ok ()) ∧
      ∀ records ttl response, localResponse query records ttl = .ok response →
        responseMatches query response = .ok ()) ∧
    (∀ response, servfailFor query = .ok response → AdClear response) ∧
    ((∀ reply ∈ errorReplies, ∀ response, reply query = .ok response → AdClear response) ↔
      AdClear query) := by
  obtain ⟨header, question, nameEnd, hquery⟩ := queryAt_of_validate h
  have hgood := errorReplies_good hquery
  obtain ⟨hlength, -, hflags, -⟩ := headerParse_eq_ok.mp hquery.parse
  refine ⟨fun hkept => ⟨fun reply hreply response hresponse => ?_,
    fun records ttl response hresponse => ?_⟩, fun response hresponse => ?_, ?_⟩
  · rcases hgood reply hreply response hresponse with hone | hone
    · exact hone.matching hkept
    · exact hone.matching hkept
  · obtain ⟨appended, answers, blocks, hlocal⟩ := localResponse_ok hquery hresponse
    obtain ⟨hqr, hopcode⟩ := localFlags_isReply
    refine hlocal.responseMatches hquery hkept hqr ?_
    rw [hopcode]
    exact hquery.opcode
  · exact (servfailFor_replies hquery hresponse).adClear.mpr rfl
  · rw [adClear_iff hlength hflags]
    constructor
    · intro hclear
      obtain ⟨response, hresponse, -⟩ := replyWithFlags_ok hquery
      rw [← responseWithCode_eq query 5 false] at hresponse
      have hreply := (responseWithCode_replies hquery hresponse (by decide) (by decide) (by
        decide)).2
      exact hreply.adClear.mp (hclear refusedFor (by simp [errorReplies]) response hresponse)
    · intro hclear reply hreply response hresponse
      rcases hgood reply hreply response hresponse with hone | hone
      · exact hone.adClear.mpr rfl
      · exact hone.adClear.mpr hclear

/-- A query for the address of `q`, with an OPT record of another version of EDNS. -/
def plainQuery : Bytes :=
  [0, 7, 1, 0, 0, 1, 0, 0, 0, 0, 0, 1, 1, 113, 0, 0, 1, 0, 1, 0, 0, 41, 4, 208, 0, 1, 0, 0, 0, 0]

theorem own_replies_match_plain :
    validate plainQuery false = .ok () ∧ QuestionKept plainQuery ∧
      ∀ reply ∈ errorReplies, ∀ response, reply plainQuery = .ok response →
        responseMatches plainQuery response = .ok () := by
  have hvalid : validate plainQuery false = .ok () := by decide
  have hkept : QuestionKept plainQuery := by decide
  exact ⟨hvalid, hkept, ((own_replies_match hvalid).1 hkept).1⟩

/-- A query whose question is read through the octets of its flags. -/
def nameInFlags : Bytes := [0, 7, 1, 0, 0, 1, 0, 0, 0, 0, 0, 0, 0xc0, 2, 0, 1, 0, 1]

/-- The query of `plainQuery` without the OPT record and with the AD bit. -/
def withAd : Bytes := [0, 7, 1, 0x20, 0, 1, 0, 0, 0, 0, 0, 0, 1, 113, 0, 0, 1, 0, 1]

/-- A reply that cannot be read, and one with the AD bit. -/
theorem replies_mismatch_and_ad :
    (validate nameInFlags false = .ok () ∧ (servfailFor nameInFlags).isOk = true ∧
      (servfailFor nameInFlags >>= responseMatches nameInFlags) = .error .invalidLabel) ∧
    validate withAd false = .ok () ∧
      refusedFor withAd = .ok [0, 7, 0x81, 0xa5, 0, 1, 0, 0, 0, 0, 0, 0, 1, 113, 0, 0, 1, 0, 1] ∧
      (Header.parse [0, 7, 0x81, 0xa5, 0, 1, 0, 0, 0, 0, 0, 0, 1, 113, 0, 0, 1, 0, 1]).map
        (·.authenticData) = .ok true := by
  decide

end RustdResolved.Edns.Replies
