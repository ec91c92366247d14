import RustdResolved.Mdns.CaseFolding
import RustdResolved.Mdns.Published

/-! # Known answers

A querier puts the records it has into its query, and the responder does not send them again. It
compares their data octet by octet, and what a querier has of a record of ours is as it read it:
with the names in the data in lower case. And the records that go with an answer are added without a
look at the known answers. -/

namespace RustdResolved.Mdns.KnownAnswers

open List Lib Result Saturate Wire Octets Name Presentation PacketHeader Names Messages Responder
open Published CaseFolding

variable {message : ParsedMessage} {record : LocalRecord} {packet : Bytes}
  {allRecords : List LocalRecord}

/-- The message has the record as a known answer, with half of its time left at least. -/
def Carries (message : ParsedMessage) (record : ParsedRecord) : Prop :=
  ∃ known ∈ message.records, known.inSection = .answer ∧ known.owner = record.owner ∧
    known.rrType = record.rrType ∧ known.cls = record.cls ∧ known.rdata = record.rdata ∧
    record.ttl ≤ 2 * known.ttl

/-- Some question of the message asks for the record. -/
def Asked (message : ParsedMessage) (record : LocalRecord) : Prop :=
  ∃ question ∈ message.questions, asksFor question record = true

/-- Whatever becomes of the packets, none has a record of the list. -/
def SendsNone (allRecords : List LocalRecord) (message : ParsedMessage)
    (records : List LocalRecord) : Prop :=
  ∀ send, ∀ sent ∈ (answerQuery send allRecords message false).1, ∀ record ∈ records,
    record ∉ sent.records

/-- The records of the list that are asked for have the names in their data in lower case, and no
other record that is asked for and is no known answer leads to one of the list. -/
structure Suppressible (allRecords : List LocalRecord) (message : ParsedMessage)
    (records : List LocalRecord) : Prop where
  lowerCase : ∀ record ∈ records, Asked message record →
    canonicalRdata record.rrType record.rdata = record.rdata
  unrelated : ∀ first ∈ allRecords, first ∉ records → Asked message first →
    suppressed (knownAnswers message) first = false →
      ∀ record ∈ records, ¬Reaches (relatedTo allRecords) first record

/-! ### What makes a record needless -/

theorem suppressed_iff :
    suppressed (knownAnswers message) record = true ↔ ∃ known ∈ message.records,
      known.inSection = .answer ∧
        knownAnswerSuppresses (LocalRecord.knownAnswer record)
          (ParsedRecord.knownAnswer known) = true := by
  simp [suppressed, knownAnswers]

/-- A known answer has the data of the record, and so its names are in lower case. -/
theorem canonicalRdata_of_suppressed (hparse : parseMessage packet = .ok message)
    (h : suppressed (knownAnswers message) record = true) :
    canonicalRdata record.rrType record.rdata = record.rdata := by
  obtain ⟨known, hknown, -, hsuppresses⟩ := suppressed_iff.mp h
  unfold knownAnswerSuppresses at hsuppresses
  split at hsuppresses
  · simp only [LocalRecord.knownAnswer, ParsedRecord.knownAnswer, Bool.and_eq_true, beq_iff_eq]
      at hsuppresses
    obtain ⟨⟨⟨⟨-, htype⟩, -⟩, hrdata⟩, -⟩ := hsuppresses
    rw [htype, hrdata]
    exact canonicalRdata_of_canonical ((parseMessage_canonical hparse).2 known hknown).2
  · cases hsuppresses

/-- A record that is announced and carried is needless if its data is as it was read. -/
theorem suppressed_of_carries (hrecord : record.WellFormed)
    (hcarries : Carries message record.announced)
    (hlower : canonicalRdata record.rrType record.rdata = record.rdata) :
    suppressed (knownAnswers message) record = true := by
  obtain ⟨known, hknown, hanswer, howner, htype, hcls, hrdata, httl⟩ := hcarries
  refine suppressed_iff.mpr ⟨known, hknown, hanswer, ?_⟩
  have hname : IsWireName (lowercase record.owner) := by
    obtain ⟨labels, hvalid, hlabels⟩ := hrecord.owner
    exact ⟨_, hvalid.map_lowercase, by rw [hlabels, lowercase_wireName hvalid.short]⟩
  simp only [LocalRecord.announced] at howner htype hcls hrdata httl
  rw [hlower] at hrdata
  simp only [knownAnswerSuppresses, LocalRecord.knownAnswer, ParsedRecord.knownAnswer,
    howner, htype, hcls, hrdata, hrecord.owner.canonicalWireName, hname.canonicalWireName,
    lowercase_idem, beq_self_eq_true, Bool.true_and, decide_eq_true_eq]
  omega

/-! ### What is sent all the same -/

/-- To a query without unicast questions, a record is chosen if one that is asked for and is no
known answer leads to it. -/
theorem chosen_iff_asked (hmulticast : ∀ question ∈ message.questions, question.qu = false) :
    Chosen allRecords message false record ↔ ∃ first ∈ allRecords, Asked message first ∧
      suppressed (knownAnswers message) first = false ∧
      Reaches (relatedTo allRecords) first record := by
  rw [chosen_iff]
  constructor
  · rintro ⟨question, hquestion, first, hfirst, ⟨hasks, hselects⟩, hreach⟩
    have hnew : suppressed (knownAnswers message) first = false := by
      simpa [hmulticast question hquestion] using hselects
    exact ⟨first, hfirst, ⟨question, hquestion, hasks⟩, hnew, hreach⟩
  · rintro ⟨first, hfirst, ⟨question, hquestion, hasks⟩, hnew, hreach⟩
    exact ⟨question, hquestion, first, hfirst, ⟨hasks, Or.inr (Or.inr hnew)⟩, hreach⟩

theorem not_chosen_iff {records : List LocalRecord} (hparse : parseMessage packet = .ok message)
    (hmulticast : ∀ question ∈ message.questions, question.qu = false)
    (hsubset : records ⊆ allRecords) (hrecords : ∀ record ∈ records, record.WellFormed)
    (hcarries : ∀ record ∈ records, Carries message record.announced) :
    (∀ record ∈ records, ¬Chosen allRecords message false record) ↔
      Suppressible allRecords message records := by
  constructor
  · intro h
    refine ⟨fun record hrecord hasked => ?_,
      fun first hfirst _ hasked hnew record hrecord hreach => ?_⟩
    · -- a record that is asked for is not chosen, so it is a known answer
      by_contra hupper
      have hnew := Bool.eq_false_iff.mpr fun hknown => hupper (canonicalRdata_of_suppressed hparse
        hknown)
      exact h record hrecord ((chosen_iff_asked hmulticast).mpr
        ⟨record, hsubset hrecord, hasked, hnew, .refl⟩)
    · exact h record hrecord
        ((chosen_iff_asked hmulticast).mpr ⟨first, hfirst, hasked, hnew, hreach⟩)
  · rintro ⟨hlower, hunrelated⟩ record hrecord hchosen
    obtain ⟨first, hfirst, hasked, hnew, hreach⟩ := (chosen_iff_asked hmulticast).mp hchosen
    by_cases hmem : first ∈ records
    · have hknown := suppressed_of_carries (hrecords first hmem) (hcarries first hmem)
        (hlower first hmem hasked)
      rw [hnew] at hknown
      cases hknown
    · exact hunrelated first hfirst hmem hasked hnew record hrecord hreach

/-- **When known answers are not sent again**: a query that carries what was read of our records
gets none of them if they are suppressible, and, if the records of the interface fit into a message,
only then. -/
theorem sendsNone_iff (services : Services) (state : InterfaceState) (name : NameState)
    (records : List LocalRecord) (packet query : Bytes) (announced message : ParsedMessage)
    (hsubset : records ⊆ state.records services name)
    (hpacket : responsePacket 0 [] records false = .ok packet)
    (hannounced : parseMessage packet = .ok announced) (hquery : parseMessage query = .ok message)
    (hmulticast : ∀ question ∈ message.questions, question.qu = false)
    (hcarries : ∀ record ∈ announced.records, Carries message record) :
    (Suppressible (state.records services name) message records →
      SendsNone (state.records services name) message records) ∧
    ((state.records services name).length ≤ 65535 →
      SendsNone (state.records services name) message records →
        Suppressible (state.records services name) message records) := by
  have hpublishable : ∀ record ∈ state.records services name, Publishable record :=
    localRecords_publishable
  have hwellFormed : ∀ record ∈ records, record.WellFormed := fun record hrecord =>
    (hpublishable record (hsubset hrecord)).wellFormed
  have hcarried : ∀ record ∈ records, Carries message record.announced := by
    rw [parseMessage_responsePacket hwellFormed hpacket] at hannounced
    cases hannounced
    exact fun record hrecord => hcarries _ (mem_map_of_mem hrecord)
  have hchosen := not_chosen_iff hquery hmulticast hsubset hwellFormed hcarried
  constructor
  · intro hsuppressible send sent hsent record hrecord hmem
    exact hchosen.mpr hsuppressible record hrecord (chosen_of_sent hsent hmem)
  · intro hcount hnone
    refine hchosen.mp fun record hrecord hchosen => ?_
    have hunicast : (select (state.records services name) message false).unicast = [] := by
      refine eq_nil_iff_forall_not_mem.mpr fun other hother => ?_
      obtain ⟨question, hquestion, hqu, -⟩ := mem_select_unicast.mp hother
      simp [hmulticast question hquestion] at hqu
    rcases hchosen with hchosen | hchosen
    · rw [hunicast] at hchosen
      cases hchosen
    · obtain ⟨sent, hsent, hmem⟩ := sent_of_multicast hunicast hcount
        (fun record hrecord => (hpublishable record hrecord).short) hchosen
      exact hnone _ sent hsent record hrecord hmem

/-! ### A printer that is found by its type -/

def printingType : Bytes :=
  wireName (["_ipp", "_tcp", "local"].map fun label => asBytes label.toList)

def printerPointer (label : String) : LocalRecord :=
  ⟨printingType, typePtr, classIn, 120, false, printerOwner label⟩

/-- The octets of the pointer, as they are announced and as they are carried by a query. -/
def pointerBytes (label : String) (ttl : Nat) : Bytes :=
  printingType ++ u16ToBeBytes typePtr ++ u16ToBeBytes classIn ++ u32ToBeBytes ttl ++
    u16ToBeBytes 25 ++ printerOwner label

def pointerPacket (label : String) : Bytes :=
  dnsHeader 0 0x8400 0 1 0 0 ++ pointerBytes label 120

/-- A query for printers that carries the pointer. -/
def browseQuery : Bytes :=
  dnsHeader 0 0 1 1 0 0 ++ printingType ++ u16ToBeBytes typePtr ++ u16ToBeBytes classIn ++
    pointerBytes "printer" 60

/-- The query as it is read. -/
def browseMessage : ParsedMessage :=
  ⟨0, [⟨printingType, typePtr, classIn, false, printingType ++ u16ToBeBytes typePtr ++
    u16ToBeBytes classIn⟩], [⟨printingType, typePtr, classIn, 60, printerOwner "printer", .answer⟩]⟩

def announcedPointer : ParsedRecord :=
  ⟨printingType, typePtr, classIn, 120, printerOwner "printer", .answer⟩

theorem carries_announcedPointer : Carries browseMessage announcedPointer :=
  ⟨_, mem_singleton_self _, rfl, rfl, rfl, rfl, rfl, by decide⟩

/-- A printer whose name has a capital is announced again to a querier that knows it. -/
theorem printer_announced_again :
    [printerPointer "Printer"] ⊆ onEthernet.records upperPrinter hostName ∧
      responsePacket 0 [] [printerPointer "Printer"] false = .ok (pointerPacket "Printer") ∧
      parseMessage (pointerPacket "Printer") = .ok ⟨0, [], [announcedPointer]⟩ ∧
      parseMessage browseQuery = .ok browseMessage ∧
      (∀ question ∈ browseMessage.questions, question.qu = false) ∧
      (∀ record ∈ [announcedPointer], Carries browseMessage record) ∧
      ¬SendsNone (onEthernet.records upperPrinter hostName) browseMessage
        [printerPointer "Printer"] := by
  refine ⟨by decide +kernel, by decide +kernel, by decide +kernel, by decide +kernel, by decide,
    forall_mem_singleton.mpr carries_announcedPointer, fun h => ?_⟩
  have hagain : ((answerQuery (fun _ packet => .ok packet.length)
      (onEthernet.records upperPrinter hostName) browseMessage false).1.any fun sent =>
        decide (printerPointer "Printer" ∈ sent.records)) = true := by decide
  obtain ⟨sent, hsent, hmem⟩ := any_eq_true.mp hagain
  exact h _ sent hsent _ (mem_singleton_self _) (of_decide_eq_true hmem)

-- a text record that is carried goes along with the pointer that is asked for
example :
  ((answerQuery (fun _ packet => .ok packet.length) (onEthernet.records lowerPrinter hostName)
    ⟨0, browseMessage.questions, [⟨printerOwner "printer", typeTxt, classIn, 60, [0], .answer⟩]⟩
    false).1.any fun sent => decide
      ((⟨printerOwner "printer", typeTxt, classIn, 120, true, [0]⟩ : LocalRecord) ∈ sent.records)) =
    true := by
  decide

/-- A printer whose name is in lower case is not. -/
theorem printer_not_announced_again :
    SendsNone (onEthernet.records lowerPrinter hostName) browseMessage
      [printerPointer "printer"] := by
  refine (sendsNone_iff lowerPrinter onEthernet hostName [printerPointer "printer"]
    (pointerPacket "printer") browseQuery ⟨0, [], [announcedPointer]⟩ browseMessage (by decide)
    (by decide +kernel) (by decide +kernel) (by decide +kernel) (by decide)
    (forall_mem_singleton.mpr carries_announcedPointer)).1 ⟨?_, ?_⟩
  · intro record hrecord _
    rw [mem_singleton.mp hrecord]
    decide
  · -- the pointer is the only record that is asked for
    have honly : ∀ first ∈ onEthernet.records lowerPrinter hostName,
        first ∉ [printerPointer "printer"] → ∀ question ∈ browseMessage.questions,
          asksFor question first = false := by decide
    rintro first hfirst hother ⟨question, hquestion, hasks⟩
    rw [honly first hfirst hother question hquestion] at hasks
    cases hasks

end RustdResolved.Mdns.KnownAnswers
