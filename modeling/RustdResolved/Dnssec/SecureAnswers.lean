import RustdResolved.Dnssec.Semantics
import RustdResolved.Wire.RedirectWalk

/-! # Secure answers answer the question

The search of `authenticatedResponseSemantics` for a record of the type does not look at the owners
of the records. The aliases that it follows are for the query loop to follow as well, which then
asks for the name at their end; but the loop decides with `classifyRedirectAnswer`, which reads the
classes of the records and the DNAME records too.

For responses whose aliases the loop follows to the same end (`Followed`),
`secure_answers_question_iff` says when the owners make no difference. -/

namespace RustdResolved.Dnssec.SecureAnswers

open Lib Result Loop Walk Wire Octets Name PacketHeader Record Dname DnssecRecords Packet
open Presentation
open Redirects AnswerTables RedirectWalk Resolver.Error NameText NamePath NsecDenial NsecPaths
open Nsec3Denial Semantics

variable {answers : List ResourceRecord} {i : Nat} {last name target : DnsName} {packet : Bytes}
  {path : List DnsName} {terminal : Text}

/-! ### The end of the aliases -/

theorem normalizeDnsName_idem (h : name.WellFormed) :
    normalizeDnsName (normalizeDnsName name.text) = normalizeDnsName name.text := by
  have hpath := denotes_namePath h
  rw [hpath.normalized, (denotes_pathText hpath.isPath).normalized]

theorem cnameAt_normalizeDnsName (h : name.WellFormed) :
    cnameAt answers (normalizeDnsName name.text) = cnameAt answers name.text := by
  unfold cnameAt dnsNamesEqual
  rw [normalizeDnsName_idem h]

/-- The first CNAME record of a name, of whatever class, leads to another name. -/
def AliasOf (packet : Bytes) (answers : List ResourceRecord) (name target : DnsName) : Prop :=
  ∃ record, cnameAt answers name.text = some record ∧
    readName packet record.rdataOffset = .ok (target, record.nextOffset)

/-- What `terminalCname` does at a name. -/
def aliasDecision (packet : Bytes) (answers : List ResourceRecord) (_ : Nat) (current : DnsName) :
    Except ResolveError (Text ⊕ DnsName) :=
  match cnameAt answers current.text with
  | none => .ok (.inl (normalizeDnsName current.text))
  | some record => do
    let (target, stop) ← liftWire (readName packet record.rdataOffset)
    if stop ≠ record.nextOffset then .error (.wire .invalidRecord) else .ok (.inr target)

theorem aliasDecision_eq_next :
    aliasDecision packet answers i name = .ok (.inr target) ↔
      AliasOf packet answers name target := by
  unfold aliasDecision AliasOf
  cases cnameAt answers name.text with
  | none => simp
  | some record =>
    simp only [Option.some.injEq, exists_eq_left']
    constructor
    · intro h
      obtain ⟨⟨found, stop⟩, hread, h⟩ := of_bind h
      dsimp only at h
      split_ifs at h with hstop
      cases h
      rw [liftWire_eq_ok.mp hread, not_not.mp hstop]
    · intro hread
      rw [hread, liftWire_ok, ok_bind]
      simp

theorem aliasDecision_eq_end :
    aliasDecision packet answers i name = .ok (.inl terminal) ↔
      cnameAt answers name.text = none ∧ normalizeDnsName name.text = terminal := by
  unfold aliasDecision
  cases cnameAt answers name.text with
  | none => simp
  | some record =>
    simp only [reduceCtorEq, false_and, iff_false]
    intro h
    obtain ⟨⟨found, stop⟩, -, h⟩ := of_bind h
    dsimp only at h
    split_ifs at h
    cases h

theorem terminalCnameLoop_eq {rounds : Nat} (hname : name.WellFormed) {visited : List Text} :
    terminalCnameLoop packet answers rounds (normalizeDnsName name.text) visited =
      loop (.wire .cnameLoop) (walkBody (.wire .cnameLoop) (fun name => normalizeDnsName name.text)
        (aliasDecision packet answers)) rounds (name, visited) := by
  induction rounds generalizing name visited with
  | zero => rfl
  | succ rounds ih =>
    unfold terminalCnameLoop
    rw [cnameAt_normalizeDnsName hname]
    simp only [loop, walkBody, aliasDecision, List.contains_iff_mem]
    by_cases hvisited : normalizeDnsName name.text ∈ visited
    · simp only [if_pos hvisited]
      rfl
    simp only [if_neg hvisited]
    cases cnameAt answers name.text with
    | none => rfl
    | some record =>
      dsimp only
      cases hread : readName packet record.rdataOffset with
      | error e => rfl
      | ok result =>
        obtain ⟨target, stop⟩ := result
        simp only [liftWire_ok, ok_bind]
        by_cases hstop : stop ≠ record.nextOffset
        · simp only [if_pos hstop]
          rfl
        · simp only [if_neg hstop, ok_bind]
          exact ih (readName_wellFormed hread)

/-- **Where the aliases end**: at a name without a CNAME record, after a path without repetition. -/
theorem terminalCname_eq_ok (hname : name.WellFormed) :
    terminalCname packet answers name.text = .ok terminal ↔
      ∃ path last, Leads (aliasDecision packet answers) 0 name path last ∧ path.length < 64 ∧
        ((path ++ [last]).map fun name => normalizeDnsName name.text).Nodup ∧
        cnameAt answers last.text = none ∧ normalizeDnsName last.text = terminal := by
  rw [terminalCname, terminalCnameLoop_eq hname, walk_eq_ok]
  simp only [List.length_nil, List.not_mem_nil, not_false_eq_true, implies_true, true_and,
    aliasDecision_eq_end]

theorem wellFormed_of_leads (h : Leads (aliasDecision packet answers) i name path last)
    (hname : name.WellFormed) : ∀ x ∈ path ++ [last], x.WellFormed := by
  refine h.forall_mem (fun i current target _ hnext => ?_) hname
  obtain ⟨record, -, hread⟩ := aliasDecision_eq_next.mp hnext
  exact readName_wellFormed hread

/-- **The aliases redirect the question exactly when its name has a CNAME record.** -/
theorem terminalCname_redirects (hname : name.WellFormed)
    (h : terminalCname packet answers name.text = .ok terminal) :
    (cnameAt answers name.text = none ∧ terminal = normalizeDnsName name.text) ∨
      (cnameAt answers name.text ≠ none ∧ dnsNamesEqual terminal name.text = false) := by
  obtain ⟨path, last, hleads, -, hnodup, hend, rfl⟩ := (terminalCname_eq_ok hname).mp h
  have hlast := wellFormed_of_leads hleads hname last (by simp)
  cases hleads with
  | here => exact .inl ⟨hend, rfl⟩
  | step hnext hrest =>
    obtain ⟨record, halias, -⟩ := aliasDecision_eq_next.mp hnext
    refine .inr ⟨by simp [halias], ?_⟩
    rw [List.cons_append, List.map_cons, List.nodup_cons] at hnodup
    unfold dnsNamesEqual
    rw [normalizeDnsName_idem hlast, beq_eq_false_iff_ne]
    exact fun heq => hnodup.1 (heq ▸ List.mem_map_of_mem (by simp))

theorem terminalCname_of_none (packet : Bytes) (hname : name.WellFormed)
    (h : cnameAt answers name.text = none) :
    terminalCname packet answers name.text = .ok (normalizeDnsName name.text) :=
  (terminalCname_eq_ok hname).mpr ⟨[], name, .here, by simp, by simp, h, rfl⟩

/-! ### What the query loop makes of the aliases -/

/-- The query loop takes a response as a redirect to a name, and asks again for that name. -/
def Requeried (response : Bytes) (terminal : Text) : Prop :=
  ∃ target redirects, classifyRedirectAnswer response = .ok (.redirect target redirects) ∧
    dnsNamesEqual target terminal = true

/-- The response repeats the question, once, before its answer records. -/
structure Repeats (response : Bytes) (answers : List ResourceRecord) (header : Header)
    (question asked : Question) : Prop where
  isResponse : header.isResponse = true
  single : header.questionCount = 1
  read : parseQuestion response dnsHeaderLen = .ok asked
  name : asked.name.canonicalWire = question.name.canonicalWire
  rrType : asked.rrType = question.rrType
  rrClass : asked.rrClass = question.rrClass
  answers : ∃ stop, parseRecords response header.answerCount asked.nextOffset = .ok (answers, stop)

/-- **Aliases that the query loop follows to the same end.** -/
structure Followed (response : Bytes) (answers : List ResourceRecord) (asked : Question)
    (terminal : Text) : Prop where
  /-- A CNAME record is not what was asked for. -/
  rrType : asked.rrType ≠ typeAny ∧ asked.rrType ≠ typeCname
  /-- An owner has one target. -/
  tabled : ∃ tables, Tabled asked.rrClass response (others asked answers) tables
  /-- An alias has neither a record of the asked type nor a DNAME record. -/
  apart : ∀ owner, Owns asked.rrClass answers typeCname owner →
    ¬ Owns asked.rrClass answers asked.rrType owner ∧ ¬ Owns asked.rrClass answers typeDname owner
  /-- The aliases on the way from the question are of its class. -/
  inClass : ∀ name record, Relation.ReflTransGen (AliasOf response answers) asked.name name →
    cnameAt answers name.text = some record → InClass asked.rrClass record
  /-- No DNAME record leads on from their end. -/
  notBelow : asked.rrType ≠ typeDname → ∀ record ∈ answers, InClass asked.rrClass record →
    record.rrType = typeDname → dnsNameIsAtOrBelow terminal record.name.text = true →
    dnsNamesEqual terminal record.name.text = true
  /-- There are not more than 16 of them. -/
  short : ∀ names, List.IsChain (AliasOf response answers) (asked.name :: names) →
    names.length ≤ cnameRedirectsMax

/-- A name on the way from the question along its aliases. -/
structure OnAliases (response : Bytes) (answers : List ResourceRecord) (asked : Question)
    (name : DnsName) : Prop where
  wellFormed : name.WellFormed
  reached : Relation.ReflTransGen (AliasOf response answers) asked.name name

theorem OnAliases.next {asked : Question} (h : OnAliases packet answers asked name)
    (halias : AliasOf packet answers name target) : OnAliases packet answers asked target := by
  refine ⟨?_, h.reached.tail halias⟩
  obtain ⟨record, -, hread⟩ := halias
  exact readName_wellFormed hread

theorem redirectTarget_others {owner : Bytes} {question : Question} {rrClass rrType : Nat}
    (h : rrType ≠ question.rrType) :
    redirectTarget rrClass packet (others question answers) rrType owner =
      redirectTarget rrClass packet answers rrType owner := by
  unfold redirectTarget others
  rw [List.find?_filter]
  congr 2
  funext record
  by_cases hat : IsAt rrClass rrType owner record
  · simp [hat, hat.2.1, h]
  · simp [hat]

/-- The first record that meets a condition is the first that meets a stronger one, if it does. -/
theorem find?_of_imp {α : Type} {p q : α → Bool} {xs : List α} {x : α} (h : xs.find? p = some x)
    (himp : ∀ y ∈ xs, q y = true → p y = true) (hx : q x = true) : xs.find? q = some x := by
  obtain ⟨-, before, after, rfl, hbefore⟩ := List.find?_eq_some_iff_append.mp h
  refine List.find?_eq_some_iff_append.mpr ⟨hx, before, after, rfl, fun y hy => ?_⟩
  by_contra hq
  have hp := himp y (by simp [hy]) (by simpa using hq)
  simpa [hp] using hbefore y hy

theorem rewriteCoveringDname_none {dnames : Lib.Maps.FiniteMap Bytes DnsName}
    (hname : name.WellFormed)
    (h : ∀ first middle owner, ValidLabels (first :: (middle ++ owner)) →
      name = DnsName.ofLabels (first :: (middle ++ owner)) →
      dnames.lookup (wireName (owner.map lowercase)) = none) :
    rewriteCoveringDname name dnames = .ok none := by
  obtain ⟨labels, hlabels, rfl⟩ := hname
  cases labels with
  | nil => rfl
  | cons first labels =>
    rw [rewriteCoveringDname_eq hlabels, findDname_none, rewriteFound]
    rintro middle owner rfl
    exact h first middle owner hlabels rfl

section
variable {asked : Question} {response : Bytes} {tables : RedirectTables}
  (hfollowed : Followed response answers asked terminal)
  (htables : Tabled asked.rrClass response (others asked answers) tables)
  (hchecked : ∀ record ∈ answers, Checked response record)
  (hnames : ∀ record ∈ answers, record.name.WellFormed)
include hfollowed htables hchecked hnames

/-- At a name on the way both take the same CNAME record. -/
theorem Followed.redirectDecision_eq (hname : OnAliases response answers asked name)
    (halias : AliasOf response answers name target) (hi : i < cnameRedirectsMax) :
    redirectDecision (redirectSet asked.rrClass asked.rrType answers tables) i name =
      .ok (.inr target) := by
  obtain ⟨record, hfirst, hread⟩ := halias
  have hmem := List.mem_of_find?_eq_some hfirst
  have hsame : ∀ other ∈ answers, IsAt asked.rrClass typeCname name.canonicalWire other →
      (other.rrType == typeCname && dnsNamesEqual other.name.text name.text) = true := by
    intro other hother hat
    rw [Bool.and_eq_true, beq_iff_eq, dnsNamesEqual_text (hnames other hother) hname.wellFormed]
    exact hat.2
  have hat : IsAt asked.rrClass typeCname name.canonicalWire record := by
    have hfound := List.find?_some hfirst
    rw [Bool.and_eq_true, beq_iff_eq, dnsNamesEqual_text (hnames record hmem) hname.wellFormed]
      at hfound
    exact ⟨hfollowed.inClass name record hname.reached hfirst, hfound⟩
  have htarget : redirectTarget asked.rrClass response answers typeCname name.canonicalWire =
      some target := by
    unfold redirectTarget
    rw [find?_of_imp hfirst (fun other hother h => hsame other hother (of_decide_eq_true h))
      (decide_eq_true hat), Option.bind_some, hread]
    rfl
  refine redirectDecision_eq_next.mpr ⟨fun hdirect => ?_, ?_, hi⟩
  · exact (hfollowed.apart _ ⟨record, hmem, hat⟩).1 (mem_direct.mp hdirect)
  · have hlookup := (htables.lookup (fun record hrecord =>
      hchecked record (List.mem_of_mem_filter hrecord)) name.canonicalWire).1
    rw [redirectTarget_others hfollowed.rrType.2.symm, htarget] at hlookup
    unfold follow
    rw [show (redirectSet asked.rrClass asked.rrType answers tables).aliases.lookup
      name.canonicalWire = some target from hlookup]

/-- At the end of the aliases the loop has a redirect, unless there is a direct answer. -/
theorem Followed.redirectDecision_end (hname : name.WellFormed)
    (hend : cnameAt answers name.text = none) (hterminal : normalizeDnsName name.text = terminal)
    (hnone : ∀ record ∈ answers, isRequested asked.rrType record = true →
      dnsNamesEqual record.name.text terminal = false) (hi : i ≠ 0) :
    redirectDecision (redirectSet asked.rrClass asked.rrType answers tables) i name =
      .ok (.inl (.redirect name.text i)) := by
  subst hterminal
  have hkept : ∀ record ∈ others asked answers, Checked response record := fun record hrecord =>
    hchecked record (List.mem_of_mem_filter hrecord)
  have hdirect :
      name.canonicalWire ∉ (redirectSet asked.rrClass asked.rrType answers tables).direct := by
    rw [mem_direct]
    rintro ⟨record, hmem, hat⟩
    have hrequested : isRequested asked.rrType record = true := by
      rw [isRequested, if_neg hfollowed.rrType.1, beq_iff_eq]
      exact hat.2.1
    have hother := hnone record hmem hrequested
    rw [dnsNamesEqual, normalizeDnsName_idem hname, ← dnsNamesEqual, ← Bool.not_eq_true,
      dnsNamesEqual_text (hnames record hmem) hname] at hother
    exact hother hat.2.2
  have halias : tables.aliases.lookup name.canonicalWire = none := by
    rw [AList.lookup_eq_none, (htables.mem hkept _).1]
    rintro ⟨record, hmem, hat⟩
    have hrecord := List.mem_of_mem_filter hmem
    have hmiss := List.find?_eq_none.mp hend record hrecord
    rw [Bool.and_eq_true, beq_iff_eq, dnsNamesEqual_text (hnames record hrecord) hname] at hmiss
    exact hmiss hat.2
  have hdname : rewriteCoveringDname name tables.dnames = .ok none := by
    refine rewriteCoveringDname_none hname fun first middle owner hlabels heq => ?_
    rw [AList.lookup_eq_none, (htables.mem hkept _).2]
    rintro ⟨record, hmem, hclass, htype, howner⟩
    obtain ⟨hrecord, hother⟩ := List.mem_filter.mp hmem
    rw [htype, bne_iff_ne] at hother
    have hvalid : ValidLabels owner := hlabels.of_infix ⟨first :: middle, [], by simp⟩
    have hpath : namePath record.name = pathOf owner := by
      rw [← namePath_ofLabels hvalid, namePath, howner, namePath]
      rfl
    have hbelow : pathOf owner ++ pathOf (first :: middle) = namePath name := by
      rw [heq, namePath_ofLabels hlabels]
      simp [pathOf]
    have hdenotes : Denotes (normalizeDnsName name.text) (namePath name) := by
      rw [(denotes_namePath hname).normalized]
      exact denotes_pathText (isPath_namePath hname)
    have hequal := hfollowed.notBelow hother.symm record hrecord hclass htype
      ((dnsNameIsAtOrBelow_iff hdenotes (denotes_namePath (hnames record hrecord))).mpr
        (hpath ▸ ⟨_, hbelow⟩))
    rw [dnsNamesEqual_iff hdenotes (denotes_namePath (hnames record hrecord)), hpath] at hequal
    have hlength := congrArg List.length (hbelow.trans hequal)
    simp [pathOf] at hlength
  unfold redirectDecision follow
  rw [if_neg hdirect, show (redirectSet asked.rrClass asked.rrType answers tables).aliases.lookup
    name.canonicalWire = none from halias]
  rw [show rewriteCoveringDname name
    (redirectSet asked.rrClass asked.rrType answers tables).dnames =
    .ok none from hdname, ok_bind, if_neg hi]

end

/-- **The query loop asks again for the end of aliases that it follows.** -/
theorem Followed.requeried {asked question : Question} {header : Header} {response : Bytes}
    (hheader : Header.parse response = .ok header) (hcode : header.responseCode = 0)
    (hrepeats : Repeats response answers header question asked)
    (hfollowed : Followed response answers asked terminal)
    (hterminal : terminalCname response answers asked.name.text = .ok terminal)
    (halias : cnameAt answers asked.name.text ≠ none)
    (hnone : ∀ record ∈ answers, isRequested asked.rrType record = true →
      dnsNamesEqual record.name.text terminal = false) : Requeried response terminal := by
  have hname := parseQuestion_wellFormed hrepeats.read
  obtain ⟨stop, hanswers⟩ := hrepeats.answers
  obtain ⟨tables, htables⟩ := hfollowed.tabled
  have hchecked := parseRecords_checked hanswers
  have hnames := fun record hrecord => (parseRecords_wellFormed hanswers record hrecord).name
  obtain ⟨path, last, hleads, -, hnodup, hend, hlast⟩ := (terminalCname_eq_ok hname).mp hterminal
  have hwell := wellFormed_of_leads hleads hname
  have hne : path.length ≠ 0 := by
    cases hleads with
    | here => exact absurd hend halias
    | step => simp
  have hshort : path.length ≤ cnameRedirectsMax := by
    have hnext : ∀ i current target, OnAliases response answers asked current →
        aliasDecision response answers i current = .ok (.inr target) →
          AliasOf response answers current target ∧ OnAliases response answers asked target := by
      intro i current target hcurrent hdecided
      have hstep := aliasDecision_eq_next.mp hdecided
      exact ⟨hstep, hcurrent.next hstep⟩
    obtain ⟨names, -, hlength, hchain⟩ := hleads.isChain hnext ⟨hname, .refl⟩
    exact hlength ▸ hfollowed.short names hchain
  -- the loop takes the path of the validator, and ends where that ends
  have hagree : ∀ i < cnameRedirectsMax, ∀ current target,
      OnAliases response answers asked current →
      aliasDecision response answers i current = .ok (.inr target) →
        redirectDecision (redirectSet asked.rrClass asked.rrType answers tables) i current =
          .ok (.inr target) ∧ OnAliases response answers asked target := by
    intro i hi current target hcurrent hnext
    have hstep := aliasDecision_eq_next.mp hnext
    exact ⟨hfollowed.redirectDecision_eq htables hchecked hnames hcurrent hstep hi,
      hcurrent.next hstep⟩
  obtain ⟨hleads', -⟩ := hleads.of_agree hagree ⟨hname, .refl⟩ (by simpa using hshort)
  have hdecided :=
    hfollowed.redirectDecision_end htables hchecked hnames (hwell last (by simp)) hend
    hlast hnone hne
  have hkeys : ((path ++ [last]).map DnsName.canonicalWire).Nodup := by
    refine List.Nodup.map_on (fun a ha b hb heq => ?_) hnodup.of_map
    refine List.inj_on_of_nodup_map hnodup ha hb ?_
    exact beq_iff_eq.mp ((dnsNamesEqual_text (hwell a ha) (hwell b hb)).mpr heq)
  have hchain : classifyRedirectChain asked.name
      (redirectSet asked.rrClass asked.rrType answers tables) =
        .ok (.redirect last.text path.length) := by
    refine (loop_classifyRedirectBody _ (cnameRedirectsMax + 2) asked.name []).trans ?_
    refine walk_eq_ok.mpr ⟨path, last, hleads', by omega, hkeys, by simp, ?_⟩
    simpa using hdecided
  refine ⟨last.text, path.length, ?_, ?_⟩
  · refine (classifyRedirectAnswer_eq_ok hheader hrepeats.isResponse hrepeats.read hcode).mpr
      ⟨hrepeats.single, _, ?_, hchain⟩
    exact (redirectAnswers_eq_ok hfollowed.rrType.1 hfollowed.rrType.2).mpr
      ⟨answers, stop, tables, hanswers, htables, hfollowed.apart, rfl⟩
  · rw [← hlast, dnsNamesEqual, normalizeDnsName_idem (hwell last (by simp))]
    simp

/-! ### Secure answers -/

section
variable (sha1 : Bytes → Bytes) (query response : Bytes) (records : List ResourceRecord)

/-- **A secure NOERROR response answers the question**: with a record of the type at the end of the
aliases, with aliases at whose end the query loop asks again, or with a proof that the type is
absent there. -/
def SecureAnswersQuestion : Prop :=
  ∀ question header, firstQuestion query = .ok question → Header.parse response = .ok header →
    header.responseCode = 0 →
    authenticatedResponseSemantics sha1 query response records = .ok .secure →
    ∃ terminal,
      terminalCname response (records.take header.answerCount) question.name.text = .ok terminal ∧
      ((∃ record ∈ records.take header.answerCount,
          isRequested question.rrType record = true ∧
            dnsNamesEqual record.name.text terminal = true) ∨
        (dnsNamesEqual terminal question.name.text = false ∧ Requeried response terminal) ∨
        dnssecDenialResult sha1 response records terminal question.rrType = .ok .noData)

/-- The response has records of the type in its answer section, but none of them at the name of the
question, which is no alias either; the wildcards of the answer section are proven. -/
structure AnswersElsewhere (question : Question) (header : Header) : Prop where
  counted : header.answerCount ≤ records.length
  noAlias : cnameAt (records.take header.answerCount) question.name.text = none
  requested : ∃ record ∈ records.take header.answerCount, isRequested question.rrType record = true
  elsewhere : ∀ record ∈ records.take header.answerCount,
    isRequested question.rrType record = true →
    dnsNamesEqual record.name.text question.name.text = false
  wildcards : checkSignatures sha1 response records
    ((records.take header.answerCount).filter (·.rrType == typeRrsig)) = .ok ()

/-- An answer of the type at another name comes with a proof that the type is absent at the name. -/
def ElsewhereDenies : Prop :=
  ∀ question header, firstQuestion query = .ok question → Header.parse response = .ok header →
    header.responseCode = 0 → AnswersElsewhere sha1 response records question header →
    dnssecDenialResult sha1 response records (normalizeDnsName question.name.text) question.rrType =
      .ok .noData

/-- The name of the question is an alias, at whose end there is neither a record of the type nor a
proof that it is absent; the wildcards of the answer section are proven. -/
structure AnswersByAlias (question : Question) (header : Header) (terminal : Text) : Prop where
  counted : header.answerCount ≤ records.length
  aliased : cnameAt (records.take header.answerCount) question.name.text ≠ none
  ends : terminalCname response (records.take header.answerCount) question.name.text = .ok terminal
  unanswered : ∀ record ∈ records.take header.answerCount,
    isRequested question.rrType record = true →
    dnsNamesEqual record.name.text terminal = false
  undenied : dnssecDenialResult sha1 response records terminal question.rrType ≠ .ok .noData
  wildcards : checkSignatures sha1 response records
    ((records.take header.answerCount).filter (·.rrType == typeRrsig)) = .ok ()

/-- The query loop follows the aliases of a response that answers with nothing else. -/
def AliasesFollowed : Prop :=
  ∀ question header terminal, firstQuestion query = .ok question →
    Header.parse response = .ok header → header.responseCode = 0 →
    AnswersByAlias sha1 response records question header terminal →
    ∃ asked, Repeats response (records.take header.answerCount) header question asked ∧
      Followed response (records.take header.answerCount) asked terminal

end

variable {header : Header} {query response : Bytes} {question : Question}
  {records : List ResourceRecord} {sha1 : Bytes → Bytes}

theorem AnswersByAlias.requeried (hquestion : firstQuestion query = .ok question)
    (hheader : Header.parse response = .ok header) (hcode : header.responseCode = 0)
    (h : AnswersByAlias sha1 response records question header terminal)
    (hfollowed : AliasesFollowed sha1 query response records) : Requeried response terminal := by
  obtain ⟨asked, hrepeats, hfollowed⟩ :=
    hfollowed question header terminal hquestion hheader hcode h
  -- the two questions have the same name, but for the case of its text
  have hsame : normalizeDnsName asked.name.text = normalizeDnsName question.name.text :=
    beq_iff_eq.mp ((dnsNamesEqual_text (parseQuestion_wellFormed hrepeats.read)
      (firstQuestion_wellFormed hquestion)).mpr hrepeats.name)
  refine hfollowed.requeried hheader hcode hrepeats ?_ ?_ ?_
  · unfold terminalCname
    rw [hsame]
    exact h.ends
  · have halias := h.aliased
    unfold cnameAt dnsNamesEqual at halias ⊢
    rw [hsame]
    exact halias
  · rw [hrepeats.rrType]
    exact h.unanswered

def aliasQuery : Bytes := queryWire flagRd [[97]] typeA

/-- A response with a signed alias of `a` alone. -/
def aliasResponse : Bytes :=
  responseWire 0x8180 [[97]] typeA
    [recordWire [[97]] typeCname 0 (wireName [[98]]), recordWire [[97]] typeRrsig 0
      (rrsigRdata typeCname 13 1 0 2000000000 1000000000 4711 [[97]] [1])] []

def aliasRecords : List ResourceRecord :=
  [⟨⟨['a'], [1, 97, 0]⟩, typeCname, classIn, 0, 26, 32, [1, 98, 0], 35⟩,
    ⟨⟨['a'], [1, 97, 0]⟩, typeRrsig, classIn, 0, 42, 48,
      rrsigRdata typeCname 13 1 0 2000000000 1000000000 4711 [[97]] [1], 70⟩]

theorem followed_aliasRecords :
    Followed aliasResponse aliasRecords ⟨⟨['a'], [1, 97, 0]⟩, typeA, classIn, 19⟩ ['b'] := by
  have hone : ∀ name target, AliasOf aliasResponse aliasRecords name target →
      target.text = ['b'] := by
    rintro name target ⟨record, hfirst, hread⟩
    have hmem := List.mem_of_find?_eq_some hfirst
    have htype := List.find?_some hfirst
    have htargets : ∀ record ∈ aliasRecords, record.rrType = typeCname →
        readName aliasResponse record.rdataOffset = .ok (⟨['b'], [1, 98, 0]⟩, 35) := by decide
    rw [Bool.and_eq_true, beq_iff_eq] at htype
    have hsame := (htargets record hmem htype.1).symm.trans hread
    rw [Except.ok.injEq, Prod.mk.injEq] at hsame
    rw [← hsame.1]
  have htypes : ∀ record ∈ aliasRecords, record.rrType ≠ typeDname ∧ record.rrType ≠ typeA := by
    decide
  refine ⟨by decide, ?_, ?_, ?_, ?_, ?_⟩
  · have hok : ((others ⟨⟨['a'], [1, 97, 0]⟩, typeA, classIn, 19⟩ aliasRecords).foldlM
        (addRedirect classIn aliasResponse) ⟨∅, ∅⟩).isOk = true := by decide
    cases htables : (others ⟨⟨['a'], [1, 97, 0]⟩, typeA, classIn, 19⟩ aliasRecords).foldlM
        (addRedirect classIn aliasResponse) ⟨∅, ∅⟩ with
    | error e =>
      rw [htables] at hok
      cases hok
    | ok tables => exact ⟨tables, htables⟩
  · rintro owner -
    refine ⟨?_, ?_⟩
    · rintro ⟨record, hmem, hat⟩
      exact (htypes record hmem).2 hat.2.1
    · rintro ⟨record, hmem, hat⟩
      exact (htypes record hmem).1 hat.2.1
  · intro name record _ hfirst
    have hclasses : ∀ record ∈ aliasRecords, InClass classIn record := by decide
    exact hclasses record (List.mem_of_find?_eq_some hfirst)
  · intro _ record hmem _ htype
    exact absurd htype (htypes record hmem).1
  · intro names hchain
    match names, hchain with
    | [], _ => exact Nat.zero_le _
    | [_], _ => exact show 1 ≤ 16 by decide
    | second :: third :: _, hchain =>
      rw [List.isChain_cons_cons, List.isChain_cons_cons] at hchain
      obtain ⟨record, hfirst, -⟩ := hchain.2.1
      rw [hone _ _ hchain.1, show cnameAt aliasRecords ['b'] = none by decide] at hfirst
      cases hfirst

def elsewhereQuery : Bytes := queryWire flagRd [labelOf "a", labelOf "example"] typeA

/-- A response with a signed address of `b.example` alone. -/
def elsewhereResponse : Bytes :=
  responseWire 0x8180 [labelOf "a", labelOf "example"] typeA
    [recordWire [labelOf "b", labelOf "example"] typeA 3600 [192, 0, 2, 1],
      recordWire [labelOf "b", labelOf "example"] typeRrsig 3600
        (rrsigRdata typeA 13 2 3600 2000000000 1000000000 4711 [labelOf "example"]
          (List.replicate 64 1))] []

def elsewhereRecords : List ResourceRecord :=
  [{ name := DnsName.ofLabels [labelOf "b", labelOf "example"]
     rrType := typeA
     rrClass := classIn
     ttl := 3600
     ttlOffset := 42
     rdataOffset := 48
     rdata := [192, 0, 2, 1]
     nextOffset := 52 },
   { name := DnsName.ofLabels [labelOf "b", labelOf "example"]
     rrType := typeRrsig
     rrClass := classIn
     ttl := 3600
     ttlOffset := 67
     rdataOffset := 73
     rdata := rrsigRdata typeA 13 2 3600 2000000000 1000000000 4711 [labelOf "example"]
       (List.replicate 64 1)
     nextOffset := 164 }]

end RustdResolved.Dnssec.SecureAnswers
