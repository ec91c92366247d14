import RustdResolved.Wire.Redirects
import RustdResolved.Wire.RelocatePacket

/-! # What the walk along the redirects knows of an answer

`classifyRedirectAnswer` reads the answer records one after another into tables. On the records of a
packet, whose data has been checked, they hold the first target of each owner (`redirectTarget`),
and the direct answers are those of the records that an owner has (`Owns`). -/

namespace RustdResolved.Wire.AnswerTables

open List Lib Result Maps Octets Name PacketHeader Record RelocateRecord RelocatePacket Redirects

variable {count offset rrClass rrType stop : Nat} {owner packet : Bytes} {question : Question}
  {record : ResourceRecord} {redirects : FiniteMap Bytes DnsName} {target : DnsName}

/-! ### Records -/

/-- A record of the class that a question asks for. -/
def InClass (rrClass : Nat) (record : ResourceRecord) : Prop :=
  rrClass = classAny ∨ record.rrClass = rrClass
  deriving Decidable

/-- A record of the given class and type at an owner. -/
def IsAt (rrClass rrType : Nat) (owner : Bytes) (record : ResourceRecord) : Prop :=
  InClass rrClass record ∧ record.rrType = rrType ∧ record.name.canonicalWire = owner
  deriving Decidable

def Owns (rrClass : Nat) (answers : List ResourceRecord) (rrType : Nat) (owner : Bytes) : Prop :=
  ∃ record ∈ answers, IsAt rrClass rrType owner record

/-- The target of the first redirect of the given type that an owner has. -/
def redirectTarget (rrClass : Nat) (packet : Bytes) (answers : List ResourceRecord) (rrType : Nat)
    (owner : Bytes) : Option DnsName :=
  (answers.find? fun record => IsAt rrClass rrType owner record).bind fun record =>
    (readName packet record.rdataOffset).toOption.map Prod.fst

/-- What the parser has checked of a record that redirects. -/
def Checked (packet : Bytes) (record : ResourceRecord) : Prop :=
  record.rrType = typeCname ∨ record.rrType = typeDname →
    ∃ target, readName packet record.rdataOffset = .ok (target, record.nextOffset)

theorem requireNameEnd_ok (h : requireNameEnd packet offset stop true = .ok ()) :
    ∃ name, readName packet offset = .ok (name, stop) := by
  obtain ⟨result, hresult, h⟩ := of_bind h
  unfold requireExactEnd at h
  split_ifs at h with hstop
  exact hstop ▸ readBoundedName_readName hresult

theorem parseRecords_checked {start : Nat} {records : List ResourceRecord}
    (h : parseRecords packet count start = .ok (records, stop)) :
    ∀ record ∈ records, Checked packet record := by
  intro record hrecord
  obtain ⟨offset, nameEnd, rawTtl, hat⟩ := parseRecords_recordAt h record hrecord
  have hvalid := hat.valid
  unfold validateRecordRdata at hvalid
  rintro (htype | htype)
  · rw [htype] at hvalid
    exact requireNameEnd_ok hvalid
  · rw [htype] at hvalid
    exact requireNameEnd_ok hvalid

/-! ### The loops over the records -/

/-- Reading and handling records in turn is reading them all and then handling them, when it
succeeds. -/
theorem foldRecords_eq_ok {σ : Type} {handle : σ → ResourceRecord → Except WireError σ}
    {state result : σ} :
    foldRecords packet handle count offset state = .ok result ↔
      ∃ records stop, parseRecords packet count offset = .ok (records, stop) ∧
        records.foldlM handle state = .ok result := by
  induction count generalizing offset state result with
  | zero => simp [foldRecords, parseRecords]
  | succ count ih =>
    constructor
    · intro h
      obtain ⟨record, hrecord, h⟩ := of_bind h
      obtain ⟨next, hnext, h⟩ := of_bind h
      obtain ⟨records, stop, hrecords, hfold⟩ := ih.mp h
      refine ⟨record :: records, stop, ?_, ?_⟩
      · simp only [parseRecords, hrecord, ok_bind, hrecords]
      · rw [foldlM_cons, hnext]
        exact hfold
    · rintro ⟨records, stop, h, hfold⟩
      obtain ⟨record, hrecord, h⟩ := of_bind h
      obtain ⟨⟨rest, stop'⟩, hrest, h⟩ := of_bind h
      cases h
      obtain ⟨next, hnext, hfold⟩ := of_bind hfold
      simp only [foldRecords, hrecord, ok_bind, hnext]
      exact ih.mpr ⟨rest, stop, hrest, hfold⟩

/-- The aliases and the DNAME records of an answer. -/
structure RedirectTables where
  aliases : FiniteMap Bytes DnsName
  dnames : FiniteMap Bytes DnsName

def addRedirect (rrClass : Nat) (packet : Bytes) (tables : RedirectTables)
    (record : ResourceRecord) : Except WireError RedirectTables :=
  let owner := record.name.canonicalWire
  if ¬ InClass rrClass record then .ok tables
  else if record.rrType = typeCname then do
    let aliases ← insertRedirect packet record owner tables.aliases
    .ok { tables with aliases := aliases }
  else if record.rrType = typeDname then do
    let dnames ← insertRedirect packet record owner tables.dnames
    .ok { tables with dnames := dnames }
  else .ok tables

def addDirect (rrClass rrType : Nat) (direct : List Bytes) (record : ResourceRecord) : List Bytes :=
  if InClass rrClass record ∧ record.rrType = rrType then record.name.canonicalWire :: direct
  else direct

/-- The records that are not of the type of the question: those that redirect. -/
def others (question : Question) (records : List ResourceRecord) : List ResourceRecord :=
  records.filter (·.rrType != question.rrType)

theorem addRedirectAnswer_eq (htype : question.rrType ≠ typeAny) (record : ResourceRecord)
    (tables : RedirectTables) (direct : List Bytes) :
    addRedirectAnswer packet question ⟨direct, tables.aliases, tables.dnames⟩ record = (do
      let tables ← (if record.rrType != question.rrType then
          addRedirect question.rrClass packet tables record
        else .ok tables)
      .ok ⟨addDirect question.rrClass question.rrType direct record, tables.aliases,
        tables.dnames⟩) := by
  unfold addRedirectAnswer addRedirect addDirect
  by_cases hin : InClass question.rrClass record
  · rw [if_neg fun hother => hin.elim hother.1 hother.2]
    by_cases hdirect : record.rrType = question.rrType
    · simp [hin, hdirect]
    · have hnot : ¬ (InClass question.rrClass record ∧ record.rrType = question.rrType) :=
        fun hboth => hdirect hboth.2
      rw [if_neg (by simp [htype, hdirect]), if_pos (bne_iff_ne.mpr hdirect),
        if_neg (not_not.mpr hin)]
      simp only [if_neg hnot]
      by_cases hc : record.rrType = typeCname
      · simp only [if_pos hc]
        cases insertRedirect packet record record.name.canonicalWire tables.aliases <;> rfl
      by_cases hd : record.rrType = typeDname
      · simp only [if_neg hc, if_pos hd]
        cases insertRedirect packet record record.name.canonicalWire tables.dnames <;> rfl
      · simp only [if_neg hc, if_neg hd, ok_bind]
  · rw [if_pos (not_or.mp hin)]
    simp [hin]

/-! ### The redirects -/

def RedirectTables.ofType (tables : RedirectTables) (rrType : Nat) : FiniteMap Bytes DnsName :=
  if rrType = typeCname then tables.aliases else tables.dnames

def IsRedirectType (rrType : Nat) : Prop := rrType = typeCname ∨ rrType = typeDname
  deriving Decidable

variable {records : List ResourceRecord} {tables tables' : RedirectTables}

theorem insertRedirect_lookup {redirects' : FiniteMap Bytes DnsName}
    (h : insertRedirect packet record owner redirects = .ok redirects') :
    ∃ target, (readName packet record.rdataOffset).toOption.map Prod.fst = some target ∧
      ∀ other, redirects'.lookup other =
        (redirects.lookup other).or (if other = owner then some target else none) := by
  obtain ⟨⟨target, stop⟩, hread, h⟩ := of_bind h
  refine ⟨target, by rw [hread]; rfl, fun other => ?_⟩
  dsimp only at h
  split_ifs at h
  cases hlookup : redirects.lookup owner with
  | some existing =>
    simp only [hlookup] at h
    split_ifs at h
    cases h
    by_cases hother : other = owner
    · rw [hother, hlookup, Option.some_or]
    · rw [if_neg hother, Option.or_none]
  | none =>
    simp only [hlookup] at h
    cases h
    by_cases hother : other = owner
    · rw [hother, AList.lookup_insert, hlookup, if_pos rfl, Option.none_or]
    · rw [AList.lookup_insert_ne hother, if_neg hother, Option.or_none]

theorem redirectTarget_cons (rrType : Nat) (owner : Bytes) :
    redirectTarget rrClass packet (record :: records) rrType owner =
      if IsAt rrClass rrType owner record then
        (readName packet record.rdataOffset).toOption.map Prod.fst
      else redirectTarget rrClass packet records rrType owner := by
  unfold redirectTarget
  rw [find?_cons]
  by_cases hat : IsAt rrClass rrType owner record
  · simp [hat]
  · simp [hat]

theorem addRedirect_cases (h : addRedirect rrClass packet tables record = .ok tables') :
    (tables' = tables ∧ ∀ rrType owner, IsRedirectType rrType →
      ¬ IsAt rrClass rrType owner record) ∨
      ∃ rrType redirects, IsRedirectType rrType ∧
      IsAt rrClass rrType record.name.canonicalWire record ∧
        insertRedirect packet record record.name.canonicalWire (tables.ofType rrType) =
          .ok redirects ∧
        tables'.ofType rrType = redirects ∧
        ∀ other, IsRedirectType other → other ≠ rrType →
        tables'.ofType other = tables.ofType other := by
  unfold addRedirect at h
  split_ifs at h with hclass hcname hdname
  · obtain ⟨aliases, haliases, h⟩ := of_bind h
    cases h
    refine .inr ⟨typeCname, aliases, .inl rfl, ⟨hclass, hcname, rfl⟩, haliases, rfl, ?_⟩
    rintro other (rfl | rfl) hne
    · exact absurd rfl hne
    · rfl
  · obtain ⟨dnames, hdnames, h⟩ := of_bind h
    cases h
    refine .inr ⟨typeDname, dnames, .inr rfl, ⟨hclass, hdname, rfl⟩, hdnames, rfl, ?_⟩
    rintro other (rfl | rfl) hne
    · rfl
    · exact absurd rfl hne
  · cases h
    refine .inl ⟨rfl, ?_⟩
    rintro rrType owner (rfl | rfl) hat
    · exact hcname hat.2.1
    · exact hdname hat.2.1
  · cases h
    exact .inl ⟨rfl, fun rrType owner _ hat => hclass hat.1⟩

section
variable (htype : IsRedirectType rrType)
include htype

/-- One record adds its target to the table of its type, unless its owner has one there. -/
theorem addRedirect_lookup (h : addRedirect rrClass packet tables record = .ok tables')
    (owner : Bytes) :
    (tables'.ofType rrType).lookup owner =
      ((tables.ofType rrType).lookup owner).or
        (redirectTarget rrClass packet [record] rrType owner) := by
  rw [redirectTarget_cons, show redirectTarget rrClass packet [] rrType owner = none from rfl]
  rcases addRedirect_cases h with ⟨rfl, hnot⟩ | ⟨own, redirects, hown, hat, hinsert, hsame, hother⟩
  · rw [if_neg (hnot rrType owner htype), Option.or_none]
  · by_cases heq : rrType = own
    · subst heq
      obtain ⟨target, htarget, hlookup⟩ := insertRedirect_lookup hinsert
      rw [hsame, hlookup, htarget]
      by_cases howner : owner = record.name.canonicalWire
      · rw [if_pos howner, if_pos (howner ▸ hat)]
      · rw [if_neg howner, if_neg fun hcontra => howner hcontra.2.2.symm]
    · rw [hother rrType htype heq, if_neg fun hcontra => heq (hcontra.2.1.symm.trans hat.2.1),
        Option.or_none]

/-- **The table of a type holds the first target of each owner.** -/
theorem foldlM_addRedirect_lookup {records : List ResourceRecord}
    {tables tables' : RedirectTables} (hchecked : ∀ record ∈ records, Checked packet record)
    (h : records.foldlM (addRedirect rrClass packet) tables = .ok tables') (owner : Bytes) :
    (tables'.ofType rrType).lookup owner =
      ((tables.ofType rrType).lookup owner).or
        (redirectTarget rrClass packet records rrType owner) := by
  induction records generalizing tables with
  | nil =>
    cases h
    exact Option.or_none.symm
  | cons record records ih =>
    obtain ⟨next, hnext, h⟩ := of_bind h
    rw [ih (fun r hr => hchecked r (mem_cons_of_mem _ hr)) h,
      addRedirect_lookup htype hnext owner, Option.or_assoc, redirectTarget_cons,
      redirectTarget_cons]
    congr 1
    by_cases hat : IsAt rrClass rrType owner record
    · -- the data of a redirect is a name, so the first record at the owner has a target
      have hredirect : record.rrType = typeCname ∨ record.rrType = typeDname := by
        rw [hat.2.1]
        exact htype
      obtain ⟨target, htarget⟩ := hchecked record (by simp) hredirect
      rw [if_pos hat, if_pos hat, htarget]
      rfl
    · rw [if_neg hat, if_neg hat]
      rfl

theorem redirectTarget_isSome (hchecked : ∀ record ∈ records, Checked packet record) :
    ((redirectTarget rrClass packet records rrType owner).isSome ↔
      Owns rrClass records rrType owner) := by
  induction records with
  | nil => simp [redirectTarget, Owns]
  | cons record records ih =>
    rw [redirectTarget_cons]
    by_cases hat : IsAt rrClass rrType owner record
    · have hredirect : record.rrType = typeCname ∨ record.rrType = typeDname := by
        rw [hat.2.1]
        exact htype
      obtain ⟨target, htarget⟩ := hchecked record (by simp) hredirect
      rw [if_pos hat, htarget]
      exact iff_of_true rfl ⟨record, by simp, hat⟩
    · rw [if_neg hat, ih fun r hr => hchecked r (mem_cons_of_mem _ hr)]
      simp [Owns, hat]

end

/-! ### The direct answers -/

theorem mem_foldl_addDirect {direct : List Bytes} :
    owner ∈ records.foldl (addDirect rrClass rrType) direct ↔ owner ∈ direct ∨
      Owns rrClass records rrType owner := by
  induction records generalizing direct with
  | nil => simp [Owns]
  | cons record records ih =>
    have hstep : owner ∈ addDirect rrClass rrType direct record ↔
        owner ∈ direct ∨ IsAt rrClass rrType owner record := by
      unfold addDirect
      split_ifs with hboth
      · simp [IsAt, hboth, or_comm, eq_comm]
      · have hnot : ¬ IsAt rrClass rrType owner record := fun hat => hboth ⟨hat.1, hat.2.1⟩
        simp [hnot]
    rw [foldl_cons, ih, hstep]
    simp [Owns, or_assoc]

/-! ### The tables -/

/-- The redirects of an answer can be told apart: no owner has two different targets. -/
def Tabled (rrClass : Nat) (packet : Bytes) (records : List ResourceRecord)
    (tables : RedirectTables) : Prop :=
  records.foldlM (addRedirect rrClass packet) ⟨∅, ∅⟩ = .ok tables

theorem Tabled.lookup (h : Tabled rrClass packet records tables)
    (hchecked : ∀ record ∈ records, Checked packet record) (owner : Bytes) :
    tables.aliases.lookup owner = redirectTarget rrClass packet records typeCname owner ∧
      tables.dnames.lookup owner = redirectTarget rrClass packet records typeDname owner := by
  refine ⟨?_, ?_⟩
  · exact (foldlM_addRedirect_lookup (.inl rfl) hchecked h owner).trans (Option.none_or ..)
  · exact (foldlM_addRedirect_lookup (.inr rfl) hchecked h owner).trans (Option.none_or ..)

theorem Tabled.mem (h : Tabled rrClass packet records tables)
    (hchecked : ∀ record ∈ records, Checked packet record) (owner : Bytes) :
    (owner ∈ tables.aliases ↔ Owns rrClass records typeCname owner) ∧
      (owner ∈ tables.dnames ↔ Owns rrClass records typeDname owner) := by
  obtain ⟨haliases, hdnames⟩ := h.lookup hchecked owner
  rw [← AList.lookup_isSome, ← AList.lookup_isSome, haliases, hdnames]
  exact ⟨redirectTarget_isSome (.inl rfl) hchecked, redirectTarget_isSome (.inr rfl) hchecked⟩

/-- The tables of `classifyRedirectAnswer`. -/
def redirectSet (rrClass rrType : Nat) (answers : List ResourceRecord) (tables : RedirectTables) :
    RedirectAnswerSet :=
  ⟨answers.foldl (addDirect rrClass rrType) [], tables.aliases, tables.dnames⟩

/-- No alias has other data in the given tables. -/
theorem aliases_any_eq_false {aliases : FiniteMap Bytes DnsName} {clash : Bytes → Bool} :
    aliases.keys.any clash = false ↔ ∀ owner ∈ aliases, clash owner = false := by
  simp only [any_eq_false, Bool.not_eq_true, AList.mem_keys]

theorem owns_others (h : rrType ≠ question.rrType) :
    Owns rrClass (others question records) rrType owner ↔ Owns rrClass records rrType owner := by
  unfold Owns others
  refine exists_congr fun record => ?_
  rw [mem_filter, and_assoc]
  refine and_congr_right fun _ => and_iff_right_of_imp fun hat => ?_
  rw [hat.2.1]
  exact bne_iff_ne.mpr h

theorem not_owns_others : ¬ Owns rrClass (others question records) question.rrType owner := by
  rintro ⟨record, hrecord, hat⟩
  exact bne_iff_ne.mp (mem_filter.mp hrecord).2 hat.2.1

/-- The tables of `classifyRedirectAnswer`, and the check that it makes of them. -/
def redirectAnswers (packet : Bytes) (question : Question) (count : Nat) :
    Except WireError RedirectAnswerSet := do
  let answers ← foldRecords packet (addRedirectAnswer packet question) count question.nextOffset
    ⟨[], ∅, ∅⟩
  if answers.aliases.keys.any fun owner =>
      answers.direct.contains owner || owner ∈ answers.dnames then .error .invalidRecord
  else .ok answers

/-- **The tables of `classifyRedirectAnswer`.** -/
theorem redirectAnswers_eq_ok (hany : question.rrType ≠ typeAny)
    (hcname : question.rrType ≠ typeCname) {output : RedirectAnswerSet} :
    redirectAnswers packet question count = .ok output ↔
      ∃ records stop tables, parseRecords packet count question.nextOffset = .ok (records, stop) ∧
        Tabled question.rrClass packet (others question records) tables ∧
        (∀ owner, Owns question.rrClass records typeCname owner →
          ¬ Owns question.rrClass records question.rrType owner ∧
            ¬ Owns question.rrClass records typeDname owner) ∧
        output = redirectSet question.rrClass question.rrType records tables := by
  have hpair := fun records => foldlM_pair (fun (tables : RedirectTables) direct =>
    (⟨direct, tables.aliases, tables.dnames⟩ : RedirectAnswerSet)) records ⟨∅, ∅⟩ []
    fun record _ => @addRedirectAnswer_eq packet _ hany record
  have hfold (records : List ResourceRecord) :
      records.foldlM (addRedirectAnswer packet question) ⟨[], ∅, ∅⟩ = (do
        let tables ← (others question records).foldlM (addRedirect question.rrClass packet) ⟨∅, ∅⟩
        .ok (redirectSet question.rrClass question.rrType records tables)) := by
    rw [others, foldlM_filter]
    exact hpair records
  have hapart {records : List ResourceRecord} {tables : RedirectTables}
      (hchecked : ∀ record ∈ records, Checked packet record)
      (htables : Tabled question.rrClass packet (others question records) tables) :
      (tables.aliases.keys.any fun owner =>
          (redirectSet question.rrClass question.rrType records tables).direct.contains owner ||
            owner ∈ tables.dnames) = false ↔
        ∀ owner, Owns question.rrClass records typeCname owner →
          ¬ Owns question.rrClass records question.rrType owner ∧
            ¬ Owns question.rrClass records typeDname owner := by
    refine aliases_any_eq_false.trans (forall_congr' fun owner => ?_)
    have hmem :=
      htables.mem (fun record hrecord => hchecked record (mem_of_mem_filter hrecord)) owner
    rw [hmem.1, owns_others hcname.symm, Bool.or_eq_false_iff, decide_eq_false_iff_not, hmem.2,
      ← Bool.not_eq_true, contains_iff_mem, redirectSet, mem_foldl_addDirect]
    by_cases hdname : typeDname = question.rrType
    · -- DNAME records that are asked for are direct answers
      simp [hdname, not_owns_others]
    · simp [owns_others hdname]
  unfold redirectAnswers
  rw [bind_eq_ok]
  constructor
  · rintro ⟨found, hfound, h⟩
    obtain ⟨records, stop, hrecords, hmade⟩ := foldRecords_eq_ok.mp hfound
    rw [hfold] at hmade
    obtain ⟨tables, htables, hmade⟩ := of_bind hmade
    cases hmade
    split_ifs at h with hany
    cases h
    refine ⟨records, stop, tables, hrecords, htables, ?_, rfl⟩
    exact (hapart (parseRecords_checked hrecords) htables).mp (Bool.not_eq_true _ ▸ hany)
  · rintro ⟨records, stop, tables, hrecords, htables, hnone, rfl⟩
    refine ⟨redirectSet question.rrClass question.rrType records tables,
      foldRecords_eq_ok.mpr ⟨records, stop, hrecords, ?_⟩, ?_⟩
    · rw [hfold, show (others question records).foldlM (addRedirect question.rrClass packet)
        ⟨∅, ∅⟩ = .ok tables from htables]
      rfl
    · refine if_neg ?_
      rw [Bool.not_eq_true]
      exact (hapart (parseRecords_checked hrecords) htables).mpr hnone

end RustdResolved.Wire.AnswerTables
