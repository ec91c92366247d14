import RustdResolved.Dnssec.Canonical
import RustdResolved.Lib.SortedSet
import RustdResolved.Wire.Overwrite

/-! # The order of the records that are signed

The records of a set are put in order in their whole canonical form, where the length of the data
comes before the data. The standard orders them by their data, with the data of one record before
any longer data it begins. The two orders agree on a set unless some data sorts before shorter
data. -/

namespace RustdResolved.Dnssec.SignedOrder

open List Lib Result SortedSet Wire Octets Name PacketHeader Record DnssecRecords Canonical

variable {packet owner output a b : Bytes} {signature : RrsigRecord} {rrClass m n : Nat}
  {first record rrsigRecord : ResourceRecord} {rrset rest : List ResourceRecord}

def recordForm (signature : RrsigRecord) (owner : Bytes) (rrClass : Nat) (rdata : Bytes) : Bytes :=
  owner ++ u16ToBeBytes signature.typeCovered ++ u16ToBeBytes rrClass ++
    u32ToBeBytes signature.originalTtl ++ u16ToBeBytes rdata.length ++ rdata

/-- The canonical data of some record of a set. -/
def IsRdata (packet : Bytes) (rrset : List ResourceRecord) (rdata : Bytes) : Prop :=
  ∃ record ∈ rrset, canonicalRdata packet record = .ok rdata

/-- The signed data as the standard has it: the fields of the signature, and the records of the set
by their canonical data, each once and in the order of the data. -/
def InRdataOrder (packet : Bytes) (signature : RrsigRecord) (owner : Bytes) (rrClass : Nat)
    (rrset : List ResourceRecord) (output : Bytes) : Prop :=
  ∃ rdatas : List Bytes, rdatas.Pairwise (· < ·) ∧
    (∀ rdata, rdata ∈ rdatas ↔ IsRdata packet rrset rdata) ∧
    output = rrsigFields signature ++ rdatas.flatMap (recordForm signature owner rrClass)

/-! ### Forms and their data -/

theorem u16ToBeBytes_append_lt (hn : n ≤ 65535) (h : m < n) :
    u16ToBeBytes m ++ a < u16ToBeBytes n ++ b := by
  simp only [u16ToBeBytes, cons_append, nil_append, cons_lt_cons_iff,
    UInt8.lt_iff_toNat_lt, ← UInt8.toNat_inj, UInt8.toNat_ofNat']
  omega

theorem u16ToBeBytes_inj (hm : m ≤ 65535) (hn : n ≤ 65535)
    (h : u16ToBeBytes m = u16ToBeBytes n) : m = n := by
  rcases lt_trichotomy m n with hlt | heq | hgt
  · exact absurd (u16ToBeBytes_append_lt (a := []) (b := []) hn hlt) (by simp [h])
  · exact heq
  · exact absurd (u16ToBeBytes_append_lt (a := []) (b := []) hm hgt) (by simp [h])

/-- Forms are ordered by the lengths of their data first. -/
theorem recordForm_lt (hb : b.length ≤ 65535)
    (h : a.length < b.length ∨ a.length = b.length ∧ a < b) :
    recordForm signature owner rrClass a < recordForm signature owner rrClass b := by
  simp only [recordForm, append_assoc]
  iterate 4 refine append_left_lt ?_
  rcases h with h | ⟨hlength, h⟩
  · exact u16ToBeBytes_append_lt hb h
  · rw [hlength]
    exact append_left_lt h

/-- A form says where it ends, so a row of octets is a row of forms in one way. -/
theorem eq_map_of_flatten : ∀ {forms rdatas : List Bytes},
    (∀ form ∈ forms, ∃ rdata, rdata.length ≤ 65535 ∧
      recordForm signature owner rrClass rdata = form) →
    (∀ rdata ∈ rdatas, rdata.length ≤ 65535) →
    forms.flatten = rdatas.flatMap (recordForm signature owner rrClass) →
    forms = rdatas.map (recordForm signature owner rrClass)
  | [], [], _, _, _ => rfl
  | [], _ :: _, _, _, h => by simp [recordForm, u16ToBeBytes] at h
  | _ :: _, [], hforms, _, h => by
    obtain ⟨⟨x, -, rfl⟩, -⟩ := forall_mem_cons.mp hforms
    simp [recordForm, u16ToBeBytes] at h
  | _ :: forms, y :: rdatas, hforms, hrdatas, h => by
    obtain ⟨⟨x, hx, rfl⟩, hforms'⟩ := forall_mem_cons.mp hforms
    obtain ⟨hy, hrdatas'⟩ := forall_mem_cons.mp hrdatas
    simp only [flatten_cons, flatMap_cons, recordForm, append_assoc,
      append_cancel_left_eq] at h
    obtain ⟨hlengths, h⟩ := append_inj h rfl
    obtain ⟨rfl, htail⟩ := append_inj h (u16ToBeBytes_inj hx hy hlengths)
    rw [map_cons, eq_map_of_flatten hforms' hrdatas' htail]

/-! ### The records of a set -/

theorem canonicalRecords_eq_mapM : ∀ rrset, canonicalRecords packet signature owner first rrset =
    rrset.mapM (canonicalRecord packet signature owner first)
  | [] => rfl
  | record :: rest => by
    rw [canonicalRecords, List.mapM_cons, canonicalRecords_eq_mapM rest]
    rfl

/-- A record of the set that the first record begins, with data that can be signed. -/
def Fits (packet : Bytes) (signature : RrsigRecord) (first record : ResourceRecord) : Prop :=
  record.rrType = signature.typeCovered ∧ record.rrClass = first.rrClass ∧
    record.name.canonicalWire = first.name.canonicalWire ∧
    ∃ rdata, canonicalRdata packet record = .ok rdata ∧ rdata.length ≤ 65535

theorem canonicalRecord_eq_ok {form : Bytes} :
    canonicalRecord packet signature owner first record = .ok form ↔
      Fits packet signature first record ∧ ∃ rdata, canonicalRdata packet record = .ok rdata ∧
        form = recordForm signature owner first.rrClass rdata := by
  unfold canonicalRecord
  split_ifs with hbad
  · refine iff_of_false (by simp) ?_
    rintro ⟨⟨htype, hclass, hname, -⟩, -⟩
    simp [htype, hclass, hname] at hbad
  · simp only [not_or, not_not] at hbad
    obtain ⟨htype, hclass, hname⟩ := hbad
    rw [bind_eq_ok]
    constructor
    · rintro ⟨rdata, hrdata, h⟩
      split_ifs at h with hlong
      cases h
      rw [htype, hclass]
      exact ⟨⟨htype, hclass, hname, rdata, hrdata, by omega⟩, rdata, hrdata, rfl⟩
    · rintro ⟨⟨-, -, -, rdata, hrdata, hlong⟩, other, hother, rfl⟩
      obtain rfl : rdata = other := Except.ok.inj (hrdata.symm.trans hother)
      refine ⟨rdata, hrdata, ?_⟩
      rw [if_neg (by omega), htype, hclass]
      rfl

/-- The forms of the records of a set, in their own order and each once. -/
def SortedForms (packet : Bytes) (signature : RrsigRecord) (owner : Bytes) (rrClass : Nat)
    (rrset : List ResourceRecord) (forms : List Bytes) : Prop :=
  forms.Pairwise (· < ·) ∧
    ∀ form, form ∈ forms ↔ ∃ rdata, IsRdata packet rrset rdata ∧
    recordForm signature owner rrClass rdata = form

/-- **The signed data has the forms of the records in their own order.** -/
theorem canonicalSignedData_eq_ok (hsignature : parseRrsig packet rrsigRecord = .ok signature)
    (howner : canonicalOwner first.name.canonicalWire signature.labels = .ok owner) :
    canonicalSignedData packet rrsigRecord (first :: rest) = .ok output ↔
      (∀ record ∈ first :: rest, Fits packet signature first record) ∧
        ∃ forms, SortedForms packet signature owner first.rrClass (first :: rest) forms ∧
          output = rrsigFields signature ++ forms.flatten := by
  have hsorted : ∀ {records}, (∀ record ∈ first :: rest, Fits packet signature first record) →
      (first :: rest).mapM (canonicalRecord packet signature owner first) = .ok records →
      SortedForms packet signature owner first.rrClass (first :: rest)
        ((records.insertionSort (· ≤ ·)).destutter (· ≠ ·)) := by
    intro records hfits hrecords
    refine ⟨pairwise_lt_destutter records, fun form => ?_⟩
    rw [mem_destutter_ne, mem_insertionSort, mem_mapM_iff hrecords]
    constructor
    · rintro ⟨record, hrecord, h⟩
      obtain ⟨-, rdata, hrdata, rfl⟩ := canonicalRecord_eq_ok.mp h
      exact ⟨rdata, ⟨record, hrecord, hrdata⟩, rfl⟩
    · rintro ⟨rdata, ⟨record, hrecord, hrdata⟩, rfl⟩
      exact ⟨record, hrecord, canonicalRecord_eq_ok.mpr ⟨hfits record hrecord, rdata, hrdata, rfl⟩⟩
  simp only [canonicalSignedData, hsignature, howner, ok_bind, canonicalRecords_eq_mapM, bind_eq_ok]
  constructor
  · rintro ⟨records, hrecords, h⟩
    have hfits : ∀ record ∈ first :: rest, Fits packet signature first record := by
      intro record hrecord
      obtain ⟨form, hform⟩ := exists_mapM_ok_iff.mp ⟨records, hrecords⟩ record hrecord
      exact (canonicalRecord_eq_ok.mp hform).1
    exact ⟨hfits, _, hsorted hfits hrecords, (Except.ok.inj h).symm⟩
  · rintro ⟨hfits, forms, hforms, rfl⟩
    obtain ⟨records, hrecords⟩ := exists_mapM_ok_iff.mpr fun record hrecord =>
      let ⟨rdata, hrdata, _⟩ := (hfits record hrecord).2.2.2
      ⟨_, canonicalRecord_eq_ok.mpr ⟨hfits record hrecord, rdata, hrdata, rfl⟩⟩
    have hunique := hsorted hfits hrecords
    refine ⟨records, hrecords, ?_⟩
    rw [eq_of_pairwise_lt hunique.1 hforms.1 fun form =>
      (hunique.2 form).trans (hforms.2 form).symm]

/-! ### The two orders -/

theorem Fits.length_le (hfits : ∀ record ∈ rrset, Fits packet signature first record)
    {rdata : Bytes} (h : IsRdata packet rrset rdata) : rdata.length ≤ 65535 := by
  obtain ⟨record, hrecord, hrdata⟩ := h
  obtain ⟨-, -, -, other, hother, hshort⟩ := hfits record hrecord
  rwa [← Except.ok.inj (hother.symm.trans hrdata)]

theorem length_le_of_inRdataOrder (hsignature : parseRrsig packet rrsigRecord = .ok signature)
    (howner : canonicalOwner first.name.canonicalWire signature.labels = .ok owner)
    (h : canonicalSignedData packet rrsigRecord (first :: rest) = .ok output)
    (horder : InRdataOrder packet signature owner first.rrClass (first :: rest) output)
    (ha : IsRdata packet (first :: rest) a) (hb : IsRdata packet (first :: rest) b) (hlt : a < b) :
    a.length ≤ b.length := by
  obtain ⟨hfits, forms, hforms, rfl⟩ := (canonicalSignedData_eq_ok hsignature howner).mp h
  obtain ⟨rdatas, hsorted, hmem, houtput⟩ := horder
  obtain rfl : forms = rdatas.map (recordForm signature owner first.rrClass) := by
    refine eq_map_of_flatten (fun form hform => ?_)
      (fun y hy => Fits.length_le hfits ((hmem y).mp hy))
      (append_cancel_left houtput)
    obtain ⟨rdata, hrdata, rfl⟩ := (hforms.2 form).mp hform
    exact ⟨rdata, Fits.length_le hfits hrdata, rfl⟩
  obtain ⟨i, rfl⟩ := mem_iff_get.mp ((hmem a).mpr ha)
  obtain ⟨j, rfl⟩ := mem_iff_get.mp ((hmem b).mpr hb)
  rcases lt_trichotomy i j with hij | rfl | hji
  · have hfront := (pairwise_map.mp hforms.1).rel_get_of_lt hij
    by_contra hlong
    exact lt_asymm hfront (recordForm_lt (Fits.length_le hfits ha) (.inl (by omega)))
  · exact absurd hlt (lt_irrefl _)
  · exact absurd hlt (lt_asymm (hsorted.rel_get_of_lt hji))

/-- **The records are signed in the order of their data exactly when no data of the set sorts before
shorter data of the set**; what is signed never depends on the order or the repetitions of the
records that are given. -/
theorem inRdataOrder_iff (hsignature : parseRrsig packet rrsigRecord = .ok signature)
    (howner : canonicalOwner first.name.canonicalWire signature.labels = .ok owner)
    (h : canonicalSignedData packet rrsigRecord (first :: rest) = .ok output) :
    (InRdataOrder packet signature owner first.rrClass (first :: rest) output ↔
      ∀ a b, IsRdata packet (first :: rest) a → IsRdata packet (first :: rest) b → a < b →
        a.length ≤ b.length) ∧
    ∀ rrset, (∀ record, record ∈ rrset ↔ record ∈ first :: rest) →
      canonicalSignedData packet rrsigRecord rrset = .ok output := by
  refine ⟨⟨fun horder a b ha hb => ?_, ?_⟩, ?_⟩
  · exact length_le_of_inRdataOrder hsignature howner h horder ha hb
  · intro hlengths
    obtain ⟨hfits, forms, hforms, rfl⟩ := (canonicalSignedData_eq_ok hsignature howner).mp h
    obtain ⟨all, hall⟩ := exists_mapM_ok_iff.mpr fun record hrecord =>
      let ⟨rdata, hrdata, _⟩ := (hfits record hrecord).2.2.2
      (⟨rdata, hrdata⟩ : ∃ rdata, canonicalRdata packet record = .ok rdata)
    have hmem : ∀ rdata, rdata ∈ (all.insertionSort (· ≤ ·)).destutter (· ≠ ·) ↔
        IsRdata packet (first :: rest) rdata := fun rdata => by
      rw [mem_destutter_ne, mem_insertionSort, mem_mapM_iff hall, IsRdata]
    refine ⟨_, pairwise_lt_destutter all, hmem, ?_⟩
    rw [flatMap_def, eq_of_pairwise_lt hforms.1 (pairwise_map.mpr ?_) fun form => ?_]
    · refine (pairwise_lt_destutter all).imp_of_mem fun {a b} ha hb hlt => ?_
      rw [hmem] at ha hb
      have hle := hlengths a b ha hb hlt
      exact recordForm_lt (Fits.length_le hfits hb)
        (by rcases hle.lt_or_eq with h | h <;> simp [h, hlt])
    · simp [hforms.2, hmem]
  · intro rrset hsame
    obtain ⟨hfits, forms, hforms, rfl⟩ := (canonicalSignedData_eq_ok hsignature howner).mp h
    cases rrset with
    | nil => exact absurd ((hsame first).mpr mem_cons_self) not_mem_nil
    | cons first' rest' =>
      obtain ⟨-, hclass, hname, -⟩ := hfits first' ((hsame first').mp mem_cons_self)
      refine (canonicalSignedData_eq_ok hsignature (hname ▸ howner)).mpr
        ⟨fun record hrecord => ?_, forms, ?_, rfl⟩
      · rw [Fits, hclass, hname]
        exact hfits record ((hsame record).mp hrecord)
      · simpa only [SortedForms, IsRdata, hsame, hclass] using hforms

/-- A signature over TXT records of `a`, by the root, as a record and as it is read. -/
def textSignature : RrsigRecord :=
  ⟨16, 13, 1, 3600, 2000000000, 1000000000, 4711, DnsName.ofLabels [], [1]⟩

def textRrsig : ResourceRecord :=
  let rdata := rrsigRdata 16 13 1 3600 2000000000 1000000000 4711 [] [1]
  ⟨DnsName.ofLabels [[97]], typeRrsig, classIn, 3600, 0, 0, rdata, rdata.length⟩

def textRecord (rdata : Bytes) : ResourceRecord :=
  ⟨DnsName.ofLabels [[97]], 16, classIn, 3600, 0, 0, rdata, rdata.length⟩

/-- The strings `a` and `a`. -/
def longText : ResourceRecord := textRecord [1, 97, 1, 97]

/-- The string `bb`, which comes after them and is shorter. -/
def shortText : ResourceRecord := textRecord [2, 98, 98]

def signedTexts : Bytes :=
  rrsigFields textSignature ++ [shortText, longText].flatMap fun record =>
    recordForm textSignature [1, 97, 0] 1 record.rdata

theorem texts_signed : parseRrsig textRrsig.rdata textRrsig = .ok textSignature ∧
    canonicalSignedData textRrsig.rdata textRrsig [longText, shortText] = .ok signedTexts := by
  decide

theorem texts_swapped :
    canonicalSignedData textRrsig.rdata textRrsig [shortText, longText] = .ok signedTexts :=
  (inRdataOrder_iff texts_signed.1 rfl texts_signed.2).2 _ fun _ => by simp [or_comm]

theorem texts_out_of_order :
    canonicalSignedData textRrsig.rdata textRrsig [longText, shortText] = .ok signedTexts ∧
      ¬ InRdataOrder textRrsig.rdata textSignature [1, 97, 0] 1 [longText, shortText]
        signedTexts := by
  refine ⟨texts_signed.2, fun horder => ?_⟩
  have hle := length_le_of_inRdataOrder texts_signed.1 rfl texts_signed.2 horder
    ⟨longText, by simp, rfl⟩ ⟨shortText, by simp, rfl⟩ (by decide)
  exact absurd hle (by decide)

end RustdResolved.Dnssec.SignedOrder
