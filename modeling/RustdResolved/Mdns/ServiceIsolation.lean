import RustdResolved.Dnssec.NameText
import RustdResolved.Mdns.CaseFolding
import RustdResolved.Mdns.Published

/-! # The services of one catalog

`records_for` publishes the services of the configuration and those of clients together. A service
is accepted if it can be published under the host label `localhost`, but the name of a service of a
client is rendered anew for the label that the host has, which may be longer; and what fails for one
service fails for all. -/

namespace RustdResolved.Mdns.ServiceIsolation

open Lib.Result Wire Octets Name Presentation Dnssec.NameText
open Wire.Redirects (IpAddr)
open Names Cache Responder Dnssd Registration Catalog
open CaseFolding (plainSystem)

/-! ### Host labels -/

def isHostCharacter (c : Char) : Bool := c.isAlphanum || c == '-'

def sanitizeHostname (value : Text) : Text :=
  let first := ((trim value).rdropWhile (· == '.')).takeWhile (· != '.')
  let output := first.map fun c => if isHostCharacter c.toLower then c.toLower else '-'
  let output := (output.dropWhile (· == '-')).rdropWhile (· == '-')
  (if output = [] then "localhost".toList else output).take 63

def NameState.new (hostname : Text) : NameState := ⟨sanitizeHostname hostname, 1, 1⟩

/-- The name of a host that was renamed up to an ordinal. -/
def renamed (hostname : Text) (ordinal : Nat) : NameState := { NameState.new hostname with ordinal }

/-- What a label of the host is made of. A hyphen at its end is not ruled out: the name is cut after
the hyphens at its ends are gone. -/
structure IsHostLabel (label : Text) : Prop where
  ne_nil : label ≠ []
  short : label.length ≤ 63
  characters : ∀ c ∈ label, isHostCharacter c = true
  start : label.head? ≠ some '-'

section
variable {c : Char} {label : Text}

theorem isHostCharacter_lt (h : isHostCharacter c = true) : c.toNat < 123 := by
  simp [isHostCharacter, Char.isAlphanum, Char.isAlpha, Char.isUpper, Char.isLower, Char.isDigit,
    UInt32.le_iff_toNat_le] at h
  rcases h with ((h | h) | h) | rfl
  · omega
  · omega
  · omega
  · decide

/-- A fact about the characters of a label is checked for each of them. -/
theorem forall_hostCharacter {p : Char → Prop}
    (hall : ∀ n < 123, isHostCharacter (Char.ofNat n) = true → p (Char.ofNat n))
    (h : isHostCharacter c = true) : p c := by
  have hc := hall c.toNat (isHostCharacter_lt h)
  rw [Char.ofNat_toNat] at hc
  exact hc h

theorem utf8EncodeChar_host (h : isHostCharacter c = true) :
    String.utf8EncodeChar c = [UInt8.ofNat c.toNat] := by
  have hascii : c.val.toNat ≤ 127 := by
    have := isHostCharacter_lt h
    change c.val.toNat < 123 at this
    omega
  simp only [String.utf8EncodeChar, if_pos hascii]
  rfl

theorem asBytes_host (h : ∀ c ∈ label, isHostCharacter c = true) :
    asBytes label = label.map fun c => UInt8.ofNat c.toNat := by
  induction label with
  | nil => rfl
  | cons c label ih =>
    obtain ⟨hc, hlabel⟩ := List.forall_mem_cons.mp h
    rw [List.map_cons, ← ih hlabel, asBytes, List.flatMap_cons, utf8EncodeChar_host hc]
    rfl

theorem fromUtf8Lossy_host (h : ∀ c ∈ label, isHostCharacter c = true) :
    Edns.Opt.fromUtf8Lossy (label.map fun c => UInt8.ofNat c.toNat) = label := by
  induction label with
  | nil => rfl
  | cons c label ih =>
    obtain ⟨hc, hlabel⟩ := List.forall_mem_cons.mp h
    have hlt := isHostCharacter_lt hc
    have hbyte : (UInt8.ofNat c.toNat).toNat = c.toNat := by
      rw [UInt8.toNat_ofNat', Nat.mod_eq_of_lt (by omega)]
    have hascii : UInt8.ofNat c.toNat < 0x80 := by
      rw [UInt8.lt_iff_toNat_lt, hbyte]
      exact hlt.trans (by decide)
    rw [List.map_cons, Edns.Opt.fromUtf8Lossy.eq_def]
    simp only [if_pos hascii, hbyte, Char.ofNat_toNat, ih hlabel]

theorem isHostLabel_sanitize (hostname : Text) : IsHostLabel (sanitizeHostname hostname) := by
  have hof : ∀ output : Text, output ≠ [] → (∀ c ∈ output, isHostCharacter c = true) →
      output.head? ≠ some '-' → IsHostLabel (output.take 63) := by
    intro output hsome hall hstart
    refine ⟨by simpa using hsome, by simp, fun c hc => hall c (List.mem_of_mem_take hc), ?_⟩
    rwa [List.head?_take, if_neg (by decide)]
  unfold sanitizeHostname
  simp only
  split_ifs with hempty
  · exact hof _ (by decide) (by decide) (by decide)
  · refine hof _ hempty (fun c hc => ?_) (fun hhyphen => ?_)
    · have hc := (List.rdropWhile_prefix _ _).subset hc
      obtain ⟨d, -, rfl⟩ := List.mem_map.mp ((List.dropWhile_sublist _).subset hc)
      split_ifs with hd
      · exact hd
      · decide
    · -- what is left begins as it did before its end was cut
      obtain ⟨rest, hrest⟩ := List.head?_eq_some_iff.mp hhyphen
      obtain ⟨cut, hcut⟩ := List.rdropWhile_prefix (· == '-') (List.dropWhile (· == '-') _)
      rw [hrest, List.cons_append] at hcut
      have hhead := List.head?_dropWhile_not (· == '-') (List.map
        (fun c : Char => if isHostCharacter c.toLower = true then c.toLower else '-')
        (List.takeWhile (· != '.') (List.rdropWhile (· == '.') (trim hostname))))
      rw [← hcut] at hhead
      simp at hhead

section
variable (hostname : Text) (ordinal : Nat)

theorem label_of_ne (h : ordinal ≠ 1) :
    (renamed hostname ordinal).label =
      (sanitizeHostname hostname).take (63 - ('-' :: decimal ordinal).length) ++
        '-' :: decimal ordinal := by
  have hhost := (isHostLabel_sanitize hostname).characters
  rw [NameState.label, if_neg (show (renamed hostname ordinal).ordinal ≠ 1 from h)]
  change Edns.Opt.fromUtf8Lossy (List.take (63 - ('-' :: decimal ordinal).length)
    (asBytes (sanitizeHostname hostname))) ++ _ = _
  rw [asBytes_host hhost, ← List.map_take,
    fromUtf8Lossy_host fun c hc => hhost c (List.mem_of_mem_take hc)]
  rfl

theorem isHostCharacter_decimal : ∀ c ∈ decimal ordinal, isHostCharacter c = true :=
  forall_decimal (by decide)

variable {ordinal}

theorem length_suffix_le (hordinal : ordinal < 2 ^ 32) : ('-' :: decimal ordinal).length ≤ 11 := by
  have hdigits : (Nat.toDigits 10 ordinal).length ≤ 10 :=
    (Nat.length_toDigits_le_iff (by decide) (by decide)).mpr (hordinal.trans (by decide))
  exact Nat.succ_le_succ hdigits

/-- **Every label of the host is one**, whatever its name and however often it was renamed. -/
theorem isHostLabel_label (hordinal : ordinal < 2 ^ 32) :
    IsHostLabel (renamed hostname ordinal).label := by
  have hbase := isHostLabel_sanitize hostname
  by_cases hone : ordinal = 1
  · rw [NameState.label, if_pos (show (renamed hostname ordinal).ordinal = 1 from hone)]
    exact hbase
  · have hsuffix := length_suffix_le hordinal
    rw [label_of_ne hostname ordinal hone]
    refine ⟨by simp, ?_, ?_, ?_⟩
    · rw [List.length_append, List.length_take]
      omega
    · intro c hc
      rcases List.mem_append.mp hc with hc | hc
      · exact hbase.characters c (List.mem_of_mem_take hc)
      · rcases List.mem_cons.mp hc with rfl | hc
        · decide
        · exact isHostCharacter_decimal ordinal c hc
    · have hsome : (sanitizeHostname hostname).head? ≠ none := by simpa using hbase.ne_nil
      rw [List.head?_append, List.head?_take, if_neg (by omega), Option.or_of_isSome
        (Option.isSome_iff_ne_none.mpr hsome)]
      exact hbase.start

theorem decimal_injective : Function.Injective decimal := by
  intro a b h
  rw [← foldl_decimal a, h, foldl_decimal]

/-- The number behind the last hyphen is the ordinal. -/
theorem append_decimal_inj {front front' : Text} {a b : Nat}
    (h : front ++ '-' :: decimal a = front' ++ '-' :: decimal b) : a = b := by
  have hdigits : ∀ (front : Text) (n : Nat),
      ((front ++ '-' :: decimal n).reverse.takeWhile (· != '-')) = (decimal n).reverse := by
    intro front n
    rw [List.reverse_append, List.reverse_cons, List.append_assoc,
      List.takeWhile_append_of_pos fun c hc => ?_]
    · simp
    · exact forall_decimal (p := fun c => (c != '-') = true) (by decide) c (List.mem_reverse.mp hc)
  apply decimal_injective
  rw [← List.reverse_inj, ← hdigits front a, h, hdigits]

/-- **The labels of a host differ**, but for a name of 63 characters that ends as if the host had
been renamed already. -/
theorem label_eq_iff {other : Nat} (hordinal : ordinal < 2 ^ 32) (hother : other < 2 ^ 32) :
    (renamed hostname ordinal).label = (renamed hostname other).label ↔
      ordinal = other ∨ (sanitizeHostname hostname).length = 63 ∧
        (ordinal = 1 ∧ '-' :: decimal other <:+ sanitizeHostname hostname ∨
          other = 1 ∧ '-' :: decimal ordinal <:+ sanitizeHostname hostname) := by
  -- the name itself against the name with an ordinal
  have hbase : ∀ n, n ≠ 1 → n < 2 ^ 32 → ((renamed hostname 1).label = (renamed hostname n).label ↔
      (sanitizeHostname hostname).length = 63 ∧
      '-' :: decimal n <:+ sanitizeHostname hostname) := by
    intro n hn hlt
    have hshort := (isHostLabel_sanitize hostname).short
    have hsuffix := length_suffix_le hlt
    have hpos : 1 ≤ ('-' :: decimal n).length := by simp
    rw [label_of_ne hostname n hn]
    change sanitizeHostname hostname = _ ↔ _
    generalize sanitizeHostname hostname = base at *
    generalize '-' :: decimal n = suffix at *
    constructor
    · intro h
      refine ⟨?_, ⟨_, h.symm⟩⟩
      have hlength := congrArg List.length h
      rw [List.length_append, List.length_take] at hlength
      omega
    · rintro ⟨hlength, front, rfl⟩
      rw [List.length_append] at hlength
      rw [List.take_left' (by omega)]
  by_cases hone : ordinal = 1
  · subst hone
    by_cases hother' : other = 1
    · simp [hother']
    · rw [hbase other hother' hother]
      simp [hother', Ne.symm hother']
  · by_cases hother' : other = 1
    · subst hother'
      rw [eq_comm, hbase ordinal hone hordinal]
      simp [hone]
    · rw [label_of_ne hostname ordinal hone, label_of_ne hostname other hother']
      simp only [hone, hother', false_and, or_false, and_false]
      exact ⟨append_decimal_inj, fun h => by rw [h]⟩

end

end

/-! ### Services that are accepted -/

/-- What `DnsSdServiceType::parse` lets through. -/
def WellFormed (serviceType : DnsSdServiceType) : Prop :=
  serviceLabelIsValid serviceType.service = true ∧
    (serviceType.protocol = "_tcp".toList ∨ serviceType.protocol = "_udp".toList)

/-- The last check of `parse_service`, of a template with the ordinal one. -/
def acceptedTemplate (template : ServiceTemplate) : Except DnsSdError Unit := do
  let registration ←
    { template with ordinal := 1 }.registration ⟨1, .ipv4⟩ [] "localhost".toList
  registration.validate

/-- What registration checks of a service besides its identifier and the keys of its texts. -/
def accepted (system : System) (service : DynamicService) : Except DynamicServiceError Unit := do
  let name ← renderNameTemplate system service.nameTemplate "localhost".toList
  let _ ← liftService (DnsSdInstance.new name)
  service.txtRecords.forM fun txt => do
    let registration ←
      service.registration system ⟨1, .ipv4⟩ [] "localhost".toList txt
    liftService registration.validate

/-- The services were accepted; one without a text has an empty one. -/
structure Accepted (system : System) (state : CatalogState) : Prop where
  templates : ∀ template ∈ state.catalog.templates, WellFormed template.2.serviceType ∧
    template.2.ordinal < 2 ^ 32 ∧ acceptedTemplate template.2 = .ok ()
  dynamic : ∀ service ∈ state.dynamic, WellFormed service.2.serviceType ∧
    service.2.txtRecords ≠ [] ∧ accepted system service.2 = .ok ()

/-! ### Registrations that can be published -/

/-- A label that can be written into a name. -/
structure Writable (label : Bytes) : Prop where
  ne_nil : label ≠ []
  short : label.length ≤ 63
  noNul : 0 ∉ label

theorem encodeLabels_isOk {labels : List Bytes} (hlabels : ∀ label ∈ labels, Writable label)
    (hfits : wireLength labels ≤ 255) : ∃ output, encodeLabels labels = .ok output := by
  have hlength : (wireName labels).length = wireLength labels := by
    rw [wireName_eq, List.length_append, List.length_singleton, length_wireLabels]
  have hcanonical : canonicalWireName (wireName labels) = .ok (wireName (labels.map lowercase)) :=
    canonicalWireName_eq_ok.mpr ⟨labels, ⟨fun label h => (hlabels label h).ne_nil,
      fun label h => (hlabels label h).short, hfits⟩, rfl, rfl⟩
  refine ⟨wireName labels, ?_⟩
  rw [encodeLabels, if_neg, if_neg (by omega), hcanonical]
  rw [List.any_eq_true]
  rintro ⟨label, hlabel, hbad⟩
  obtain ⟨hsome, hshort, hnul⟩ := hlabels label hlabel
  simp [hsome, hnul, not_lt.mpr hshort] at hbad

theorem validate_eq_ok {registration : DnsSdRegistration} :
    registration.validate = .ok () ↔ validateTxt registration.txt = .ok () ∧
      (∀ subtype ∈ registration.subtypes, subtypeIsValid subtype = true) ∧
      ∀ address ∈ registration.addresses,
        familyMatches registration.interface.family address = true := by
  rw [DnsSdRegistration.validate, if_neg registration.instanceName.ne_nil, bind_eq_ok]
  constructor
  · rintro ⟨_, htxt, h⟩
    split_ifs at h with hsubtypes haddresses
    exact ⟨htxt, by simpa using hsubtypes, by simpa using haddresses⟩
  · rintro ⟨htxt, hsubtypes, haddresses⟩
    refine ⟨(), htxt, ?_⟩
    rw [if_neg (by simpa using hsubtypes), if_neg (by simpa using haddresses)]

theorem serviceLabel_writable {value : Text} (h : serviceLabelIsValid value = true) :
    Writable (asBytes value) ∧ (asBytes value).length ≤ 16 := by
  simp only [serviceLabelIsValid, Bool.and_eq_true, decide_eq_true_eq, beq_iff_eq] at h
  obtain ⟨⟨⟨⟨⟨⟨hstart, hlong⟩, hshort⟩, -⟩, hplain⟩, -⟩, -⟩ := h
  obtain ⟨rest, rfl⟩ := List.head?_eq_some_iff.mp hstart
  have hbytes : asBytes ('_' :: rest) = 95 :: asBytes rest := by
    rw [asBytes, List.flatMap_cons]
    rfl
  rw [hbytes] at hlong hshort hplain ⊢
  refine ⟨⟨by simp, by omega, fun hnul => ?_⟩, hshort⟩
  rcases List.mem_cons.mp hnul with hnul | hnul
  · exact absurd hnul (by decide)
  · have := List.all_eq_true.mp hplain 0 (by simpa using hnul)
    revert this
    decide

theorem hostText_writable {text : Text} (hsome : text ≠ []) (hshort : text.length ≤ 63)
    (h : ∀ c ∈ text, isHostCharacter c = true) : Writable (asBytes text) := by
  rw [asBytes_host h]
  refine ⟨by simpa using hsome, by simpa using hshort, fun hnul => ?_⟩
  obtain ⟨c, hc, hzero⟩ := List.mem_map.mp hnul
  exact forall_hostCharacter (p := fun c => UInt8.ofNat c.toNat ≠ 0) (by decide) (h c hc) hzero

section
variable {label : Text} {host : DnsSdHost} (hlabel : IsHostLabel label)
include hlabel

theorem host_isOk : (∃ host, DnsSdHost.local label = .ok host) ↔ label.getLast? ≠ some '-' := by
  have hhyphen : ∀ c, isHostCharacter c = true → (UInt8.ofNat c.toNat = 45 ↔ c = '-') := fun c =>
    forall_hostCharacter (p := fun c => UInt8.ofNat c.toNat = 45 ↔ c = '-') (by decide)
  have hplain : ∀ c, isHostCharacter c = true →
      (isAsciiAlphanumeric (UInt8.ofNat c.toNat) || UInt8.ofNat c.toNat == 45) = true := fun c =>
    forall_hostCharacter (p := fun c => (isAsciiAlphanumeric (UInt8.ofNat c.toNat) ||
      UInt8.ofNat c.toNat == 45) = true) (by decide)
  have hopt : ∀ found : Option Char, (∀ c ∈ found, isHostCharacter c = true) →
      (found.map (fun c => UInt8.ofNat c.toNat) = some 45 ↔ found = some '-') := by
    rintro (_ | c) hc
    · simp
    · simp [hhyphen c (hc c rfl)]
  have hvalid : (∃ text, validateDomainLabel label = .ok text) ↔ label.getLast? ≠ some '-' := by
    have hall : (label.map fun c => UInt8.ofNat c.toNat).all
        (fun byte => isAsciiAlphanumeric byte || byte == 45) = true := by
      rw [List.all_map, List.all_eq_true]
      exact fun c hc => hplain c (hlabel.characters c hc)
    simp only [validateDomainLabel, asBytes_host hlabel.characters, List.map_eq_nil_iff,
      hlabel.ne_nil, List.length_map, not_lt.mpr hlabel.short, List.head?_map,
      List.getLast?_map, hall, hopt _ fun c hc => hlabel.characters c (List.mem_of_head? hc),
      hopt _ fun c hc => hlabel.characters c (List.mem_of_getLast? hc), hlabel.start, false_or,
      Bool.not_true, Bool.false_eq_true, or_false]
    split_ifs with hlast <;> simp [hlast]
  rw [← hvalid, DnsSdHost.local]
  cases validateDomainLabel label <;> simp

theorem hostOwner_isOk (hhost : DnsSdHost.local label = .ok host) :
    ∃ output, encodeLabels (host.labels.map asBytes) = .ok output := by
  have hlower : ∀ c ∈ label.map Char.toLower, isHostCharacter c = true := by
    intro c hc
    obtain ⟨d, hd, rfl⟩ := List.mem_map.mp hc
    exact forall_hostCharacter (p := fun c => isHostCharacter c.toLower = true) (by decide)
      (hlabel.characters d hd)
  have hlength : (label.map Char.toLower).length ≤ 63 := by simpa using hlabel.short
  have hwritable := hostText_writable (by simpa using hlabel.ne_nil) hlength hlower
  unfold DnsSdHost.local at hhost
  split at hhost
  · rename_i text htext
    cases hhost
    simp only [validateDomainLabel] at htext
    split_ifs at htext
    cases htext
    refine encodeLabels_isOk ?_ ?_
    · simp only [List.map_cons, List.map_nil, List.forall_mem_cons]
      exact ⟨hwritable, ⟨by decide, by decide, by decide⟩, by simp⟩
    · have hlocal : (asBytes "local".toList).length = 5 := by decide
      have hshort := hwritable.short
      simp only [wireLength, List.map_cons, List.map_nil, List.sum_cons, List.sum_nil, hlocal]
      omega
  · cases hhost

/-- **A registration is published if it is valid and its host has a name.** -/
theorem records_isOk {registration : DnsSdRegistration} (goodbye : Bool)
    (htype : WellFormed registration.serviceType) (hdomain : registration.domain = .local)
    (hhost : DnsSdHost.local label = .ok registration.host)
    (hvalid : registration.validate = .ok ()) :
    (∃ owner, registration.browseOwner = .ok owner) ∧
      ∃ records, registration.records goodbye = .ok records := by
  obtain ⟨htxt, hsubtypes, -⟩ := validate_eq_ok.mp hvalid
  obtain ⟨hservice, hserviceShort⟩ := serviceLabel_writable htype.1
  have hprotocol : Writable (asBytes registration.serviceType.protocol) ∧
      (asBytes registration.serviceType.protocol).length = 4 := by
    rcases htype.2 with h | h <;> rw [h] <;> exact ⟨⟨by decide, by decide, by decide⟩, by decide⟩
  have hlocal : Writable (asBytes "local".toList) ∧ (asBytes "local".toList).length = 5 :=
    ⟨⟨by decide, by decide, by decide⟩, by decide⟩
  -- the name of the type, with up to two labels before it
  have hencode : ∀ front : List Bytes, (∀ label ∈ front, Writable label) → wireLength front ≤ 100 →
      ∃ output, encodeLabels (front ++ (registration.serviceType.labels ++
        registration.domain.labels.map asBytes)) = .ok output := by
    intro front hfront hshort
    rw [hdomain]
    refine encodeLabels_isOk ?_ ?_
    · simp only [DnsSdServiceType.labels, DnsSdDomain.local, List.map_cons, List.map_nil,
        List.forall_mem_append, List.forall_mem_cons]
      exact ⟨hfront, ⟨hservice, hprotocol.1, by simp⟩, hlocal.1, by simp⟩
    · simp only [wireLength, DnsSdServiceType.labels, DnsSdDomain.local, List.map_append,
        List.map_cons, List.map_nil, List.sum_append, List.sum_cons, List.sum_nil, hprotocol.2,
        hlocal.2] at hshort ⊢
      omega
  obtain ⟨browseOwner, hbrowse⟩ := hencode [] (by simp) (by decide)
  obtain ⟨instanceOwner, hinstance⟩ := hencode [registration.instanceName.bytes]
    (by simpa using ⟨registration.instanceName.ne_nil, registration.instanceName.short,
      registration.instanceName.noNul⟩)
    (by have := registration.instanceName.short; simp [wireLength]; omega)
  obtain ⟨hostOwner, hhostOwner⟩ := hostOwner_isOk hlabel hhost
  have hsub : ∃ records, registration.subtypeRecords instanceOwner
      (if goodbye then 0 else max registration.ttl 1) = .ok records := by
    refine exists_mapM_ok_iff.mpr fun subtype hsubtype => ?_
    obtain ⟨hwritable, hshort⟩ := serviceLabel_writable (hsubtypes subtype hsubtype)
    obtain ⟨owner, howner⟩ := hencode [asBytes subtype, asBytes "_sub".toList]
      (by
        simp only [List.forall_mem_cons]
        exact ⟨hwritable, ⟨by decide, by decide, by decide⟩, by simp⟩)
      (by
        have hsub : (asBytes "_sub".toList).length = 4 := by decide
        simp only [wireLength, List.map_cons, List.map_nil, List.sum_cons, List.sum_nil, hsub]
        omega)
    rw [List.cons_append, List.singleton_append] at howner
    rw [encodeSubtypeOwner, if_neg (by simp [hsubtypes subtype hsubtype]), howner]
    exact ⟨_, rfl⟩
  obtain ⟨subtypes, hsub⟩ := hsub
  have hrdata : ∃ rdata, txtRdata registration.txt = .ok rdata := by
    rw [txtRdata, htxt, ok_bind]
    split_ifs <;> exact ⟨_, rfl⟩
  obtain ⟨rdata, hrdata⟩ := hrdata
  refine ⟨⟨browseOwner, hbrowse⟩, ?_⟩
  rw [DnsSdRegistration.records, hvalid, ok_bind, show registration.browseOwner = _ from hbrowse,
    ok_bind, show registration.instanceOwner = _ from hinstance, ok_bind,
    show registration.hostOwner = _ from hhostOwner, ok_bind, hrdata, ok_bind, hsub, ok_bind]
  exact ⟨_, rfl⟩

end

/-! ### What is published -/

section
variable {system : System} {a b template output : Text}

/-- The label of the host changes what a template is rendered to, not whether it is. -/
theorem expandTemplate_label (hb : b ≠ []) (h : expandTemplate system a template = some output) :
    ∃ other, expandTemplate system b template = some other ∧
      (∀ c ∈ other, c ∈ output ∨ c ∈ b) ∧ (output ≠ [] → other ≠ []) := by
  induction template using expandTemplate.induct generalizing output with
  | case1 => exact ⟨[], rfl, by simp, by simp_all [expandTemplate]⟩
  | case2 => simp [expandTemplate] at h
  | case3 specifier rest ih =>
    simp only [expandTemplate, Option.bind_eq_bind, Option.bind_eq_some_iff] at h
    obtain ⟨text, htext, behind, hbehind, h⟩ := h
    cases h
    obtain ⟨other, hother, hmem, hsome⟩ := ih hbehind
    -- the label stands for itself, every other specifier for the same text
    have hspecifier : ∃ text', specifierText system b specifier = some text' ∧
        (∀ c ∈ text', c ∈ text ∨ c ∈ b) ∧ (text ≠ [] → text' ≠ []) := by
      by_cases hlabel : specifier = 'H'
      · subst hlabel
        exact ⟨b, rfl, fun c hc => .inr hc, fun _ => hb⟩
      · refine ⟨text, ?_, fun c hc => .inl hc, id⟩
        rw [← htext]
        unfold specifierText
        split <;> simp_all
    obtain ⟨text', htext', hmem', hsome'⟩ := hspecifier
    refine ⟨text' ++
      other, by simp [expandTemplate, htext', hother], fun c hc => ?_, fun hne hnil => ?_⟩
    · rcases List.mem_append.mp hc with hc | hc
      · exact (hmem' c hc).imp_left (List.mem_append_left _)
      · exact (hmem c hc).imp_left (List.mem_append_right _)
    · obtain ⟨hnil', hnil⟩ := List.append_eq_nil_iff.mp hnil
      rw [not_imp_not.mp hsome' hnil', not_imp_not.mp hsome hnil] at hne
      exact hne rfl
  | case4 c rest hspecifier hlone ih =>
    rw [expandTemplate] at h
    · simp only [Option.bind_eq_bind, Option.bind_eq_some_iff] at h
      obtain ⟨behind, hbehind, h⟩ := h
      cases h
      obtain ⟨other, hother, hmem, -⟩ := ih hbehind
      refine ⟨c :: other, ?_, ?_, by simp⟩
      · rw [expandTemplate]
        · simp [hother]
        · exact hspecifier
        · exact hlone
      · intro d hd
        rcases List.mem_cons.mp hd with rfl | hd
        · exact .inl List.mem_cons_self
        · exact (hmem d hd).imp_left (List.mem_cons_of_mem _)
    · exact hspecifier
    · exact hlone

theorem zero_notMem_asBytes {text : Text} (h : text.any isControl = false) : 0 ∉ asBytes text := by
  intro hzero
  obtain ⟨c, hc, hbyte⟩ := List.mem_flatMap.mp hzero
  have hplain : isControl c = false := by simpa using List.any_eq_false.mp h c hc
  have hlow : ¬c.toNat < 32 := by simp_all [isControl]
  change ¬c.val.toNat < 32 at hlow
  simp only [String.utf8EncodeChar] at hbyte
  split_ifs at hbyte
  all_goals
    simp only [List.mem_cons, List.not_mem_nil, or_false, ← UInt8.toNat_inj, UInt8.toNat_ofNat',
      UInt8.toNat_zero] at hbyte
    omega

theorem utf8Front_spec (bytes : Bytes) :
    ∀ length, utf8Front bytes length <+: bytes ∧ (utf8Front bytes length).length ≤ length
  | 0 => ⟨List.nil_prefix, le_refl _⟩
  | length + 1 => by
    unfold utf8Front
    split_ifs
    · exact ⟨List.take_prefix _ _, List.length_take_le _ _⟩
    · exact ⟨(utf8Front_spec bytes length).1, (utf8Front_spec bytes length).2.trans (by simp)⟩

/-- The name of a service of the configuration is cut for its number, so that it always fits. -/
theorem instanceName_isOk {template : ServiceTemplate} (h : template.ordinal < 2 ^ 32) :
    ∃ name, template.instanceName = .ok name := by
  have hdigits := length_suffix_le h
  have hsuffix : (asBytes (" (".toList ++ decimal template.ordinal ++ ")".toList)).length ≤ 13 := by
    rw [asBytes_append, asBytes_append, asBytes_host (isHostCharacter_decimal _),
      List.length_append, List.length_append, List.length_map, show (asBytes " (".toList).length =
        2 from by decide,
      show (asBytes ")".toList).length = 1 from by decide]
    rw [List.length_cons] at hdigits
    omega
  have hsome : asBytes (" (".toList ++ decimal template.ordinal ++ ")".toList) ≠ [] := by
    rw [Ne, asBytes_eq_nil]
    simp
  have hnul : 0 ∉ asBytes (" (".toList ++ decimal template.ordinal ++ ")".toList) := by
    refine zero_notMem_asBytes (List.any_eq_false.mpr fun c hc => ?_)
    simp only [List.mem_append] at hc
    rcases hc with (hc | hc) | hc
    · revert c
      decide
    · exact forall_decimal (p := fun c => ¬isControl c = true) (by decide) c hc
    · revert c
      decide
  unfold ServiceTemplate.instanceName
  simp only
  generalize asBytes (" (".toList ++ decimal template.ordinal ++ ")".toList) = suffix at *
  split_ifs with hone hlong
  · exact ⟨_, rfl⟩
  all_goals unfold DnsSdInstance.new
  · obtain ⟨hinitial, hfront⟩ := utf8Front_spec template.baseInstance.bytes (63 - suffix.length)
    rw [dif_neg (by simp [hsome]), dif_neg (by rw [List.length_append]; omega), dif_neg]
    · exact ⟨_, rfl⟩
    · rw [List.mem_append, not_or]
      exact ⟨fun hzero => template.baseInstance.noNul (hinitial.subset hzero), hnul⟩
  · rw [dif_neg (by simp [hsome]), dif_neg (by rw [List.length_append]; omega), dif_neg]
    · exact ⟨_, rfl⟩
    · rw [List.mem_append, not_or]
      exact ⟨template.baseInstance.noNul, hnul⟩

/-- A template that was rendered for one label is rendered for another just if the name is short. -/
theorem renderNameTemplate_label {bytes : Bytes} (hb : IsHostLabel b)
    (h : renderNameTemplate system template a = .ok bytes) :
    (∃ instanceName, (do
      let name ← renderNameTemplate system template b
      liftService (DnsSdInstance.new name)) = .ok instanceName) ↔
    ∀ output, expandTemplate system b template = some output → (asBytes output).length ≤ 63 := by
  unfold renderNameTemplate at h
  split at h
  · cases h
  · rename_i first hfirst
    split_ifs at h with hbad
    obtain ⟨hsome, -, hcontrol⟩ : first ≠ [] ∧ _ ∧ first.any isControl = false := by
      simpa [not_or] using hbad
    obtain ⟨output, houtput, hmem, hsome'⟩ := expandTemplate_label hb.ne_nil hfirst
    have hcontrol' : output.any isControl = false := by
      rw [List.any_eq_false] at hcontrol ⊢
      intro c hc
      rcases hmem c hc with hc | hc
      · exact hcontrol c hc
      · exact forall_hostCharacter (p := fun c => ¬isControl c = true) (by decide)
          (hb.characters c hc)
    have hne : asBytes output ≠ [] := fun h => hsome' hsome (asBytes_eq_nil.mp h)
    simp only [renderNameTemplate, houtput, hsome' hsome, hcontrol', false_or, or_false,
      Bool.false_eq_true, Option.some.injEq, forall_eq']
    split_ifs with hlong
    · exact ⟨fun h => absurd h.choose_spec (by simp), fun h => absurd h (not_le.mpr hlong)⟩
    · refine ⟨fun _ => not_lt.mp hlong, fun _ => ?_⟩
      rw [ok_bind, DnsSdInstance.new, dif_neg hne, dif_neg hlong,
        dif_neg (zero_notMem_asBytes hcontrol')]
      exact ⟨_, rfl⟩

end

section
variable (system : System) (interface : MdnsInterface) (addresses : List IpAddr) (hostLabel : Text)
  (goodbye : Bool)

/-- What each service publishes by itself. -/
def publications (state : CatalogState) : List (Except DnsSdError (List DnsSdRecord)) :=
  state.catalog.templates.map (fun template =>
    template.2.records interface addresses hostLabel goodbye) ++
  state.dynamic.map fun service =>
    lowerService (service.2.records system interface addresses hostLabel goodbye)

/-- The records of all services that can be published are published. -/
def Isolated (state : CatalogState) : Prop :=
  ∃ records, state.recordsFor system interface addresses hostLabel goodbye = .ok records ∧
    ∀ record, record ∈ records ↔ ∃ own,
      .ok own ∈ publications system interface addresses hostLabel goodbye state ∧ record ∈ own

/-- Each service has a name under the label: the label does not end in a hyphen, the names of the
services of clients are rendered to 63 octets at most, and all addresses are of the family. -/
structure Named (state : CatalogState) : Prop where
  host : state.catalog.templates ≠ [] ∨ (∃ service ∈ state.dynamic, service.2.withdrawn = false) →
    hostLabel.getLast? ≠ some '-'
  short : ∀ service ∈ state.dynamic, service.2.withdrawn = false → ∀ output,
    expandTemplate system hostLabel service.2.nameTemplate = some output →
    (asBytes output).length ≤ 63
  family : ∀ service ∈ state.dynamic, service.2.withdrawn = false → ∀ address ∈ addresses,
    familyMatches interface.family address = true

variable {system interface addresses hostLabel goodbye} {state : CatalogState}

theorem isolated_iff_each :
    Isolated system interface addresses hostLabel goodbye state ↔
      (∀ template ∈ state.catalog.templates, ∃ records,
        template.2.records interface addresses hostLabel goodbye = .ok records) ∧
      ∀ service ∈ state.dynamic, ∃ records,
        service.2.records system interface addresses hostLabel goodbye = .ok records := by
  unfold Isolated publications
  simp only [← lowerService_eq_ok, ← exists_mapM_ok_iff]
  constructor
  · rintro ⟨records, h, -⟩
    obtain ⟨_, hcatalog, h⟩ := of_bind h
    obtain ⟨configured, hconfigured, -⟩ := of_bind hcatalog
    obtain ⟨dynamic, hdynamic, -⟩ := of_bind h
    exact ⟨⟨configured, hconfigured⟩, dynamic, hdynamic⟩
  · rintro ⟨⟨configured, hconfigured⟩, dynamic, hdynamic⟩
    refine ⟨_, bind_eq_ok.mpr ⟨_, bind_eq_ok.mpr ⟨configured, hconfigured, rfl⟩,
      bind_eq_ok.mpr ⟨dynamic, hdynamic, rfl⟩⟩, fun record => ?_⟩
    simp [mem_mapM_iff hconfigured, mem_mapM_iff hdynamic, or_and_right, exists_or]

variable (hlabel : IsHostLabel hostLabel)
include hlabel

theorem template_published {template : ServiceTemplate} (htype : WellFormed template.serviceType)
    (hordinal : template.ordinal < 2 ^ 32) (haccepted : acceptedTemplate template = .ok ()) :
    (∃ records, template.records interface addresses hostLabel goodbye = .ok records) ↔
      hostLabel.getLast? ≠ some '-' := by
  rw [← host_isOk hlabel]
  constructor
  · rintro ⟨_, h⟩
    obtain ⟨_, hregistration, -⟩ := of_bind h
    obtain ⟨_, -, hregistration⟩ := of_bind hregistration
    obtain ⟨host, hhost, -⟩ := of_bind hregistration
    exact ⟨host, hhost⟩
  · rintro ⟨host, hhost⟩
    obtain ⟨instanceName, hinstance⟩ := instanceName_isOk hordinal
    obtain ⟨_, hregistration, hvalid⟩ := of_bind haccepted
    obtain ⟨_, -, hregistration⟩ := of_bind hregistration
    obtain ⟨_, -, hregistration⟩ := of_bind hregistration
    cases hregistration
    obtain ⟨htxt, hsubtypes, -⟩ := validate_eq_ok.mp hvalid
    have hregistration : ∃ registration, template.registration interface addresses hostLabel =
        .ok registration ∧ WellFormed registration.serviceType ∧ registration.domain = .local ∧
        DnsSdHost.local hostLabel = .ok registration.host ∧ registration.validate = .ok () := by
      rw [ServiceTemplate.registration, hinstance, ok_bind, hhost, ok_bind]
      refine ⟨_, rfl, htype, rfl, rfl, validate_eq_ok.mpr ⟨htxt, hsubtypes, ?_⟩⟩
      exact fun address haddress => (List.mem_filter.mp haddress).2
    obtain ⟨registration, hregistration, htype, hdomain, hhost, hvalid⟩ := hregistration
    obtain ⟨⟨owner, howner⟩, records, hrecords⟩ :=
      records_isOk hlabel goodbye htype hdomain hhost hvalid
    rw [ServiceTemplate.records, hregistration, ok_bind, howner, ok_bind, hrecords]
    exact ⟨_, rfl⟩

theorem dynamic_published {service : DynamicService} (htype : WellFormed service.serviceType)
    (htexts : service.txtRecords ≠ []) (haccepted : accepted system service = .ok ()) :
    (∃ records, service.records system interface addresses hostLabel goodbye = .ok records) ↔
      (service.withdrawn = false → hostLabel.getLast? ≠ some '-' ∧
        (∀ output, expandTemplate system hostLabel service.nameTemplate = some output →
          (asBytes output).length ≤ 63) ∧
        ∀ address ∈ addresses, familyMatches interface.family address = true) := by
  obtain ⟨name, hname, haccepted⟩ := of_bind haccepted
  obtain ⟨_, -, haccepted⟩ := of_bind haccepted
  rw [← host_isOk hlabel, ← renderNameTemplate_label hlabel hname, DynamicService.records]
  cases hwithdrawn : service.withdrawn
  · simp only [Bool.false_eq_true, if_false, true_imp_iff]
    constructor
    · rintro ⟨_, h⟩
      obtain ⟨lists, hlists, -⟩ := of_bind h
      obtain ⟨txt, htxt⟩ := List.exists_mem_of_ne_nil _ htexts
      obtain ⟨records, hrecords⟩ := exists_mapM_ok_iff.mp ⟨lists, hlists⟩ txt htxt
      obtain ⟨registration, hregistration, hrecords⟩ := of_bind hrecords
      obtain ⟨rendered, hrendered, hregistration⟩ := of_bind hregistration
      obtain ⟨instanceName, hinstance, hregistration⟩ := of_bind hregistration
      obtain ⟨host, hhost, hregistration⟩ := of_bind hregistration
      cases hregistration
      obtain ⟨_, hvalid, -⟩ := of_bind (Published.liftService_eq_ok.mp hrecords)
      exact ⟨⟨host, Published.liftService_eq_ok.mp hhost⟩,
        ⟨instanceName, bind_eq_ok.mpr ⟨rendered, hrendered, hinstance⟩⟩,
        (validate_eq_ok.mp hvalid).2.2⟩
    · rintro ⟨⟨host, hhost⟩, ⟨instanceName, hinstance⟩, hfamily⟩
      obtain ⟨rendered, hrendered, hinstance⟩ := of_bind hinstance
      -- all registrations of the service differ in their texts alone
      have hregistration : ∀ txt, validateTxt txt = .ok () → ∃ registration,
          service.registration system interface addresses hostLabel txt = .ok registration ∧
          (∃ owner, registration.browseOwner = .ok owner) ∧
          ∃ records, registration.records goodbye = .ok records := by
        intro txt htxt
        rw [DynamicService.registration, hrendered, ok_bind, hinstance, ok_bind, hhost]
        refine ⟨_, rfl, records_isOk hlabel goodbye htype rfl hhost
          (validate_eq_ok.mpr ⟨htxt, ?_, hfamily⟩)⟩
        simp
      have hlists : ∃ lists, service.txtRecords.mapM (fun txt => do
          let registration ← service.registration system interface addresses hostLabel txt
          liftService (registration.records goodbye)) = .ok lists := by
        refine exists_mapM_ok_iff.mpr fun txt htxt => ?_
        have hvalid : validateTxt txt = .ok () := by
          obtain ⟨registration, hregistration, hvalid⟩ := of_bind (of_forM haccepted txt htxt)
          obtain ⟨_, -, hregistration⟩ := of_bind hregistration
          obtain ⟨_, -, hregistration⟩ := of_bind hregistration
          obtain ⟨_, -, hregistration⟩ := of_bind hregistration
          cases hregistration
          exact (validate_eq_ok.mp (Published.liftService_eq_ok.mp hvalid)).1
        obtain ⟨registration, hregistration, -, records, hrecords⟩ := hregistration txt hvalid
        rw [hregistration, ok_bind, hrecords]
        exact ⟨_, rfl⟩
      obtain ⟨lists, hlists⟩ := hlists
      obtain ⟨registration, hregistration, ⟨owner, howner⟩, -⟩ := hregistration [] rfl
      rw [hlists, ok_bind, hregistration, ok_bind, howner]
      exact ⟨_, rfl⟩
  · simp

end

/-- **Services are published together if and only if each has a name under the label of the host.**
The labels of a host have 63 octets at most, and are different for different ordinals but for a name
of 63 octets that ends like a label of a renamed host. -/
theorem services_isolated_iff (system : System) (interface : MdnsInterface)
    (addresses : List IpAddr) (goodbye : Bool) (state : CatalogState) (hostname : Text)
    (ordinal : Nat) (hordinal : ordinal < 2 ^ 32) (haccepted : Accepted system state) :
    (Isolated system interface addresses (renamed hostname ordinal).label goodbye state ↔
      Named system interface addresses (renamed hostname ordinal).label state) ∧
    (asBytes (renamed hostname ordinal).label).length ≤ 63 ∧
    ∀ other < 2 ^ 32, (renamed hostname ordinal).label = (renamed hostname other).label ↔
      ordinal = other ∨ (sanitizeHostname hostname).length = 63 ∧
        (ordinal = 1 ∧ '-' :: decimal other <:+ sanitizeHostname hostname ∨
          other = 1 ∧ '-' :: decimal ordinal <:+ sanitizeHostname hostname) := by
  have hlabel := isHostLabel_label hostname hordinal
  refine ⟨?_, (hostText_writable hlabel.ne_nil hlabel.short hlabel.characters).short,
    fun other hother => label_eq_iff hostname hordinal hother⟩
  have htemplates : ∀ template ∈ state.catalog.templates, ((∃ records,
      template.2.records interface addresses (renamed hostname ordinal).label goodbye =
        .ok records) ↔
        (renamed hostname ordinal).label.getLast? ≠ some '-') := fun template htemplate => by
    obtain ⟨htype, hlt, haccepted⟩ := haccepted.templates template htemplate
    exact template_published hlabel htype hlt haccepted
  have hdynamic := fun service (hservice : service ∈ state.dynamic) =>
    have haccepted := haccepted.dynamic service hservice
    @dynamic_published system interface addresses _ goodbye hlabel _ haccepted.1 haccepted.2.1
      haccepted.2.2
  rw [isolated_iff_each]
  constructor
  · rintro ⟨hconfigured, hclients⟩
    refine ⟨?_, fun service h hactive =>
      (((hdynamic service h).mp (hclients service h)) hactive).2.1,
      fun service h hactive => (((hdynamic service h).mp (hclients service h)) hactive).2.2⟩
    rintro (hsome | ⟨service, hservice, hactive⟩)
    · obtain ⟨template, htemplate⟩ := List.exists_mem_of_ne_nil _ hsome
      exact (htemplates template htemplate).mp (hconfigured template htemplate)
    · exact ((hdynamic service hservice).mp (hclients service hservice) hactive).1
  · rintro ⟨hhost, hshort, hfamily⟩
    refine ⟨fun template htemplate => ?_, fun service hservice => ?_⟩
    · exact (htemplates template htemplate).mpr (hhost (.inl (List.ne_nil_of_mem htemplate)))
    · exact (hdynamic service hservice).mpr fun hactive =>
        ⟨hhost (.inr ⟨service, hservice, hactive⟩), hshort service hservice hactive,
          hfamily service hservice hactive⟩

/-! ### A service with a long name -/

/-- A service whose name ends in the host label. -/
def named (id : String) (template : Text) : Text × DynamicService :=
  (id.toList, ⟨id.toList, template, ⟨"_http".toList, "_tcp".toList⟩, 80, 0, 0, [[]], false⟩)

def twoServices : CatalogState :=
  ⟨⟨[], 0⟩, [named "a" "a".toList, named "b" (List.replicate 50 'b' ++ "%H".toList)], 0, []⟩

/-- Both services are published under a short label, and the label of the renamed host is
another. -/
theorem services_isolated_short :
    (Isolated plainSystem ⟨1, .ipv4⟩ [] (renamed "host".toList 2).label false twoServices ↔
      Named plainSystem ⟨1, .ipv4⟩ [] (renamed "host".toList 2).label twoServices) ∧
    (asBytes (renamed "host".toList 2).label).length ≤ 63 ∧
    ∀ other < 2 ^ 32, (renamed "host".toList 2).label = (renamed "host".toList other).label ↔
      2 = other ∨ (sanitizeHostname "host".toList).length = 63 ∧
        (2 = 1 ∧ '-' :: decimal other <:+ sanitizeHostname "host".toList ∨
          other = 1 ∧ '-' :: decimal 2 <:+ sanitizeHostname "host".toList) :=
  services_isolated_iff plainSystem ⟨1, .ipv4⟩ [] false twoServices "host".toList 2 (by decide)
    ⟨by simp [twoServices], by
      intro service hservice
      rcases List.mem_pair.mp hservice with rfl | rfl
      · exact ⟨⟨by decide, .inl rfl⟩, by decide, by decide⟩
      · exact ⟨⟨by decide, .inl rfl⟩, by decide, by decide⟩⟩

/-- Both services are accepted. Under a label of fifteen octets the second one cannot be published,
and so the first one is not. A host name of 63 octets that ends in `-2` keeps its label when it is
renamed. -/
theorem long_label_suppresses :
    (∀ service ∈ twoServices.dynamic, accepted plainSystem service.2 = .ok ()) ∧
    (twoServices.recordsFor plainSystem ⟨1, .ipv4⟩ []
      (NameState.new "a-long-hostname.example".toList).label false) = .error .invalidInstance ∧
    ((named "a" "a".toList).2.records plainSystem ⟨1, .ipv4⟩ []
      (NameState.new "a-long-hostname.example".toList).label false).isOk = true ∧
    (renamed (List.replicate 61 'h' ++ "-2".toList) 2).label =
      (NameState.new (List.replicate 61 'h' ++ "-2".toList)).label := by
  decide

end RustdResolved.Mdns.ServiceIsolation
