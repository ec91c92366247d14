import RustdResolved.Dnssec.Base64
import RustdResolved.Lib.SortedSet

/-! # The anchors that are published are read back

The manager of RFC 5011 publishes its trusted anchors as lines of text, and the reader of anchor
files takes the lines apart: comments, fields, numbers, base64. `Publishable.parse` is the round
trip of one line. An anchor is read back if its key is a zone key that is not empty and its owner is
one field, as it is for every anchor that comes from a DNSKEY record (`publishable_run`). -/

namespace RustdResolved.Dnssec.PublishedAnchors

open List Lib Maps Result Runs SortedSet Wire Octets Name Presentation PacketHeader Record
open DnssecRecords NameText Rrsets TrustAnchors Base64 Rfc5011 Manager Entries Revocation Runtime

/-! ### Fields -/

structure IsField (text : Text) : Prop where
  ne_nil : text ≠ []
  chars : ∀ c ∈ text, isWhitespace c = false

/-- **Fields with blanks between them are split again.** -/
theorem splitWhitespace_intercalate : ∀ {fields : List Text}, (∀ field ∈ fields, IsField field) →
    splitWhitespace ([' '].intercalate fields) = fields
  | [], _ => by decide
  | [field], h => by
    obtain ⟨hne, hchars⟩ := h field (by simp)
    rw [intercalate_singleton, splitWhitespace, splitOnP_eq_singleton hchars]
    simp [hne]
  | field :: next :: rest, h => by
    obtain ⟨hne, hchars⟩ := h field (by simp)
    have ih := splitWhitespace_intercalate fun other hother => h other (mem_cons_of_mem _ hother)
    have hjoin : [' '].intercalate (field :: next :: rest) =
        field ++ ' ' :: [' '].intercalate (next :: rest) := by
      simp [intercalate, intersperse]
    rw [hjoin, splitWhitespace,
      splitOnP_append_cons_of_forall_mem hchars ' ' (by decide), filter_cons]
    simp only [isEmpty_eq_false_iff.mpr hne, Bool.not_false, if_true]
    exact congrArg (field :: ·) ih

/-! ### Comments -/

def isCommentSign (c : Char) : Bool := c == '#' || c == ';'

theorem stripAnchorComment_cons {c : Char} {rest : Text} (hslash : c ≠ '\\')
    (hcomment : isCommentSign c = false) :
    stripAnchorComment (c :: rest) = c :: stripAnchorComment rest := by
  have hsign : ¬ (c = '#' ∨ c = ';') := by simpa [isCommentSign] using hcomment
  rw [stripAnchorComment.eq_3 _ _ (fun _ _ hbad _ => hslash hbad), if_neg hsign]

theorem stripAnchorComment_of_plain {text : Text} (h : ∀ c ∈ text, isCommentSign c = false) :
    stripAnchorComment text = text := by
  induction text using stripAnchorComment.induct with
  | case1 => rfl
  | case2 c rest ih => rw [stripAnchorComment, ih fun d hd => h d (by simp [hd])]
  | case3 c rest hnot hsign =>
    have hplain := h c (by simp)
    simp only [isCommentSign, Bool.or_eq_false_iff, beq_eq_false_iff_ne] at hplain
    exact absurd hsign (not_or.mpr hplain)
  | case4 c rest hnot hsign ih =>
    rw [stripAnchorComment.eq_3 _ _ hnot, if_neg hsign, ih fun d hd => h d (by simp [hd])]

/-- What follows an owner that holds no comment is not cut off either. -/
theorem stripAnchorComment_append {rest : Text} (hrest : ∀ c ∈ rest, isCommentSign c = false)
    {owner : Text} (h : stripAnchorComment owner = owner) :
    stripAnchorComment (owner ++ rest) = owner ++ rest := by
  induction owner using stripAnchorComment.induct with
  | case1 => exact stripAnchorComment_of_plain hrest
  | case2 c tail ih =>
    rw [stripAnchorComment] at h
    have htail : stripAnchorComment tail = tail := by simpa using h
    rw [cons_append, cons_append, stripAnchorComment, ih htail]
  | case3 c tail hnot hsign =>
    rw [stripAnchorComment.eq_3 _ _ hnot, if_pos hsign] at h
    cases h
  | case4 c tail hnot hsign ih =>
    rw [stripAnchorComment.eq_3 _ _ hnot, if_neg hsign] at h
    have htail : stripAnchorComment tail = tail := by simpa using h
    have hcomment : isCommentSign c = false := by simpa [isCommentSign] using hsign
    by_cases hslash : c = '\\'
    · -- a backslash at the end of the owner takes the next character with it
      subst hslash
      obtain rfl : tail = [] := by
        cases tail with
        | nil => rfl
        | cons d rest => exact absurd rfl (hnot d rest rfl)
      refine stripAnchorComment_of_plain fun d hd => ?_
      rcases mem_cons.mp hd with rfl | hd
      · decide
      · exact hrest d hd
    · rw [cons_append, stripAnchorComment_cons hslash hcomment, ih htail]

/-! ### Numbers -/

theorem parseUnsigned_decimal {n limit : Nat} (h : n < limit) :
    parseUnsigned limit (decimal n) = some n := by
  have hdigits : ∀ c ∈ decimal n, '0' ≤ c ∧ c ≤ '9' := forall_decimal (by decide)
  have hne : decimal n ≠ [] := Nat.toDigits_ne_nil
  have hsign : (decimal n).head? ≠ some '+' := by
    intro hbad
    exact absurd (hdigits '+' (mem_of_head? hbad)) (by decide)
  have hall : (decimal n).all (fun c => decide ('0' ≤ c) && decide (c ≤ '9')) = true := by
    rw [all_eq_true]
    intro c hc
    simpa using hdigits c hc
  simp only [parseUnsigned, if_neg hsign, hall, isEmpty_eq_false_iff.mpr hne, Bool.not_true,
    Bool.or_self, Bool.false_eq_true, if_false, foldl_decimal, if_pos h]

theorem isField_decimal {n : Nat} : IsField (decimal n) where
  ne_nil := Nat.toDigits_ne_nil
  chars := forall_decimal (by decide)

/-- A character of base64 is no white space, starts no comment and is no quote. -/
theorem plain_of_isBase64Char {c : Char} (h : isBase64Char c = true) :
    isWhitespace c = false ∧ isCommentSign c = false ∧ c ≠ '"' := by
  have hall : ∀ c ∈ '=' :: base64Table,
      isWhitespace c = false ∧ isCommentSign c = false ∧ c ≠ '"' := by decide
  refine hall c ?_
  rcases Bool.or_eq_true_iff.mp h with hpad | htable
  · simp [beq_iff_eq.mp hpad]
  · exact mem_cons_of_mem _ (by simpa using htable)

theorem isField_base64Encode {bytes : Bytes} (h : bytes ≠ []) : IsField (base64Encode bytes) where
  ne_nil := base64Encode_ne_nil h
  chars _ hc := (plain_of_isBase64Char (isBase64Char_base64Encode hc)).1

theorem trimMatches_base64Encode (bytes : Bytes) :
    trimMatches '"' (base64Encode bytes) = base64Encode bytes := by
  have hquote : ∀ c ∈ base64Encode bytes, (c == '"') = false := fun c hc =>
    beq_eq_false_iff_ne.mpr (plain_of_isBase64Char (isBase64Char_base64Encode hc)).2.2
  rw [trimMatches, dropWhile_eq_self fun c hc => hquote c (mem_of_head? hc)]
  exact rdropWhile_eq_self fun c hc => hquote c (mem_of_getLast? hc)

/-! ### One line -/

section
variable (anchor : RuntimeTrustAnchor)

def anchorLine : Text :=
  anchor.owner ++ " IN DNSKEY ".toList ++ decimal anchor.flags ++ " 3 ".toList ++
    decimal anchor.algorithm.toNat ++ [' '] ++ base64Encode anchor.publicKey

def lineFields : List Text :=
  [anchor.owner, "IN".toList, "DNSKEY".toList, decimal anchor.flags, ['3'],
    decimal anchor.algorithm.toNat, base64Encode anchor.publicKey]

theorem anchorLine_eq : anchorLine anchor = [' '].intercalate (lineFields anchor) := by
  have h1 : " IN DNSKEY ".toList = ' ' :: "IN".toList ++ ' ' :: "DNSKEY".toList ++
      [' '] := by decide
  have h2 : " 3 ".toList = [' ', '3', ' '] := by decide
  simp [anchorLine, lineFields, h1, h2, intercalate, intersperse]

end

/-- **What an anchor needs to be read back**: its owner is one field without a comment, and its key
is a zone key that is not revoked and not empty. -/
structure Publishable (anchor : RuntimeTrustAnchor) : Prop where
  owner : IsField anchor.owner
  uncommented : stripAnchorComment anchor.owner = anchor.owner
  flags_lt : anchor.flags < 65536
  zone : anchor.flags &&& 0x0100 ≠ 0
  unrevoked : anchor.flags &&& 0x0080 = 0
  key : anchor.publicKey ≠ []

section

variable {anchor : RuntimeTrustAnchor} (h : Publishable anchor)
include h

theorem Publishable.isField : ∀ field ∈ lineFields anchor, IsField field := by
  simp only [lineFields, forall_mem_cons]
  refine ⟨h.owner, ⟨by decide, by decide⟩, ⟨by decide, by decide⟩, isField_decimal,
    ⟨by decide, by decide⟩, isField_decimal, isField_base64Encode h.key, by simp⟩

theorem Publishable.stripAnchorComment :
    stripAnchorComment (anchorLine anchor) = anchorLine anchor := by
  have hdecimal : ∀ n, ∀ c ∈ decimal n, isCommentSign c = false :=
    fun n => forall_decimal (by decide)
  simp only [anchorLine, append_assoc]
  refine stripAnchorComment_append ?_ h.uncommented
  simp only [forall_mem_append]
  exact ⟨by decide, hdecimal _, by decide, hdecimal _, by decide, fun c hc =>
    (plain_of_isBase64Char (isBase64Char_base64Encode hc)).2.1⟩

theorem Publishable.trim : trim (anchorLine anchor) = anchorLine anchor := by
  refine trim_eq_of_ends (fun c hc => ?_) (fun c hc => ?_)
  · simp only [anchorLine, append_assoc, head?_append_of_ne_nil _ h.owner.ne_nil] at hc
    exact h.owner.chars c (mem_of_head? hc)
  · rw [anchorLine, getLast?_append_of_ne_nil _ (base64Encode_ne_nil h.key)] at hc
    exact (isField_base64Encode h.key).chars c (mem_of_getLast? hc)

/-- **The line of an anchor is read as the anchor.** -/
theorem Publishable.parse : parsePositiveTrustAnchorLine (anchorLine anchor) =
    some ⟨normalizeDnsName anchor.owner,
      .dnskey (dnskeyRdata anchor.flags anchor.algorithm anchor.publicKey)⟩ := by
  have hsplit :
      splitWhitespace (NameText.trim (TrustAnchors.stripAnchorComment (anchorLine anchor))) =
      lineFields anchor := by
    rw [h.stripAnchorComment, h.trim, anchorLine_eq, splitWhitespace_intercalate h.isField]
  have halgorithm : parseDnssecAlgorithm (decimal anchor.algorithm.toNat) =
      some anchor.algorithm := by
    rw [parseDnssecAlgorithm, parseNumberOrName, parseUnsigned_decimal anchor.algorithm.toNat_lt]
    simp
  have hprotocol : parseUnsigned 256 ['3'] = some 3 := by decide
  have hdata : parseAnchorDnskey (decimal anchor.flags) ['3'] (decimal anchor.algorithm.toNat)
      (base64Encode anchor.publicKey) =
      some (.dnskey (dnskeyRdata anchor.flags anchor.algorithm anchor.publicKey)) := by
    have hflags : ¬ (anchor.flags &&& 0x0100 = 0 ∨ anchor.flags &&& 0x0080 ≠ 0 ∨
        (3 : Nat) ≠ 3) := by
      simp [h.zone, h.unrevoked]
    simp only [parseAnchorDnskey, parseUnsigned_decimal h.flags_lt, hprotocol, halgorithm,
      Option.bind_eq_bind, Option.bind_some, if_neg hflags, trimMatches_base64Encode,
      decodeBase64_base64Encode, isEmpty_eq_false_iff.mpr h.key, Bool.false_eq_true, if_false]
    rfl
  have hclass : eqIgnoreAsciiCase "IN".toList "IN".toList = true := by decide
  have hds : eqIgnoreAsciiCase "DNSKEY".toList "DS".toList = false := by decide
  have hdnskey : eqIgnoreAsciiCase "DNSKEY".toList "DNSKEY".toList = true := by decide
  unfold parsePositiveTrustAnchorLine
  rw [hsplit]
  simp only [lineFields, hclass, hds, hdnskey, hdata]
  rfl

end

/-! ### The file -/

/-- Lines that are written one after another are read as they are. -/
theorem lines_flatMap {written : List Text}
    (h : ∀ line ∈ written, '\n' ∉ line ∧ line.getLast? ≠ some '\r') :
    lines (written.flatMap (· ++ ['\n'])) = written := by
  have hsplit : ∀ {written : List Text}, (∀ line ∈ written, '\n' ∉ line) →
      (written.flatMap (· ++ ['\n'])).splitOn '\n' = written ++ [[]] := by
    intro written
    induction written with
    | nil => exact fun _ => rfl
    | cons line written ih =>
      intro hline
      have hchars : ∀ c ∈ line, (c == '\n') = false := fun c hc =>
        beq_eq_false_iff_ne.mpr fun hbad => hline line (by simp) (hbad ▸ hc)
      have hrest := ih fun other hother => hline other (mem_cons_of_mem _ hother)
      rw [splitOn_eq_splitOnP] at hrest
      rw [flatMap_cons, append_assoc, singleton_append, splitOn_eq_splitOnP,
        splitOnP_append_cons_of_forall_mem hchars '\n' (by decide), hrest]
      rfl
  have hends : written.map (fun line => if line.getLast? = some '\r' then line.dropLast else line) =
      written := by
    conv_rhs => rw [← map_id written]
    exact map_congr_left fun line hline => if_neg (h line hline).2
  rw [lines, hsplit fun line hline => (h line hline).1]
  simp [hends]

/-- The anchor that is published for a trusted entry. -/
def runtimeAnchor (entry : TrustAnchorEntry) : RuntimeTrustAnchor :=
  ⟨entry.owner, clearFlags entry.flags Verify.dnskeyFlagRevoke, entry.algorithm, entry.publicKey⟩

def anchorOf (entry : TrustAnchorEntry) : PositiveTrustAnchor :=
  ⟨normalizeDnsName entry.owner, .dnskey (dnskeyRdata entry.flags entry.algorithm entry.publicKey)⟩

/-- The anchor without a key that stands for a root without trusted keys. -/
def rootTombstone : PositiveTrustAnchor := ⟨['.'], .ds 0 253 2 (List.replicate 32 0)⟩

theorem parse_failClosedRootDs :
    parsePositiveTrustAnchorLine failClosedRootDs = some rootTombstone := by
  decide

theorem mem_publishManagerAnchors {manager : TrustAnchorManager} {line : Text} :
    line ∈ publishManagerAnchors manager ↔
      (∃ entry ∈ manager.validAnchors, line = anchorLine (runtimeAnchor entry)) ∨
      (line = failClosedRootDs ∧ ∀ entry ∈ manager.validAnchors,
        canonicalOwner entry.owner ≠ ['.']) := by
  have hvalid : ∀ p : RuntimeTrustAnchor → Prop,
      (∃ anchor ∈ (runtimeState manager).valid, p anchor) ↔
      ∃ entry ∈ manager.validAnchors, p (runtimeAnchor entry) := by
    intro p
    simp only [runtimeState, mem_insertionSort, mem_map, exists_exists_and_eq_and]
    rfl
  have hroot :
      ((runtimeState manager).valid.any fun anchor => canonicalOwner anchor.owner == ['.']) = true ↔
      ∃ entry ∈ manager.validAnchors, canonicalOwner entry.owner = ['.'] := by
    rw [any_eq_true, hvalid]
    simp only [beq_iff_eq]
    rfl
  have hlines : line ∈ (runtimeState manager).valid.map anchorLine ↔
      ∃ entry ∈ manager.validAnchors, line = anchorLine (runtimeAnchor entry) := by
    rw [mem_map, hvalid]
    simp only [eq_comm]
  have hpublish : publishManagerAnchors manager =
      ((if (runtimeState manager).valid.any fun anchor => canonicalOwner anchor.owner == ['.'] then
          (runtimeState manager).valid.map anchorLine
        else (runtimeState manager).valid.map anchorLine ++ [failClosedRootDs]).insertionSort
          (· ≤ ·)).destutter (· ≠ ·) := rfl
  rw [hpublish, mem_destutter_ne, mem_insertionSort]
  split_ifs with hany
  · obtain ⟨entry, hentry, howner⟩ := hroot.mp hany
    rw [hlines]
    exact (or_iff_left fun hbad => hbad.2 entry hentry howner).symm
  · have hnone : ∀ entry ∈ manager.validAnchors, canonicalOwner entry.owner ≠ ['.'] :=
      fun entry hentry howner => hany (hroot.mpr ⟨entry, hentry, howner⟩)
    rw [mem_append, hlines, mem_singleton]
    exact or_congr_right (and_iff_left hnone).symm

def entryAnchor (entry : TrustAnchorEntry) : RuntimeTrustAnchor :=
  ⟨entry.owner, entry.flags, entry.algorithm, entry.publicKey⟩

theorem clearFlags_of_unrevoked {flags : Nat} (hlt : flags < 65536) (h : flags &&& 0x0080 = 0) :
    clearFlags flags revokeFlag = flags := by
  have hall : flags &&& 0xffff = flags := by
    rw [show 0xffff = 2 ^ 16 - 1 from rfl, Nat.and_two_pow_sub_one_eq_mod, Nat.mod_eq_of_lt hlt]
  calc clearFlags flags revokeFlag = flags &&& (0xffff ^^^ revokeFlag) := rfl
    _ = (flags &&& (0xffff ^^^ revokeFlag)) ||| (flags &&& 0x0080) := by rw [h, Nat.or_zero]
    _ = flags &&& 0xffff := by rw [← Nat.and_or_distrib_left]; rfl
    _ = flags := hall

theorem runtimeAnchor_of_publishable {entry : TrustAnchorEntry}
    (h : Publishable (entryAnchor entry)) : runtimeAnchor entry = entryAnchor entry := by
  have hflags : clearFlags entry.flags Verify.dnskeyFlagRevoke = entry.flags :=
    clearFlags_of_unrevoked h.flags_lt h.unrevoked
  rw [runtimeAnchor, hflags]
  rfl

theorem normalizeDnsName_of_root {owner : Text} (h : canonicalOwner owner = ['.']) :
    normalizeDnsName owner = ['.'] := by
  unfold canonicalOwner at h
  dsimp only at h
  split_ifs at h with hempty
  · exact if_pos hempty
  · have hlength := congrArg length h
    rw [length_append, length_singleton] at hlength
    exact absurd (isEmpty_iff.mpr (length_eq_zero_iff.mp (by omega))) hempty

/-- The file that the manager writes. -/
def publishedText (manager : TrustAnchorManager) : Text :=
  (publishManagerAnchors manager).flatMap (· ++ ['\n'])

section

variable {manager : TrustAnchorManager}
  (h : ∀ entry ∈ manager.validAnchors, Publishable (entryAnchor entry))
include h

/-- What the lines of the manager are read as. -/
theorem mem_parse_published {anchor : PositiveTrustAnchor} :
    anchor ∈ (publishManagerAnchors manager).filterMap parsePositiveTrustAnchorLine ↔
      (∃ entry ∈ manager.validAnchors, anchor = anchorOf entry) ∨
      (anchor = rootTombstone ∧
        ∀ entry ∈ manager.validAnchors, canonicalOwner entry.owner ≠ ['.']) := by
  have hparse : ∀ entry ∈ manager.validAnchors,
      parsePositiveTrustAnchorLine (anchorLine (runtimeAnchor entry)) = some (anchorOf entry) := by
    intro entry hentry
    rw [runtimeAnchor_of_publishable (h entry hentry)]
    exact (h entry hentry).parse
  rw [mem_filterMap]
  constructor
  · rintro ⟨line, hline, hread⟩
    rcases mem_publishManagerAnchors.mp hline with ⟨entry, hentry, rfl⟩ | ⟨rfl, hnone⟩
    · rw [hparse entry hentry] at hread
      exact .inl ⟨entry, hentry, (Option.some.inj hread).symm⟩
    · rw [parse_failClosedRootDs] at hread
      exact .inr ⟨(Option.some.inj hread).symm, hnone⟩
  · rintro (⟨entry, hentry, rfl⟩ | ⟨rfl, hnone⟩)
    · exact ⟨_, mem_publishManagerAnchors.mpr (.inl ⟨entry, hentry, rfl⟩), hparse entry hentry⟩
    · exact ⟨_, mem_publishManagerAnchors.mpr (.inr ⟨rfl, hnone⟩), parse_failClosedRootDs⟩

/-- There is a record of the root among them. -/
theorem exists_root_published :
    ∃ anchor ∈ (publishManagerAnchors manager).filterMap parsePositiveTrustAnchorLine,
      anchor.owner = ['.'] := by
  by_cases hroot : ∃ entry ∈ manager.validAnchors, canonicalOwner entry.owner = ['.']
  · obtain ⟨entry, hentry, howner⟩ := hroot
    exact ⟨anchorOf entry, (mem_parse_published h).mpr (.inl ⟨entry, hentry, rfl⟩),
      normalizeDnsName_of_root howner⟩
  · have hnone : ∀ entry ∈ manager.validAnchors, canonicalOwner entry.owner ≠ ['.'] :=
      fun entry hentry howner => hroot ⟨entry, hentry, howner⟩
    exact ⟨rootTombstone, (mem_parse_published h).mpr (.inr ⟨rfl, hnone⟩), rfl⟩

theorem lines_publishedText : lines (publishedText manager) = publishManagerAnchors manager := by
  refine lines_flatMap fun line hline => ?_
  have hfield : ∀ {field : Text}, IsField field → '\n' ∉ field := fun hfield hbad =>
    absurd (hfield.chars _ hbad) (by decide)
  rcases mem_publishManagerAnchors.mp hline with ⟨entry, hentry, rfl⟩ | ⟨rfl, -⟩
  · have hpublishable := h entry hentry
    rw [runtimeAnchor_of_publishable hpublishable]
    constructor
    · simp only [anchorLine, mem_append, not_or]
      exact ⟨⟨⟨⟨⟨⟨hfield hpublishable.owner, by decide⟩, hfield isField_decimal⟩, by decide⟩,
        hfield isField_decimal⟩, by decide⟩, hfield (isField_base64Encode hpublishable.key)⟩
    · intro hbad
      rw [anchorLine, getLast?_append_of_ne_nil _ (base64Encode_ne_nil hpublishable.key)] at hbad
      exact absurd ((isField_base64Encode hpublishable.key).chars _ (mem_of_getLast? hbad))
        (by decide)
  · decide

theorem load_published {directories : List (List AnchorFile)} {name : Bytes}
    (hfile : ⟨name, some (publishedText manager)⟩ ∈
      trustAnchorFiles (labelOf "positive") directories) :
    (∃ anchor ∈ loadPositiveTrustAnchors directories, anchor.owner = ['.']) ∧
    loadPositiveTrustAnchors directories =
      (trustAnchorFiles (labelOf "positive") directories).flatMap AnchorFile.anchors := by
  obtain ⟨root, hroot, howner⟩ := exists_root_published h
  have hanchors : (⟨name, some (publishedText manager)⟩ : AnchorFile).anchors =
      (publishManagerAnchors manager).filterMap parsePositiveTrustAnchorLine := by
    rw [← lines_publishedText h]
    rfl
  have hmem := mem_flatMap.mpr ⟨_, hfile, hanchors ▸ hroot⟩
  have hload : loadPositiveTrustAnchors directories =
      (trustAnchorFiles (labelOf "positive") directories).flatMap AnchorFile.anchors := by
    rw [loadPositiveTrustAnchors]
    exact if_pos (any_eq_true.mpr ⟨root, hmem, by simp [howner]⟩)
  exact ⟨⟨root, hload ▸ hmem, howner⟩, hload⟩

end

/-! ### The anchors of DNSKEY records -/

/-- A key as it comes out of a DNSKEY record: whether it revokes itself is found apart. -/
def FromRecord (key : ObservedDnskey) : Prop :=
  ∃ record observed revoked, record.name.WellFormed ∧
    observedDnskeyWithoutRevocation record = .ok observed ∧
    key = { observed with authenticatedSelfRevocation := revoked }

/-- What publishing needs of the key of a record. -/
structure KeyFields (key : ObservedDnskey) : Prop where
  owner : ∃ labels, key.owner = nameText labels
  flags_lt : key.flags < 65536
  key : key.publicKey ≠ []

theorem FromRecord.fields {key : ObservedDnskey} (hkey : FromRecord key) : KeyFields key := by
  obtain ⟨record, observed, revoked, ⟨labels, -, hofLabels⟩, h, rfl⟩ := hkey
  unfold observedDnskeyWithoutRevocation at h
  split_ifs at h
  obtain ⟨parsed, hparsed, h⟩ := of_bind h
  obtain ⟨keyTag, -, h⟩ := of_bind h
  cases h
  have hparsed : parseDnskey record = .ok parsed := by
    cases hdnskey : parseDnskey record <;> simp_all [liftRuntime]
  rw [parseDnskey] at hparsed
  split_ifs at hparsed
  split at hparsed
  · split_ifs at hparsed with hrejected
    cases hparsed
    refine ⟨⟨labels, by rw [hofLabels]; rfl⟩, u16FromBeBytes_lt _ _, fun hbad =>
      hrejected (.inr ?_)⟩
    simpa using hbad
  · cases hparsed

theorem isCommentSign_nameText {labels : List Bytes} {c : Char} (h : c ∈ nameText labels) :
    isCommentSign c = false := by
  simpa using nameText_all (p := fun c => !isCommentSign c) (by decide) (by decide +kernel) h

theorem isField_canonicalOwner {labels : List Bytes} :
    IsField (canonicalOwner (nameText labels)) ∧
      ∀ c ∈ canonicalOwner (nameText labels), isCommentSign c = false := by
  have hlower : ∀ c : Char, isCommentSign c = false → isCommentSign c.toLower = false := by
    intro c hc
    rcases toLower_cases c with heq | ⟨h1, h2⟩
    · rw [heq]
      exact hc
    · rw [isCommentSign, Bool.or_eq_false_iff, beq_eq_false_iff_ne, beq_eq_false_iff_ne]
      constructor <;>
        · intro hbad
          rw [hbad] at h1
          exact absurd h1 (by decide)
  have hchars : ∀ c ∈ canonicalOwner (nameText labels), isWhitespace c = false ∧
      isCommentSign c = false := by
    intro c hc
    unfold canonicalOwner at hc
    dsimp only at hc
    rw [trim_eq_self fun c hc => nameText_chars hc] at hc
    split_ifs at hc
    · obtain rfl : c = '.' := by simpa using hc
      decide
    · rcases mem_append.mp hc with hc | hc
      · obtain ⟨d, hd, rfl⟩ := mem_map.mp hc
        have hd := (List.rdropWhile_prefix _ _).subset hd
        exact ⟨isWhitespace_toLower (nameText_chars hd), hlower d (isCommentSign_nameText hd)⟩
      · obtain rfl : c = '.' := by simpa using hc
        decide
  refine ⟨⟨?_, fun c hc => (hchars c hc).1⟩, fun c hc => (hchars c hc).2⟩
  unfold canonicalOwner
  dsimp only
  split_ifs <;> simp

/-- A zone key of a record makes an entry that can be published. -/
theorem publishable_newEntry {key : ObservedDnskey} (hkey : FromRecord key)
    (hzone : key.flags &&& 0x0100 ≠ 0) {state : TrustAnchorState}
    {now : Dnssec.Canonical.SystemTime} {addHoldDownTime : Nat} {validators : List AnchorId} :
    Publishable (entryAnchor (newEntry state key now addHoldDownTime validators)) := by
  have h := hkey.fields
  obtain ⟨labels, howner⟩ := h.owner
  obtain ⟨hfield, hcomment⟩ := isField_canonicalOwner
  have hentry : (entryAnchor (newEntry state key now addHoldDownTime validators)).owner =
      canonicalOwner (nameText labels) := congrArg canonicalOwner howner
  refine ⟨hentry ▸ hfield, ?_, ?_, ?_, ?_, h.key⟩
  · rw [hentry]
    exact stripAnchorComment_of_plain hcomment
  · exact lt_of_le_of_lt Nat.and_le_left h.flags_lt
  · show clearFlags key.flags revokeFlag &&& 0x0100 ≠ 0
    rw [clearFlags, Nat.and_assoc]
    exact hzone
  · show clearFlags key.flags revokeFlag &&& 0x0080 = 0
    rw [clearFlags, Nat.and_assoc]
    exact Nat.and_zero _

/-- The entry is revoked, or it can be published. -/
def Kept (entry : TrustAnchorEntry) : Prop :=
  entry.state.isRevoked = true ∨ Publishable (entryAnchor entry)

theorem kept_of_keep {removeHoldDown : Nat} {anchors : Anchors} {now : Dnssec.Canonical.SystemTime}
    {entry later : TrustAnchorEntry} {present : Option ObservedDnskey} {changed : Bool}
    (hkept : Kept entry)
    (h : trackedOutcome removeHoldDown anchors now entry present = .keep later changed) :
    Kept later := by
  have hpublishable : entry.state.isRevoked = false → Publishable (entryAnchor entry) :=
    fun hstate => hkept.resolve_left (by simp [hstate])
  cases hstate : entry.state with
  | addHoldDown =>
    have hentry := hpublishable (by rw [hstate]; rfl)
    cases present with
    | none => simp [trackedOutcome, hstate, observeAddHoldDown] at h
    | some key =>
      simp only [trackedOutcome, hstate, observeAddHoldDown] at h
      split_ifs at h <;> obtain ⟨rfl, -⟩ := Outcome.keep.inj h <;> exact .inr hentry
  | valid | missing =>
    have hentry := hpublishable (by rw [hstate]; rfl)
    cases present <;> simp only [trackedOutcome, hstate, observeTrusted] at h <;>
      split_ifs at h <;> obtain ⟨rfl, -⟩ := Outcome.keep.inj h <;>
      first | exact .inr hentry | exact .inl rfl
  | revoked | removeHoldDown => exact .inl (isRevoked_of_keep (by rw [hstate]; rfl) h)

/-- The keys that a step brings in are those of records, and a seed is a zone key. -/
def RecordKeys (_ : AnchorSystem) : AnchorStep → Prop
  | .seed key _ => FromRecord key ∧ key.flags &&& 0x0100 ≠ 0
  | .observe keys _ _ _ => ∀ key ∈ keys, FromRecord key
  | _ => True

/-- All entries are kept, in the manager and in its file. -/
structure AllKept (system : AnchorSystem) : Prop where
  manager : ∀ id entry, system.manager.entry id = some entry → Kept entry
  file : ∀ version anchors, system.file = .persisted version anchors →
    ∀ id entry, anchors.lookup id = some entry → Kept entry

theorem zone_of_isSep {key : ObservedDnskey} (h : key.isSep = true) : key.flags &&& 0x0100 ≠ 0 := by
  intro hbad
  have hboth := beq_iff_eq.mp h
  have hzone := congrArg (· &&& 0x0100) hboth
  simp only [Nat.and_assoc] at hzone
  rw [show (zoneFlag ||| sepFlag) &&& 0x0100 = 0x0100 from by decide, hbad] at hzone
  exact absurd hzone (by decide)

theorem AllKept.step {system : AnchorSystem} (h : AllKept system) (input : AnchorStep)
    (hkeys : RecordKeys system input) : AllKept (system.step input) := by
  cases input with
  | seed key now =>
    refine ⟨fun id entry hentry => ?_, h.file⟩
    rcases lookup_insert_cases hentry with ⟨-, rfl⟩ | hold
    · exact .inr (publishable_newEntry hkeys.1 hkeys.2)
    · exact h.manager id entry hold
  | observe keys validators now order =>
    refine ⟨fun id => ?_, h.file⟩
    refine observeValidatedRrset_entry Kept (fun _ _ _ _ => kept_of_keep) ?_ (h.manager id)
    intro key hkey _ hsep _ _ _
    exact .inr (publishable_newEntry (hkeys key hkey) (zone_of_isSep hsep))
  | timers now =>
    exact ⟨fun id entry hentry => h.manager id entry (entry_of_timers hentry), h.file⟩
  | save =>
    refine ⟨h.manager, fun version anchors hfile => ?_⟩
    cases hfile
    exact h.manager
  | load =>
    refine ⟨fun id entry hentry => ?_, ?_⟩
    · rcases entry_of_load hentry with hold | ⟨anchors, hfile, hlookup⟩
      · exact h.manager id entry hold
      · exact h.file _ anchors hfile id entry hlookup
    · have hfile : (system.step .load).file = system.file := by
        unfold AnchorSystem.step
        cases system.manager.loadFromDisk system.file <;> rfl
      rw [hfile]
      exact h.file

theorem publishable_of_run (minimumAddHoldDown removeHoldDown : Nat) (steps : List AnchorStep)
    (hsteps : AllSteps AnchorSystem.step RecordKeys
      (.start minimumAddHoldDown removeHoldDown) steps) :
    ∀ entry ∈ (run AnchorSystem.step
        (.start minimumAddHoldDown removeHoldDown) steps).manager.validAnchors,
      Publishable (entryAnchor entry) := by
  have hstart : AllKept (.start minimumAddHoldDown removeHoldDown) := by
    refine ⟨fun id entry hentry => ?_, fun version anchors hfile => ?_⟩
    · simp [AnchorSystem.start, withParameters, TrustAnchorManager.entry] at hentry
    · cases hfile
  have hall := run_invariant AllKept (fun _ input h hkeys => h.step input hkeys) steps
    _ hstart hsteps
  intro entry hentry
  obtain ⟨hvalue, htrusted⟩ := mem_filter.mp hentry
  obtain ⟨id, hlookup⟩ := mem_values.mp hvalue
  refine (hall.manager id entry hlookup).resolve_left ?_
  intro hrevoked
  revert htrusted hrevoked
  cases entry.state <;> decide

/-- **In every run on the keys of records the trusted entries can be published**, and so they are
read back. -/
theorem publishable_run (minimumAddHoldDown removeHoldDown : Nat) (steps : List AnchorStep)
    (hsteps : AllSteps AnchorSystem.step RecordKeys
      (.start minimumAddHoldDown removeHoldDown) steps) :
    ∀ entry ∈ (run AnchorSystem.step
        (.start minimumAddHoldDown removeHoldDown) steps).manager.validAnchors,
      Publishable (entryAnchor entry) :=
  publishable_of_run minimumAddHoldDown removeHoldDown steps hsteps

/-- The key of `oldKeyRecord`. -/
def recordedKey : ObservedDnskey := ⟨['.'], 257, 8, 46090, [3, 1, 0, 1, 0xac, 0xff], 172800, false⟩

theorem publishable_run_restart :
    let system := run AnchorSystem.step (.start 0 0) [.seed recordedKey (days 0), .save, .load]
    system.manager.validAnchors ≠ [] ∧
      ∀ entry ∈ system.manager.validAnchors, Publishable (entryAnchor entry) := by
  have hrecord : FromRecord recordedKey :=
    ⟨oldKeyRecord, recordedKey, false, ⟨[], ⟨by decide, by decide, by decide⟩, rfl⟩, by decide, rfl⟩
  exact ⟨by decide, publishable_run 0 0 _ ⟨⟨hrecord, by decide⟩, trivial, trivial, trivial⟩⟩

/-! ### The anchors that are read back -/

/-- **The published anchors are read back**: the lines of the file stand for the trusted entries
and, without one for the root, for a root without keys; and a loader that has the file in force does
not add the built-in anchors of the root. What it takes holds in every run on the keys of
records. -/
theorem published_anchors_read_back :
    (∀ manager : TrustAnchorManager,
      (∀ entry ∈ manager.validAnchors, Publishable (entryAnchor entry)) →
      (∀ anchor, anchor ∈ (publishManagerAnchors manager).filterMap parsePositiveTrustAnchorLine ↔
        (∃ entry ∈ manager.validAnchors, anchor = anchorOf entry) ∨
        (anchor = rootTombstone ∧
          ∀ entry ∈ manager.validAnchors, canonicalOwner entry.owner ≠ ['.'])) ∧
      ∀ directories name,
        ⟨name, some (publishedText manager)⟩ ∈ trustAnchorFiles (labelOf "positive") directories →
        (∃ anchor ∈ loadPositiveTrustAnchors directories, anchor.owner = ['.']) ∧
        loadPositiveTrustAnchors directories =
          (trustAnchorFiles (labelOf "positive") directories).flatMap AnchorFile.anchors) ∧
    ∀ minimumAddHoldDown removeHoldDown steps,
      AllSteps AnchorSystem.step RecordKeys (.start minimumAddHoldDown removeHoldDown) steps →
      let system := run AnchorSystem.step (.start minimumAddHoldDown removeHoldDown) steps
      ∀ entry ∈ system.manager.validAnchors, Publishable (entryAnchor entry) :=
  ⟨fun _ h => ⟨fun _ => mem_parse_published h, fun _ _ => load_published h⟩, publishable_of_run⟩

def rootAnchorKey (flags : Nat) (publicKey : Bytes) : ObservedDnskey :=
  ⟨['.'], flags, 8, 0, publicKey, 172800, false⟩

/-- A key of a name with an octet that is written by its number. -/
def escapedAnchorKey : ObservedDnskey := ⟨"a\\035b.example".toList, 257, 13, 0, [4, 5], 3600, false⟩

def trustingManager : TrustAnchorManager :=
  ((withParameters defaultAddHoldDown defaultRemoveHoldDown).seedValidAnchor
    (rootAnchorKey 257 [1, 2, 3]) 0).seedValidAnchor escapedAnchorKey 0

theorem published_anchors_read_back_two :
    (∃ entry ∈ trustingManager.validAnchors, entry.owner = "a\\035b.example.".toList) ∧
    ∀ anchor, anchor ∈ (publishManagerAnchors trustingManager).filterMap
      parsePositiveTrustAnchorLine ↔
      (∃ entry ∈ trustingManager.validAnchors, anchor = anchorOf entry) ∨
      (anchor = rootTombstone ∧
        ∀ entry ∈ trustingManager.validAnchors, canonicalOwner entry.owner ≠ ['.']) := by
  refine ⟨by decide, (published_anchors_read_back.1 trustingManager ?_).1⟩
  intro entry hentry
  have hvalid : ∀ entry ∈ trustingManager.validAnchors, (entry.owner ≠ [] ∧
      ∀ c ∈ entry.owner, isWhitespace c = false) ∧ stripAnchorComment entry.owner = entry.owner ∧
      entry.flags < 65536 ∧ entry.flags &&& 0x0100 ≠ 0 ∧ entry.flags &&& 0x0080 = 0 ∧
      entry.publicKey ≠ [] := by decide
  obtain ⟨⟨howner, hchars⟩, hcomment, hlt, hzone, hunrevoked, hkey⟩ := hvalid entry hentry
  exact ⟨⟨howner, hchars⟩, hcomment, hlt, hzone, hunrevoked, hkey⟩

/-- A trusted key of the root that is not a zone key: its line is not read back, and with the file
in force the built-in anchors of the root are loaded. -/
theorem non_zone_key_not_read_back :
    let manager := (withParameters defaultAddHoldDown defaultRemoveHoldDown).seedValidAnchor
      (rootAnchorKey 1 [1, 2, 3]) 0
    manager.validAnchors.map anchorOf = [⟨['.'], .dnskey [0, 1, 3, 8, 1, 2, 3]⟩] ∧
      (publishManagerAnchors manager).filterMap parsePositiveTrustAnchorLine = [] ∧
      loadPositiveTrustAnchors
        [[⟨labelOf "rustd-rfc5011.positive", some (publishedText manager)⟩]] =
        builtinRootTrustAnchors := by
  decide +kernel

end RustdResolved.Dnssec.PublishedAnchors
