import RustdResolved.Dnssec.Rrsets
import RustdResolved.Rfc5011.Revocation
import RustdResolved.Rfc5011.Runtime

/-! # The files of trust anchors

Positive trust anchors are lines of text files, in several directories of which the first that has a
file of a name wins. A line holds a DS or a DNSKEY record. Without an anchor of the root the
built-in ones are added.

The manager of RFC 5011 publishes its valid anchors as one of these files, and keeps a list of
revoked identities. The loader reads the files only: `loader_excludes_revoked_iff` says by the keys,
tags and digests of the lines for which files no revoked key is among the anchors. -/

namespace RustdResolved.Dnssec.TrustAnchors

open Lib Result Maps Runs Wire Octets Name Presentation PacketHeader Record DnssecRecords NameText
open Verify Rrsets Rfc5011 Manager Revocation Runtime

/-! ### Fields of a line -/

def eqIgnoreAsciiCase (left right : Text) : Bool := left.map Char.toLower == right.map Char.toLower

def splitWhitespace (text : Text) : List Text := (text.splitOnP isWhitespace).filter (!·.isEmpty)

/-- `str::lines`: the last line may lack its end, and a carriage return belongs to the end. -/
def lines (text : Text) : List Text :=
  let parts := text.splitOn '\n'
  (parts.dropLast.map fun line => if line.getLast? = some '\r' then line.dropLast else line) ++
    parts.getLast?.toList.filter (!·.isEmpty)

def parseUnsigned (limit : Nat) (text : Text) : Option Nat :=
  let digits := if text.head? = some '+' then text.tail else text
  if digits.isEmpty || !digits.all fun c => '0' ≤ c && c ≤ '9' then none
  else
    let value := digits.foldl (fun value c => value * 10 + (c.toNat - 48)) 0
    if value < limit then some value else none

/-- `str::trim_matches` of one character. -/
def trimMatches (c : Char) (text : Text) : Text := (text.dropWhile (· == c)).rdropWhile (· == c)

/-- The text up to the first comment sign that is not escaped. -/
def stripAnchorComment : Text → Text
  | [] => []
  | '\\' :: c :: rest => '\\' :: c :: stripAnchorComment rest
  | c :: rest => if c = '#' ∨ c = ';' then [] else c :: stripAnchorComment rest

def isEscapedCommentTrailer (field : Text) : Bool :=
  ['\\', '#'].isPrefixOf field || ['\\', ';'].isPrefixOf field

def hexDigit (byte : UInt8) : Option UInt8 :=
  if 48 ≤ byte ∧ byte ≤ 57 then some (byte - 48)
  else if 97 ≤ byte ∧ byte ≤ 102 then some (byte - 87)
  else if 65 ≤ byte ∧ byte ≤ 70 then some (byte - 55)
  else none

def decodeHexPairs : Bytes → Option Bytes
  | [] => some []
  | a :: b :: rest => do
    let high ← hexDigit a
    let low ← hexDigit b
    let others ← decodeHexPairs rest
    some ((high <<< 4 ||| low) :: others)
  | [_] => none

def decodeHex (value : Text) : Option Bytes := decodeHexPairs (asBytes value)

def base64Value (byte : UInt8) : Option UInt8 :=
  if 65 ≤ byte ∧ byte ≤ 90 then some (byte - 65)
  else if 97 ≤ byte ∧ byte ≤ 122 then some (byte - 97 + 26)
  else if 48 ≤ byte ∧ byte ≤ 57 then some (byte - 48 + 52)
  else if byte = 43 then some 62
  else if byte = 47 then some 63
  else none

/-- The third or fourth digit of a group, which may be padding in the last group only. -/
def base64Padded (byte : UInt8) (paddingAllowed : Bool) : Option (Option UInt8) :=
  if byte = 61 then if paddingAllowed then some none else none
  else (base64Value byte).map some

def base64Octets (first second : UInt8) : Option UInt8 → Option UInt8 → Bytes
  | none, _ => [first <<< 2 ||| second >>> 4]
  | some third, none => [first <<< 2 ||| second >>> 4, second <<< 4 ||| third >>> 2]
  | some third, some fourth =>
    [first <<< 2 ||| second >>> 4, second <<< 4 ||| third >>> 2, third <<< 6 ||| fourth]

/-- The octets of groups of four digits. -/
def decodeBase64Groups : Bytes → Option Bytes
  | [] => some []
  | a :: b :: c :: d :: rest => do
    let first ← base64Value a
    let second ← base64Value b
    let third ← base64Padded c (d == 61 && rest.isEmpty && second &&& 0x0f == 0)
    let fourth ← base64Padded d (rest.isEmpty && third.all fun value => value &&& 0x03 == 0)
    if third.isNone && fourth.isSome then none
    else do
      let others ← decodeBase64Groups rest
      some (base64Octets first second third fourth ++ others)
  | _ => none

def decodeBase64 (input : Text) : Option Bytes := decodeBase64Groups (asBytes input)

def dnssecAlgorithmNames : List (String × UInt8) :=
  [("RSAMD5", 1), ("DH", 2), ("DSA", 3), ("ECC", 4), ("RSASHA1", 5), ("DSA-NSEC3-SHA1", 6),
    ("RSASHA1-NSEC3-SHA1", 7), ("RSASHA256", 8), ("RSASHA512", 10), ("ECC-GOST", 12),
    ("ECDSAP256SHA256", 13), ("ECDSAP384SHA384", 14), ("ED25519", 15), ("ED448", 16),
    ("INDIRECT", 252), ("PRIVATEDNS", 253), ("PRIVATEOID", 254)]

def dnssecDigestNames : List (String × UInt8) :=
  [("SHA1", 1), ("SHA256", 2), ("GOST", 3), ("GOST-R-34.11-94", 3), ("SHA384", 4)]

def parseNumberOrName (names : List (String × UInt8)) (value : Text) : Option UInt8 :=
  match parseUnsigned 256 value with
  | some number => some (UInt8.ofNat number)
  | none => names.lookup (String.ofList (value.map Char.toUpper))

def parseDnssecAlgorithm : Text → Option UInt8 := parseNumberOrName dnssecAlgorithmNames

def parseDnssecDigest : Text → Option UInt8 := parseNumberOrName dnssecDigestNames

/-! ### Lines -/

/-- The data of a DNSKEY record of an anchor, which has to be a zone key that is not revoked. -/
def parseAnchorDnskey (flags protocol algorithm key : Text) : Option PositiveTrustAnchorData := do
  let flags ← parseUnsigned 65536 flags
  let protocol ← parseUnsigned 256 protocol
  let algorithm ← parseDnssecAlgorithm algorithm
  if flags &&& 0x0100 = 0 ∨ flags &&& 0x0080 ≠ 0 ∨ protocol ≠ 3 then none
  else do
    let publicKey ← decodeBase64 (trimMatches '"' key)
    if publicKey.isEmpty then none
    else some (.dnskey (u16ToBeBytes flags ++ [UInt8.ofNat protocol, algorithm] ++ publicKey))

def parseAnchorDs (keyTag algorithm digestType digest : Text) : Option PositiveTrustAnchorData := do
  let keyTag ← parseUnsigned 65536 keyTag
  let algorithm ← parseDnssecAlgorithm algorithm
  let digestType ← parseDnssecDigest digestType
  let digest ← decodeHex (trimMatches '"' digest)
  some (.ds keyTag algorithm digestType digest)

def parsePositiveTrustAnchorLine (line : Text) : Option PositiveTrustAnchor :=
  match splitWhitespace (trim (stripAnchorComment line)) with
  | owner :: rrClass :: rrType :: a :: b :: c :: d :: extra =>
    if !eqIgnoreAsciiCase rrClass "IN".toList then none
    else if !(extra.isEmpty || extra.head?.any isEscapedCommentTrailer) then none
    else if eqIgnoreAsciiCase rrType "DS".toList then
      (parseAnchorDs a b c d).map (⟨normalizeDnsName owner, ·⟩)
    else if eqIgnoreAsciiCase rrType "DNSKEY".toList then
      (parseAnchorDnskey a b c d).map (⟨normalizeDnsName owner, ·⟩)
    else none
  | _ => none

/-! ### Files -/

/-- A file of a directory; one that cannot be read as text has no contents. -/
structure AnchorFile where
  name : Bytes
  contents : Option Text
  deriving DecidableEq, Repr

/-- `Path::extension` of a file name. -/
def fileExtension (name : Bytes) : Option Bytes :=
  if (46 : UInt8) ∉ name ∨ (name.rdropWhile (· != 46)).dropLast = [] then none
  else some (name.rtakeWhile (· != 46))

/-- The files with an extension, by name, of directories in the order of their precedence. -/
def trustAnchorFiles (extension : Bytes) (directories : List (List AnchorFile)) : List AnchorFile :=
  let selected : FiniteMap Bytes AnchorFile := directories.reverse.flatten.foldl
    (fun selected file =>
      if fileExtension file.name = some extension then selected.insert file.name file
      else selected) ∅
  (values selected).insertionSort (·.name ≤ ·.name)

def AnchorFile.anchors (file : AnchorFile) : List PositiveTrustAnchor :=
  match file.contents with
  | none => []
  | some contents => (lines contents).filterMap parsePositiveTrustAnchorLine

def builtinRootDigests : List (Nat × String) :=
  [(20326, "E06D44B80B8F1D39A95C0B0D7C65D08458E880409BBC683457104237C7F8EC8D"),
    (38696, "683D2D0ACB8C9B712A1948B27F741219298D0A450D612C483AF444A4C0FB2B16")]

def builtinRootTrustAnchors : List PositiveTrustAnchor :=
  builtinRootDigests.map fun (keyTag, digest) =>
    ⟨['.'], .ds keyTag 8 2 ((decodeHex digest.toList).getD [])⟩

def loadPositiveTrustAnchors (directories : List (List AnchorFile)) : List PositiveTrustAnchor :=
  let output := (trustAnchorFiles (labelOf "positive") directories).flatMap AnchorFile.anchors
  if output.any (·.owner == ['.']) then output else output ++ builtinRootTrustAnchors

/-! ### Revoked keys -/

/-- The identity of a DNSKEY record, which does not depend on its revoke bit. -/
def recordAnchorId (key : ResourceRecord) : Option AnchorId :=
  match observedDnskeyWithoutRevocation key with
  | .ok observed => some observed.anchorId
  | .error _ => none

/-- A DNSKEY record of a name. -/
def keyRecord (name : DnsName) (flags : Nat) (algorithm : UInt8) (publicKey : Bytes) :
    ResourceRecord :=
  { name := name
    rrType := typeDnskey
    rrClass := classIn
    ttl := 172800
    ttlOffset := 0
    rdataOffset := 0
    rdata := dnskeyRdata flags algorithm publicKey
    nextOffset := 0 }

section
variable {algorithm : UInt8} {flags : Nat} {key : ResourceRecord} {name : DnsName}
  {native : Native} {parsed : DnskeyRecord} {publicKey : Bytes}

/-- Keys that can be read: their flags are those of a record, and they are not empty. -/
structure IsKey (flags : Nat) (publicKey : Bytes) : Prop where
  flags : flags < 65536
  publicKey : publicKey ≠ []

theorem parseDnskey_parts (h : parseDnskey key = .ok parsed) :
    key.rrType = typeDnskey ∧ IsKey parsed.flags parsed.publicKey ∧
      key.rdata = dnskeyRdata parsed.flags parsed.algorithm parsed.publicKey := by
  unfold parseDnskey at h
  split_ifs at h with htype
  split at h
  · next a b protocol algorithm publicKey hrdata =>
    split_ifs at h with hinvalid
    rw [not_or, not_not, List.isEmpty_iff] at hinvalid
    cases h
    refine ⟨not_not.mp htype, ⟨u16FromBeBytes_lt a b, hinvalid.2⟩, ?_⟩
    rw [hrdata, hinvalid.1]
    unfold dnskeyRdata
    rw [u16ToBeBytes_u16FromBeBytes]
    rfl
  · cases h

theorem parseDnskey_keyRecord (h : IsKey flags publicKey) :
    parseDnskey (keyRecord name flags algorithm publicKey) =
      .ok ⟨flags, 3, algorithm, publicKey⟩ := by
  unfold parseDnskey keyRecord dnskeyRdata u16ToBeBytes
  rw [if_neg (by simp)]
  simp only [List.cons_append, List.nil_append]
  rw [if_neg (by simp [h.publicKey]), u16FromBeBytes_ofNat h.flags]

theorem dnskeyKeyTag_isOk (htype : key.rrType = typeDnskey) (hlength : 4 ≤ key.rdata.length) :
    ∃ tag, dnskeyKeyTag key = .ok tag := by
  have hindex : ∀ i < key.rdata.length, ∃ octet, index key.rdata i = .ok octet := by
    intro i hi
    exact ⟨key.rdata.get ⟨i, hi⟩, by simp [index, getOr, hi]⟩
  unfold dnskeyKeyTag
  rw [if_neg (by simp [htype]; omega)]
  obtain ⟨algorithm, halgorithm⟩ := hindex 3 (by omega)
  obtain ⟨a, ha⟩ := hindex (key.rdata.length - 3) (by omega)
  obtain ⟨b, hb⟩ := hindex (key.rdata.length - 2) (by omega)
  rw [halgorithm, ok_bind, ha, hb]
  split_ifs
  · exact ⟨_, rfl⟩
  · exact ⟨_, rfl⟩

theorem recordAnchorId_keyRecord (h : IsKey flags publicKey) :
    recordAnchorId (keyRecord name flags algorithm publicKey) =
      some (anchorId name.text flags algorithm publicKey) := by
  obtain ⟨tag, htag⟩ := @dnskeyKeyTag_isOk (keyRecord name flags algorithm publicKey) rfl
    (by simp [keyRecord, dnskeyRdata, u16ToBeBytes])
  unfold recordAnchorId observedDnskeyWithoutRevocation
  rw [if_neg (by simp [keyRecord]), parseDnskey_keyRecord h, htag]
  rfl

/-- A key with an identity is a key of its name, with the flags, the algorithm and the key octets
that the identity is made of. -/
theorem recordAnchorId_parts {id : AnchorId} (h : recordAnchorId key = some id) :
    ∃ flags algorithm publicKey, IsKey flags publicKey ∧ key.rrType = typeDnskey ∧
      key.rdata = dnskeyRdata flags algorithm publicKey ∧
      id = anchorId key.name.text flags algorithm publicKey := by
  unfold recordAnchorId at h
  cases hobserved : observedDnskeyWithoutRevocation key with
  | error e =>
    rw [hobserved] at h
    cases h
  | ok observed =>
    rw [hobserved] at h
    unfold observedDnskeyWithoutRevocation at hobserved
    split_ifs at hobserved
    obtain ⟨parsed, hparsed, hobserved⟩ := of_bind hobserved
    obtain ⟨tag, -, hobserved⟩ := of_bind hobserved
    cases hobserved
    cases h
    have hread : parseDnskey key = .ok parsed := by
      cases hkey : parseDnskey key with
      | error e => simp [hkey, liftRuntime] at hparsed
      | ok found => simpa [hkey, liftRuntime] using hparsed
    obtain ⟨htype, hkey, hrdata⟩ := parseDnskey_parts hread
    exact ⟨parsed.flags, parsed.algorithm, parsed.publicKey, hkey, htype, hrdata, rfl⟩

end

/-- **The data of an anchor is not that of a revoked key.** A key is compared with the flags, the
algorithm and the key octets of the revoked identities, whatever their owners are; a digest with the
algorithm of a revoked identity and with the tag and the digest of its key, at its owner and with or
without the revoke bit. -/
def SparesRevoked (native : Native) (manager : TrustAnchorManager) : PositiveTrustAnchorData → Prop
  | .dnskey rdata => ∀ owner flags algorithm publicKey, IsKey flags publicKey →
      rdata = dnskeyRdata flags algorithm publicKey →
      anchorId owner flags algorithm publicKey ∉ manager.revokedAnchorIds
  | .ds keyTag algorithm digestType digest => ∀ (name : DnsName) flags publicKey,
      IsKey flags publicKey →
      anchorId name.text flags algorithm publicKey ∈ manager.revokedAnchorIds →
      dnskeyKeyTag (keyRecord name flags algorithm publicKey) = .ok keyTag →
      dnskeyDsDigest native (keyRecord name flags algorithm publicKey) digestType ≠ .ok digest

def InForce (directories : List (List AnchorFile)) (anchor : PositiveTrustAnchor) : Prop :=
  ∃ file ∈ trustAnchorFiles (labelOf "positive") directories, ∃ contents line,
    file.contents = some contents ∧ line ∈ lines contents ∧
      parsePositiveTrustAnchorLine line = some anchor

theorem mem_loadPositiveTrustAnchors {directories : List (List AnchorFile)}
    {anchor : PositiveTrustAnchor} :
    anchor ∈ loadPositiveTrustAnchors directories ↔
      InForce directories anchor ∨
        ((∀ other, InForce directories other → other.owner ≠ ['.']) ∧
          anchor ∈ builtinRootTrustAnchors) := by
  have hforce : ∀ other, other ∈ (trustAnchorFiles (labelOf "positive") directories).flatMap
      AnchorFile.anchors ↔ InForce directories other := by
    intro other
    refine List.mem_flatMap.trans (exists_congr fun file => and_congr_right fun _ => ?_)
    unfold AnchorFile.anchors
    cases file.contents <;> simp [List.mem_filterMap]
  unfold loadPositiveTrustAnchors
  dsimp only
  split_ifs with hroot
  · rw [hforce]
    obtain ⟨root, hmem, howner⟩ := List.any_eq_true.mp hroot
    refine ⟨Or.inl, ?_⟩
    rintro (h | ⟨hnone, -⟩)
    · exact h
    · exact absurd (by simpa using howner) (hnone root ((hforce root).mp hmem))
  · rw [List.mem_append, hforce]
    have hnone : ∀ other, InForce directories other → other.owner ≠ ['.'] := by
      intro other hother howner
      exact hroot (List.any_eq_true.mpr ⟨other, (hforce other).mpr hother, by simp [howner]⟩)
    exact or_congr_right (and_iff_right hnone).symm

section
variable {anchor : PositiveTrustAnchor} {flags keyTag : Nat} {native : Native} {owner : Text}
  {publicKey : Bytes}

/-- A match depends on the name and the data of a key only. -/
theorem matches_eq_keyRecord {algorithm : UInt8} {key : ResourceRecord}
    (htype : key.rrType = typeDnskey) (hrdata : key.rdata = dnskeyRdata flags algorithm publicKey) :
    trustAnchorMatchesDnskey native anchor key =
      trustAnchorMatchesDnskey native anchor (keyRecord key.name flags algorithm publicKey) := by
  unfold trustAnchorMatchesDnskey dnskeyDsDigest dnskeyKeyTag parseDnskey
  rw [htype, hrdata]
  rfl

theorem matches_ds_iff {algorithm digestType own : UInt8} {digest : Bytes} {name : DnsName}
    (h : IsKey flags publicKey) :
    trustAnchorMatchesDnskey native ⟨owner, .ds keyTag algorithm digestType digest⟩
        (keyRecord name flags own publicKey) = .ok true ↔
      own = algorithm ∧ dnskeyKeyTag (keyRecord name flags own publicKey) = .ok keyTag ∧
        dnskeyDsDigest native (keyRecord name flags own publicKey) digestType = .ok digest := by
  simp only [trustAnchorMatchesDnskey, parseDnskey_keyRecord h, liftDnssec, ok_bind]
  by_cases halgorithm : own = algorithm
  · rw [if_neg (not_not.mpr halgorithm)]
    cases dnskeyKeyTag (keyRecord name flags own publicKey) with
    | error e => simp
    | ok tag =>
      by_cases htag : tag = keyTag
      · cases dnskeyDsDigest native (keyRecord name flags own publicKey) digestType with
        | error e => simp [htag]
        | ok computed => simp [htag, halgorithm]
      · simp [htag]
  · simp [halgorithm]

end

/-- An anchor matches no revoked key exactly when its data is not that of one. -/
theorem sparesRevoked_iff (native : Native) (manager : TrustAnchorManager)
    (anchor : PositiveTrustAnchor) :
    (∀ key id, recordAnchorId key = some id → id ∈ manager.revokedAnchorIds →
        trustAnchorMatchesDnskey native anchor key ≠ .ok true) ↔
      SparesRevoked native manager anchor.data := by
  obtain ⟨owner, data⟩ := anchor
  constructor
  · intro h
    cases data with
    | dnskey rdata =>
      rintro other flags algorithm publicKey hkey rfl hrevoked
      refine h (keyRecord ⟨other, []⟩ flags algorithm publicKey) _ (recordAnchorId_keyRecord hkey)
        hrevoked ?_
      simp [trustAnchorMatchesDnskey, keyRecord]
    | ds keyTag algorithm digestType digest =>
      intro name flags publicKey hkey hrevoked htag hdigest
      exact h (keyRecord name flags algorithm publicKey) _ (recordAnchorId_keyRecord hkey) hrevoked
        ((matches_ds_iff hkey).mpr ⟨rfl, htag, hdigest⟩)
  · intro h key id hid hrevoked hmatch
    obtain ⟨flags, algorithm, publicKey, hkey, htype, hrdata, rfl⟩ := recordAnchorId_parts hid
    rw [matches_eq_keyRecord htype hrdata] at hmatch
    cases data with
    | dnskey rdata =>
      have hsame : dnskeyRdata flags algorithm publicKey = rdata := by
        simpa [trustAnchorMatchesDnskey, keyRecord] using hmatch
      exact h key.name.text flags algorithm publicKey hkey hsame.symm hrevoked
    | ds keyTag own digestType digest =>
      obtain ⟨rfl, htag, hdigest⟩ := (matches_ds_iff hkey).mp hmatch
      exact h key.name flags publicKey hkey hrevoked htag hdigest

/-- **When the loader leaves out revoked keys**: when no line of the files in force has the key or
the digest of one, and no built-in digest that stands in for the root is that of one. -/
theorem loader_excludes_revoked_iff (native : Native) (manager : TrustAnchorManager)
    (directories : List (List AnchorFile)) :
    (∀ anchor ∈ loadPositiveTrustAnchors directories, ∀ key id, recordAnchorId key = some id →
        id ∈ manager.revokedAnchorIds → trustAnchorMatchesDnskey native anchor key ≠ .ok true) ↔
      (∀ anchor, InForce directories anchor → SparesRevoked native manager anchor.data) ∧
      ((∀ anchor, InForce directories anchor → anchor.owner ≠ ['.']) →
        ∀ anchor ∈ builtinRootTrustAnchors, SparesRevoked native manager anchor.data) := by
  simp only [sparesRevoked_iff, mem_loadPositiveTrustAnchors]
  constructor
  · intro h
    exact ⟨fun anchor hforce => h anchor (.inl hforce),
      fun hroot anchor hbuiltin => h anchor (.inr ⟨hroot, hbuiltin⟩)⟩
  · rintro ⟨hlines, hbuiltin⟩ anchor (hforce | ⟨hroot, hmem⟩)
    · exact hlines anchor hforce
    · exact hbuiltin hroot anchor hmem

/-! ### A configured key that was revoked -/

/-- The key that was revoked, as a record. -/
def oldKeyRecord : ResourceRecord :=
  keyRecord (DnsName.ofLabels []) 257 8 [3, 1, 0, 1, 0xac, 0xff]

/-- The file that an administrator wrote when the old key was in use, as a key and as a digest. -/
def staticFile : AnchorFile :=
  { name := labelOf "root.positive"
    contents := some (". IN DNSKEY 257 3 8 AwEAAaz/\n".toList ++
      (". IN DS 46090 8 2 ".toList ++ List.replicate 64 'a' ++ ['\n'])) }

def revokedManager : TrustAnchorManager :=
  (run AnchorSystem.step (.start defaultAddHoldDown defaultRemoveHoldDown) revocation).manager

def runtimeFile : AnchorFile :=
  { name := labelOf "rustd-rfc5011.positive"
    contents := some ((publishManagerAnchors revokedManager).flatMap (· ++ ['\n'])) }

/-- **A revoked key is still loaded**, from a configured key and from a configured digest, beside
the file of valid anchors that the manager publishes. -/
theorem revoked_key_loaded :
    recordAnchorId oldKeyRecord = some oldKey.anchorId ∧
      oldKey.anchorId ∈ revokedManager.revokedAnchorIds ∧
      (loadPositiveTrustAnchors [[staticFile], [runtimeFile]]).map
          (fun anchor => trustAnchorMatchesDnskey acceptingNative anchor
            oldKeyRecord) =
        [.ok true, .ok true, .ok false] := by
  refine ⟨by decide +kernel, by decide +kernel, by decide +kernel⟩

end RustdResolved.Dnssec.TrustAnchors
