import RustdResolved.Lib.Loop
import RustdResolved.Wire.Octets

/-! # Domain names on the wire and in presentation form

`readName` follows the labels and the compression pointers of a packet, `encodeName` writes a name
given as text. A name that the reader returns is the name `DnsName.ofLabels` of some list of labels
within the limits of the wire format (`readName_wellFormed`); everything the resolver knows of a
name is in that list. -/

namespace RustdResolved.Wire.Name

open List Lib Result Loop Octets

variable {label packet : Bytes} {length : UInt8} {read : List Bytes}

/-- A name: its presentation text and its uncompressed wire form in lower case. -/
structure DnsName where
  text : Text
  canonicalWire : Bytes
  deriving DecidableEq, Repr

/-! ### Labels in presentation form -/

/-- The octets that a label shows as they are: letters, digits, `-` and `_`. -/
def isPlainOctet (byte : UInt8) : Bool :=
  (65 ≤ byte && byte ≤ 90) || (97 ≤ byte && byte ≤ 122) || (48 ≤ byte && byte ≤ 57) ||
    byte == 45 || byte == 95

def digitChar (digit : Nat) : Char := Char.ofNat (48 + digit)

/-- The text of one octet: itself, or a backslash and its value in three digits. -/
def escapeOctet (byte : UInt8) : Text :=
  if isPlainOctet byte then [Char.ofNat byte.toNat]
  else ['\\', digitChar (byte.toNat / 100), digitChar (byte.toNat / 10 % 10),
    digitChar (byte.toNat % 10)]

def escapeText (label : Bytes) : Text := label.flatMap escapeOctet

def escapeLabel (label : Bytes) : Except WireError Text :=
  if label.isEmpty || 63 < label.length then .error .invalidLabel else .ok (escapeText label)

/-- The text of a name: its labels with dots between them, and a dot for the root. -/
def joinLabels (labels : List Text) : Text :=
  if labels.isEmpty then ['.'] else ['.'].intercalate labels

/-! ### Reading a name of a packet -/

structure NameReader where
  cursor : Nat
  nextOffset : Nat
  jumped : Bool
  pointerSteps : Nat
  expandedLength : Nat
  labels : List Text
  canonicalWire : Bytes

/-- The reader after the pointer to `pointer` under its cursor. -/
def NameReader.jump (reader : NameReader) (pointer : Nat) : NameReader :=
  { reader with
    cursor := pointer
    nextOffset := if reader.jumped then reader.nextOffset else reader.cursor + 2
    jumped := true
    pointerSteps := reader.pointerSteps + 1 }

/-- The reader after a label of `length` octets with the text `text`. -/
def NameReader.push (reader : NameReader) (length : UInt8) (label : Bytes) (text : Text) :
    NameReader :=
  let stop := reader.cursor + 1 + length.toNat
  { reader with
    cursor := stop
    nextOffset := if reader.jumped then reader.nextOffset else stop
    expandedLength := reader.expandedLength + (length.toNat + 1)
    labels := reader.labels ++ [text]
    canonicalWire := reader.canonicalWire ++ length :: lowercase label }

/-- The name that the reader holds at the root label, and the offset after it. -/
def NameReader.finish (reader : NameReader) : DnsName × Nat :=
  (⟨joinLabels reader.labels, reader.canonicalWire ++ [0]⟩,
    if reader.jumped then reader.nextOffset else reader.cursor + 1)

def readPointer (packet : Bytes) (reader : NameReader) (length : UInt8) :
    Except WireError (LoopFlow (DnsName × Nat) NameReader) := do
  let second ← getOr .shortPacket packet (reader.cursor + 1)
  let pointer := (length &&& 0x3f).toNat * 256 + second.toNat
  if pointer ≥ reader.cursor ∨ pointer ≥ packet.length then .error .compressionLoop
  else if reader.pointerSteps + 1 > 128 then .error .compressionLoop
  else .ok (.again (reader.jump pointer))

def readLabel (packet : Bytes) (reader : NameReader) (length : UInt8) :
    Except WireError (LoopFlow (DnsName × Nat) NameReader) := do
  let stop ← checkedEnd (reader.cursor + 1) length.toNat
  let label ← getRangeOr .shortPacket packet (reader.cursor + 1) stop
  if reader.expandedLength + (length.toNat + 1) > 255 then .error .nameTooLong
  else do
    let text ← escapeLabel label
    .ok (.again (reader.push length label text))

def readNameBody (packet : Bytes) (reader : NameReader) :
    Except WireError (LoopFlow (DnsName × Nat) NameReader) := do
  let length ← getOr .shortPacket packet reader.cursor
  if length = 0 then .ok (.done reader.finish)
  else if length &&& 0xc0 = 0xc0 then readPointer packet reader length
  else if length &&& 0xc0 ≠ 0 ∨ length > 63 then .error .invalidLabel
  else readLabel packet reader length

/-- Enough rounds for 128 pointers, the labels of a name of 255 octets and the root label. -/
def readNameFuel : Nat := 400

/-- Reads the name at `offset`; the second component is the offset after it. -/
def readName (packet : Bytes) (offset : Nat) : Except WireError (DnsName × Nat) :=
  if offset ≥ packet.length then .error .shortPacket
  else loop .outOfFuel (readNameBody packet) readNameFuel ⟨offset, offset, false, 0, 1, [], []⟩

/-! ### One round of the reader -/

/-- The offset that a compression pointer holds. -/
def pointerTarget (length second : UInt8) : Nat := (length &&& 0x3f).toNat * 256 + second.toNat

/-- A round of `readName` by the octets it reads. -/
inductive NameStep (packet : Bytes) (reader : NameReader) : LoopFlow (DnsName × Nat) NameReader →
    Prop
  | root (hroot : packet[reader.cursor]? = some 0) : NameStep packet reader (.done reader.finish)
  | pointer {length second : UInt8} (hlength : packet[reader.cursor]? = some length)
    (hpointer : length &&& 0xc0 = 0xc0) (hsecond : packet[reader.cursor + 1]? = some second)
    (hback : pointerTarget length second < reader.cursor) (hsteps : reader.pointerSteps < 128) :
    NameStep packet reader (.again (reader.jump (pointerTarget length second)))
  | label {length : UInt8} {label : Bytes} (hlength : packet[reader.cursor]? = some length)
    (hsome : length ≠ 0) (hshort : length ≤ 63)
    (hlabel : getRange packet (reader.cursor + 1) (reader.cursor + 1 + length.toNat) = some label)
    (hfits : reader.expandedLength + (length.toNat + 1) ≤ 255) :
    NameStep packet reader (.again (reader.push length label (escapeText label)))

theorem pointer_ne_zero (h : length &&& 0xc0 = 0xc0) : length ≠ 0 := by
  rintro rfl
  exact absurd h (by decide)

theorem short_not_pointer (h : length ≤ 63) : length &&& 0xc0 = 0 :=
  forall_octet (p := fun length => length ≤ 63 → length &&& 0xc0 = 0)
    (by set_option maxRecDepth 4000 in decide) length h

theorem short_ne_pointer (h : length ≤ 63) : ¬ length &&& 0xc0 = 0xc0 := by
  rw [short_not_pointer h]
  decide

theorem escapeLabel_of_length {label : Bytes} (hlen : label.length = length.toNat)
    (hsome : length ≠ 0) (hshort : length ≤ 63) : escapeLabel label = .ok (escapeText label) := by
  have hpos : length.toNat ≠ 0 := fun h => hsome (UInt8.toNat_inj.mp h)
  have hle : length.toNat ≤ 63 := UInt8.le_iff_toNat_le.mp hshort
  unfold escapeLabel
  rw [if_neg]
  simp only [Bool.or_eq_true, List.isEmpty_iff, decide_eq_true_eq, not_or, not_lt]
  exact ⟨fun h => hpos (by rw [← hlen, h]; rfl), by omega⟩

variable {flow : LoopFlow (DnsName × Nat) NameReader} {reader : NameReader}

/-- **What one round does**, by the octets it reads. -/
theorem readNameBody_eq_ok {reader : NameReader} {flow : LoopFlow (DnsName × Nat) NameReader} :
    readNameBody packet reader = .ok flow ↔ NameStep packet reader flow := by
  constructor
  · intro h
    obtain ⟨length, hlength, h⟩ := of_bind h
    rw [getOr_eq_ok] at hlength
    split_ifs at h with hzero hpointer hbad
    · cases h
      exact .root (by rw [hlength, hzero])
    · obtain ⟨second, hsecond, h⟩ := of_bind h
      rw [getOr_eq_ok] at hsecond
      dsimp only at h
      split_ifs at h with hloop hsteps
      rw [not_or, not_le] at hloop
      cases h
      exact .pointer hlength hpointer hsecond hloop.1 (by omega)
    · obtain ⟨stop, hstop, h⟩ := of_bind h
      obtain ⟨label, hlabel, h⟩ := of_bind h
      split_ifs at h with hlong
      obtain ⟨text, htext, h⟩ := of_bind h
      rw [getRangeOr_eq_ok, ← Except.ok.inj hstop] at hlabel
      rw [not_or, not_lt] at hbad
      have hlen := length_of_getRange hlabel
      rw [Nat.add_sub_cancel_left] at hlen
      rw [escapeLabel_of_length hlen hzero hbad.2] at htext
      cases htext
      cases h
      exact .label hlength hzero hbad.2 hlabel (by omega)
  · intro h
    cases h with
    | root hroot =>
      unfold readNameBody
      rw [getOr_eq_ok.mpr hroot]
      rfl
    | @pointer length second hlength hpointer hsecond hback hsteps =>
      have hin : reader.cursor < packet.length := (List.getElem?_eq_some_iff.mp hlength).1
      have hok : ¬ (pointerTarget length second ≥ reader.cursor ∨
          pointerTarget length second ≥ packet.length) := by omega
      unfold readNameBody readPointer
      rw [getOr_eq_ok.mpr hlength, getOr_eq_ok.mpr hsecond]
      simp only [ok_bind, if_neg (pointer_ne_zero hpointer), if_pos hpointer]
      unfold pointerTarget at hok
      rw [if_neg hok, if_neg (by omega)]
      rfl
    | @label length label hlength hsome hshort hlabel hfits =>
      have hplain := short_not_pointer hshort
      have hlen := length_of_getRange hlabel
      rw [Nat.add_sub_cancel_left] at hlen
      unfold readNameBody readLabel checkedEnd
      rw [getOr_eq_ok.mpr hlength]
      simp only [bind, Except.bind, if_neg hsome, hplain]
      rw [if_neg (by decide), if_neg (by simpa using hshort), getRangeOr_eq_ok.mpr hlabel]
      dsimp only
      rw [if_neg (by omega), escapeLabel_of_length hlen hsome hshort]

theorem readNameBody_ne_outOfFuel (reader : NameReader) :
    readNameBody packet reader ≠ .error .outOfFuel := by
  have hget : ∀ offset, getOr .shortPacket packet offset ≠ .error .outOfFuel := by
    intro offset
    unfold getOr
    cases packet[offset]? <;> simp
  refine bind_ne_error (hget _) fun length _ => ?_
  split_ifs with hzero hpointer hlabel
  · simp
  · refine bind_ne_error (hget _) fun second _ => ?_
    dsimp only
    split_ifs <;> simp
  · simp
  · refine bind_ne_error (by simp [checkedEnd]) fun stop _ => ?_
    refine bind_ne_error (getRangeOr_ne_error (by decide)) fun label _ => ?_
    split_ifs with hlong
    · simp
    · refine bind_ne_error ?_ fun text _ => by simp
      unfold escapeLabel
      split_ifs <;> simp

/-- **The bound on the rounds is never met.** -/
theorem readName_ne_outOfFuel (offset : Nat) : readName packet offset ≠ .error .outOfFuel := by
  unfold readName
  split_ifs
  · simp
  · refine loop_ne_out (fun reader => (129 - reader.pointerSteps) + (256 - reader.expandedLength))
      readNameBody_ne_outOfFuel ?_ (by simp [readNameFuel])
    intro reader next h
    cases readNameBody_eq_ok.mp h with
    | pointer =>
      simp only [NameReader.jump]
      omega
    | label =>
      simp only [NameReader.push]
      omega

/-! ### Names as lists of labels -/

variable (labels : List Bytes)

def wireName : Bytes :=
  labels.flatMap (fun label => UInt8.ofNat label.length :: label) ++ [0]

def wireLength : Nat := 1 + (labels.map (·.length + 1)).sum

/-- The labels of a name that fits the wire format. -/
structure ValidLabels (labels : List Bytes) : Prop where
  nonempty : ∀ label ∈ labels, label ≠ []
  short : ∀ label ∈ labels, label.length ≤ 63
  fits : wireLength labels ≤ 255

/-- The presentation form of a list of labels. -/
def nameText : Text := joinLabels (labels.map escapeText)

def DnsName.ofLabels : DnsName :=
  ⟨nameText labels, wireName (labels.map lowercase)⟩

/-- **A name as the parsers build them.** -/
def DnsName.WellFormed (name : DnsName) : Prop :=
  ∃ labels, ValidLabels labels ∧ name = DnsName.ofLabels labels

theorem wireLength_cons (label : Bytes) (labels : List Bytes) :
    wireLength (label :: labels) = wireLength labels + (label.length + 1) := by
  simp [wireLength]; omega

theorem wireLength_append_singleton (label : Bytes) :
    wireLength (labels ++ [label]) = wireLength labels + (label.length + 1) := by
  simp [wireLength]; omega

theorem wireLength_append (a b : List Bytes) :
    wireLength (a ++ b) + 1 = wireLength a + wireLength b := by
  simp [wireLength]
  omega

theorem ValidLabels.append {a b : List Bytes} (ha : ValidLabels a) (hb : ValidLabels b)
    (hfits : wireLength (a ++ b) ≤ 255) : ValidLabels (a ++ b) :=
  ⟨fun l hl => (mem_append.mp hl).elim (ha.nonempty l) (hb.nonempty l),
    fun l hl => (mem_append.mp hl).elim (ha.short l) (hb.short l), hfits⟩

theorem ValidLabels.of_infix {inner labels : List Bytes} (h : ValidLabels labels)
    (hinner : inner <:+: labels) : ValidLabels inner := by
  obtain ⟨a, b, rfl⟩ := hinner
  refine ⟨fun l hl => h.nonempty l (by simp [hl]), fun l hl => h.short l (by simp [hl]), ?_⟩
  have h1 := wireLength_append (a ++ inner) b
  have h2 := wireLength_append a inner
  have h3 := h.fits
  have h4 : 1 ≤ wireLength a := Nat.le_add_right 1 _
  have h5 : 1 ≤ wireLength b := Nat.le_add_right 1 _
  omega

theorem wireLength_map_lowercase : wireLength (labels.map lowercase) = wireLength labels := by
  simp [wireLength, Function.comp_def]

theorem ValidLabels.map_lowercase {labels : List Bytes} (h : ValidLabels labels) :
    ValidLabels (labels.map lowercase) := by
  refine ⟨?_, ?_, by rw [wireLength_map_lowercase]; exact h.fits⟩
  · simp only [mem_map, forall_exists_index, and_imp, forall_apply_eq_imp_iff₂, ne_eq,
      lowercase_eq_nil]
    exact h.nonempty
  · simp only [mem_map, forall_exists_index, and_imp, forall_apply_eq_imp_iff₂, length_lowercase]
    exact h.short

theorem wireName_cons (label : Bytes) (labels : List Bytes) :
    wireName (label :: labels) = UInt8.ofNat label.length :: (label ++ wireName labels) := by
  simp [wireName]

theorem toAsciiLowercase_length (h : label.length ≤ 63) :
    toAsciiLowercase (UInt8.ofNat label.length) = UInt8.ofNat label.length := by
  have hlength : (UInt8.ofNat label.length).toNat = label.length := by
    rw [UInt8.toNat_ofNat']
    omega
  unfold toAsciiLowercase
  rw [if_neg]
  rintro ⟨hle, -⟩
  rw [UInt8.le_iff_toNat_le, hlength] at hle
  exact absurd hle (by simp; omega)

theorem lowercase_wireName : ∀ {labels : List Bytes}, (∀ label ∈ labels, label.length ≤ 63) →
    lowercase (wireName labels) = wireName (labels.map lowercase)
  | [], _ => rfl
  | label :: labels, h => by
    have ih := lowercase_wireName fun l hl => h l (mem_cons_of_mem label hl)
    rw [map_cons, wireName_cons, wireName_cons, length_lowercase, ← ih]
    simp [lowercase, toAsciiLowercase_length (h label (by simp))]

theorem lengthOctet (hsome : label ≠ []) (hshort : label.length ≤ 63) :
    (UInt8.ofNat label.length).toNat = label.length ∧ UInt8.ofNat label.length ≠ 0 ∧
      UInt8.ofNat label.length ≤ 63 := by
  have hlength : (UInt8.ofNat label.length).toNat = label.length := by
    rw [UInt8.toNat_ofNat']
    omega
  have hpos : 0 < label.length := length_pos_iff.mpr hsome
  refine ⟨hlength, fun h => ?_, ?_⟩
  · rw [h] at hlength
    simp only [UInt8.toNat_zero] at hlength
    omega
  · rw [UInt8.le_iff_toNat_le, hlength]
    exact hshort

structure NameReader.Holds (reader : NameReader) (read : List Bytes) : Prop where
  valid : ValidLabels read
  expandedLength : reader.expandedLength = wireLength read
  labels : reader.labels = read.map escapeText
  canonicalWire : reader.canonicalWire ++ [0] = wireName (read.map lowercase)

theorem ValidLabels.nil : ValidLabels [] := ⟨by simp, by simp, by simp [wireLength]⟩

theorem NameReader.holds_start {offset : Nat} :
    NameReader.Holds ⟨offset, offset, false, 0, 1, [], []⟩ [] :=
  ⟨ValidLabels.nil, rfl, rfl, rfl⟩

theorem NameReader.Holds.jump (h : reader.Holds read) (pointer : Nat) :
    (reader.jump pointer).Holds read :=
  ⟨h.valid, h.expandedLength, h.labels, h.canonicalWire⟩

theorem ValidLabels.append_singleton (h : ValidLabels read) (hne : label ≠ [])
    (hshort : label.length ≤ 63) (hfits : wireLength read + (label.length + 1) ≤ 255) :
    ValidLabels (read ++ [label]) := by
  rw [← wireLength_append_singleton] at hfits
  refine h.append ⟨by simpa using hne, by simpa using hshort, ?_⟩ hfits
  simp only [wireLength, map_cons, map_nil, sum_cons, sum_nil]
  omega

theorem NameReader.Holds.push (h : reader.Holds read) (hlen : label.length = length.toNat)
    (hsome : length ≠ 0) (hshort : length ≤ 63)
    (hfits : reader.expandedLength + (length.toNat + 1) ≤ 255) :
    (reader.push length label (escapeText label)).Holds (read ++ [label]) where
  valid := by
    refine h.valid.append_singleton ?_ ?_ (by rw [← h.expandedLength, hlen]; exact hfits)
    · rintro rfl
      exact hsome (UInt8.toNat_inj.mp hlen.symm)
    · exact hlen ▸ UInt8.le_iff_toNat_le.mp hshort
  expandedLength := by
    rw [wireLength_append_singleton, ← h.expandedLength, hlen]
    rfl
  labels := by simp [NameReader.push, h.labels]
  canonicalWire := by
    have := h.canonicalWire
    simp only [wireName, append_cancel_right_eq] at this
    simp [NameReader.push, this, wireName, hlen]

/-- **A name that the reader returns is the name of a list of labels.** -/
theorem readName_wellFormed {offset next : Nat} {name : DnsName}
    (h : readName packet offset = .ok (name, next)) : name.WellFormed := by
  unfold readName at h
  split_ifs at h
  refine loop_ok (fun reader : NameReader => ∃ read, reader.Holds read)
    (fun result : DnsName × Nat => result.1.WellFormed)
    ?_ ?_ ⟨[], NameReader.holds_start⟩ h
  · rintro reader next ⟨read, hread⟩ hbody
    cases readNameBody_eq_ok.mp hbody with
    | pointer => exact ⟨read, hread.jump _⟩
    | label _ hsome hshort hlabel hfits =>
      exact ⟨_, hread.push (by simpa using length_of_getRange hlabel) hsome hshort hfits⟩
  · rintro reader result ⟨read, hread⟩ hbody
    cases readNameBody_eq_ok.mp hbody with
    | root =>
      refine ⟨read, hread.valid, ?_⟩
      simp only [NameReader.finish, DnsName.ofLabels, nameText, hread.labels, hread.canonicalWire]

end RustdResolved.Wire.Name
