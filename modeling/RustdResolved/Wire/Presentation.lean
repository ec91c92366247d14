import RustdResolved.Wire.Name

/-! # Names in presentation form, read back

`decodePresentationName` reads the text of a name and `encodeName` puts it on the wire. The text
that the packet reader writes is read back as the labels it was written from
(`decodePresentationName_nameText`, `encodeName_nameText`). -/

namespace RustdResolved.Wire.Presentation

open List Lib.Result Octets Name

variable {label : Bytes} {labels : List Bytes}

def asBytes (text : Text) : Bytes := text.flatMap String.utf8EncodeChar

def labelOf (text : String) : Bytes := asBytes text.toList

def decimalOctet (a b c : UInt8) : Nat :=
  (a - 48).toNat * 100 + (b - 48).toNat * 10 + (c - 48).toNat

/-- The loop of `decodePresentationName`, over the octets that are left. -/
def decodeLabels (name : Text) : Bytes → Bytes → List Bytes → Except WireError (List Bytes)
  | [], label, labels =>
    if label.isEmpty then .error (.invalidName name) else .ok (labels ++ [label])
  | byte :: rest, label, labels =>
    if byte = 46 then
      if label.isEmpty then
        if rest.isEmpty && labels.isEmpty then .ok [] else .error (.invalidName name)
      else if rest.isEmpty then .ok (labels ++ [label])
      else decodeLabels name rest [] (labels ++ [label])
    else if byte = 92 then
      match rest with
      | [] => .error (.invalidName name)
      | escaped :: rest =>
        if escaped = 92 ∨ escaped = 46 then
          if (label ++ [escaped]).length > 63 then .error (.invalidName name)
          else decodeLabels name rest (label ++ [escaped]) labels
        else if isAsciiDigit escaped then
          match rest with
          | second :: third :: rest =>
            if !(isAsciiDigit second && isAsciiDigit third) then .error (.invalidName name)
            else if decimalOctet escaped second third > 255 then .error (.invalidName name)
            else if label.length + 1 > 63 then .error (.invalidName name)
            else
              decodeLabels name rest (label ++ [UInt8.ofNat (decimalOctet escaped second third)])
                labels
          | _ => .error (.invalidName name)
        else .error (.invalidName name)
    else if byte < 32 ∨ byte = 127 then .error (.invalidName name)
    else if (label ++ [byte]).length > 63 then .error (.invalidName name)
    else decodeLabels name rest (label ++ [byte]) labels

def decodePresentationName (name : Text) : Except WireError (List Bytes) :=
  decodeLabels name (asBytes name) [] []

/-- Puts a name given as text on the wire. -/
def encodeName (name : Text) : Except WireError Bytes :=
  if name.isEmpty then .error (.invalidName name)
  else do
    let labels ← decodePresentationName name
    if labels.isEmpty then .ok [0]
    else if labels.any (255 < ·.length) then .error .nameTooLong
    else if (wireName labels).length > 255 then .error .nameTooLong
    else .ok (wireName labels)

/-! ### Reading back what the packet reader writes -/

variable (byte : UInt8) {name : Text} {rest : Bytes}

theorem asBytes_escapeOctet :
    asBytes (escapeOctet byte) =
      if isPlainOctet byte then [byte]
      else [92, UInt8.ofNat (48 + byte.toNat / 100), UInt8.ofNat (48 + byte.toNat / 10 % 10),
        UInt8.ofNat (48 + byte.toNat % 10)] :=
  forall_octet (p := fun byte => asBytes (escapeOctet byte) = if isPlainOctet byte then [byte]
    else [92, UInt8.ofNat (48 + byte.toNat / 100), UInt8.ofNat (48 + byte.toNat / 10 % 10),
      UInt8.ofNat (48 + byte.toNat % 10)]) (by set_option maxRecDepth 4000 in decide) byte

/-- The octets that the decoder takes as they are. -/
def isVerbatim : Prop := byte ≠ 46 ∧ byte ≠ 92 ∧ ¬ (byte < 32 ∨ byte = 127)

theorem isVerbatim_of_isPlainOctet {byte : UInt8} (h : isPlainOctet byte) : isVerbatim byte := by
  revert h
  exact forall_octet (p := fun byte => isPlainOctet byte →
    byte ≠ 46 ∧ byte ≠ 92 ∧ ¬ (byte < 32 ∨ byte = 127))
      (by set_option maxRecDepth 4000 in decide) byte

theorem decodeLabels_verbatim {byte : UInt8} (h : isVerbatim byte) (hshort : label.length < 63)
    (labels : List Bytes) :
    decodeLabels name (byte :: rest) label labels =
      decodeLabels name rest (label ++ [byte]) labels := by
  obtain ⟨hdot, hslash, hrange⟩ := h
  rw [decodeLabels.eq_def]
  dsimp only
  rw [if_neg hdot, if_neg hslash, if_neg hrange, if_neg]
  simp
  omega

/-- The three digits of an octet are digits, the first is no dot and no backslash, and they stand
for the octet. -/
theorem escape_digits :
    ∃ a b c, a = UInt8.ofNat (48 + byte.toNat / 100) ∧ b = UInt8.ofNat (48 + byte.toNat / 10 % 10) ∧
      c = UInt8.ofNat (48 + byte.toNat % 10) ∧ ¬ (a = 92 ∨ a = 46) ∧ isAsciiDigit a ∧
      isAsciiDigit b ∧ isAsciiDigit c ∧ decimalOctet a b c = byte.toNat := by
  refine ⟨_, _, _, rfl, rfl, rfl, ?_⟩
  exact forall_octet (p := fun byte =>
    ¬ (UInt8.ofNat (48 + byte.toNat / 100) = 92 ∨ UInt8.ofNat (48 + byte.toNat / 100) = 46) ∧
      isAsciiDigit (UInt8.ofNat (48 + byte.toNat / 100)) ∧
      isAsciiDigit (UInt8.ofNat (48 + byte.toNat / 10 % 10)) ∧
      isAsciiDigit (UInt8.ofNat (48 + byte.toNat % 10)) ∧
      decimalOctet (UInt8.ofNat (48 + byte.toNat / 100)) (UInt8.ofNat (48 + byte.toNat / 10 % 10))
        (UInt8.ofNat (48 + byte.toNat % 10)) = byte.toNat)
          (by set_option maxRecDepth 4000 in decide) byte

/-- **The text of an octet is read back as that octet.** -/
theorem decodeLabels_escapeOctet {byte : UInt8} (hshort : label.length < 63) (labels : List Bytes) :
    decodeLabels name (asBytes (escapeOctet byte) ++ rest) label labels =
      decodeLabels name rest (label ++ [byte]) labels := by
  rw [asBytes_escapeOctet]
  split_ifs with hplain
  · exact decodeLabels_verbatim (isVerbatim_of_isPlainOctet hplain) hshort labels
  · obtain ⟨a, b, c, rfl, rfl, rfl, hne, ha, hb, hc, hvalue⟩ := escape_digits byte
    have hlt := byte.toNat_lt
    simp only [cons_append, nil_append]
    rw [decodeLabels, if_neg (by decide), if_pos rfl]
    simp only [if_neg hne, ha, hb, hc, hvalue, Bool.and_self, Bool.not_true, if_true]
    rw [if_neg (by simp), if_neg (by omega), if_neg (by omega)]
    simp

theorem asBytes_append (a b : Text) : asBytes (a ++ b) = asBytes a ++ asBytes b := by
  simp [asBytes]

theorem decodeLabels_escapeText (name : Text) : ∀ (label rest read : Bytes)
    (_ : read.length + label.length ≤ 63) (labels : List Bytes),
    decodeLabels name (asBytes (escapeText label) ++ rest) read labels =
      decodeLabels name rest (read ++ label) labels
  | [], rest, read, _, labels => by simp [escapeText, asBytes]
  | byte :: label, rest, read, hshort, labels => by
    simp only [List.length_cons] at hshort
    have hread : (read ++ [byte]).length + label.length ≤ 63 := by simp; omega
    rw [escapeText, flatMap_cons, asBytes_append, append_assoc,
      decodeLabels_escapeOctet (by omega), ← escapeText,
      decodeLabels_escapeText name label rest (read ++ [byte]) hread labels]
    simp

theorem decodeLabels_dot (name : Text) (hlabel : label ≠ []) (hrest : rest ≠ [])
    (labels : List Bytes) :
    decodeLabels name (46 :: rest) label labels =
      decodeLabels name rest [] (labels ++ [label]) := by
  rw [decodeLabels.eq_def]
  simp [hlabel, hrest]

theorem asBytes_eq_nil {text : Text} : asBytes text = [] ↔ text = [] := by
  cases text with
  | nil => simp [asBytes]
  | cons c text =>
    have hne : String.utf8EncodeChar c ≠ [] := by
      intro h
      simp_all
    simp [asBytes, hne]

theorem escapeOctet_ne_nil : escapeOctet byte ≠ [] := by
  unfold escapeOctet
  split_ifs <;> simp

theorem escapeText_eq_nil : escapeText label = [] ↔ label = [] := by
  cases label with
  | nil => simp [escapeText]
  | cons byte label => simp [escapeText, escapeOctet_ne_nil]

theorem nameText_cons (label : Bytes) (h : labels ≠ []) :
    nameText (label :: labels) = escapeText label ++ '.' :: nameText labels := by
  obtain ⟨next, rest, rfl⟩ := exists_cons_of_ne_nil h
  simp [nameText, joinLabels, intercalate_cons_cons]

theorem nameText_singleton (label : Bytes) : nameText [label] = escapeText label := by
  simp [nameText, joinLabels]

theorem asBytes_nameText_ne_nil (h : ∀ label ∈ labels, label ≠ []) :
    asBytes (nameText labels) ≠ [] := by
  rw [Ne, asBytes_eq_nil]
  match labels with
  | [] => simp [nameText, joinLabels]
  | [label] =>
    rw [nameText_singleton, escapeText_eq_nil]
    exact h label (by simp)
  | label :: next :: rest =>
    rw [nameText_cons label (by simp)]
    simp

theorem nameText_ne_nil (h : ∀ l ∈ labels, l ≠ []) : nameText labels ≠ [] := by
  have := asBytes_nameText_ne_nil h
  rwa [Ne, asBytes_eq_nil] at this

theorem nameText_append : ∀ {a b : List Bytes}, a ≠ [] → b ≠ [] →
    nameText (a ++ b) = nameText a ++ '.' :: nameText b
  | [], _, ha, _ => absurd rfl ha
  | [label], b, _, hb => by
    rw [List.singleton_append, nameText_cons label hb, nameText_singleton]
  | label :: next :: rest, b, _, hb => by
    rw [List.cons_append, nameText_cons label (by simp), nameText_cons label (by simp),
      nameText_append (by simp) hb, List.append_assoc, List.cons_append]

theorem dot_notMem_escapeText (label : Bytes) : '.' ∉ escapeText label := by
  intro h
  obtain ⟨byte, -, hdot⟩ := mem_flatMap.mp h
  revert hdot
  exact forall_octet (p := fun byte => '.' ∉ escapeOctet byte)
    (by set_option maxRecDepth 4000 in decide) byte

theorem splitOn_nameText (h : labels ≠ []) :
    (nameText labels).splitOn '.' = labels.map escapeText := by
  have hne : labels.map escapeText ≠ [] := by simpa using h
  rw [nameText, joinLabels, if_neg (by simpa using hne)]
  refine splitOn_intercalate '.' ?_ hne
  intro text htext
  obtain ⟨label, -, rfl⟩ := mem_map.mp htext
  exact dot_notMem_escapeText label

theorem escapeOctet_toLower :
    (escapeOctet byte).map Char.toLower = escapeOctet (toAsciiLowercase byte) :=
  forall_octet (p := fun byte =>
    (escapeOctet byte).map Char.toLower = escapeOctet (toAsciiLowercase byte))
      (by set_option maxRecDepth 4000 in decide) byte

theorem escapeText_toLower (label : Bytes) :
    (escapeText label).map Char.toLower = escapeText (lowercase label) := by
  simp only [escapeText, lowercase, map_flatMap, flatMap_map, escapeOctet_toLower]

theorem nameText_toLower : ∀ labels : List Bytes,
    (nameText labels).map Char.toLower = nameText (labels.map lowercase)
  | [] => by decide
  | [label] => by
    rw [List.map_singleton, nameText_singleton, nameText_singleton, escapeText_toLower]
  | label :: next :: rest => by
    rw [nameText_cons label (by simp), List.map_cons, nameText_cons (lowercase label) (by simp),
      List.map_append, List.map_cons, escapeText_toLower, nameText_toLower (next :: rest)]
    rfl

theorem decodeLabels_nameText : ∀ {labels : List Bytes} (read : List Bytes),
    labels ≠ [] → (∀ label ∈ labels, label ≠ []) → (∀ label ∈ labels, label.length ≤ 63) →
    decodeLabels name (asBytes (nameText labels)) [] read = .ok (read ++ labels)
  | [], read, hne, _, _ => absurd rfl hne
  | [label], read, _, hnonempty, hshort => by
    have hlabel : label ≠ [] := hnonempty label (by simp)
    have := decodeLabels_escapeText name label [] [] (by simpa using hshort label (by simp)) read
    rw [nameText_singleton, ← append_nil (asBytes (escapeText label)), this]
    simp [decodeLabels, hlabel]
  | label :: next :: rest, read, _, hnonempty, hshort => by
    have hlabel : label ≠ [] := hnonempty label (by simp)
    have htail : ∀ l ∈ next :: rest, l ≠ [] := fun l hl => hnonempty l (by simp_all)
    have hread : asBytes (escapeText label ++ '.' :: nameText (next :: rest)) =
        asBytes (escapeText label) ++ 46 :: asBytes (nameText (next :: rest)) := by
      rw [asBytes_append]
      rfl
    rw [nameText_cons label (by simp), hread,
      decodeLabels_escapeText name label _ [] (by simpa using hshort label (by simp)) read,
      nil_append, decodeLabels_dot name hlabel (asBytes_nameText_ne_nil htail),
      decodeLabels_nameText (read ++ [label]) (by simp) htail (fun l hl => hshort l (by simp_all))]
    simp

/-- **The text of a name is read back as its labels.** -/
theorem decodePresentationName_nameText (h : ValidLabels labels) :
    decodePresentationName (nameText labels) = .ok labels := by
  unfold decodePresentationName
  by_cases hne : labels = []
  · subst hne
    decide
  · simpa using decodeLabels_nameText [] hne h.nonempty h.short

theorem nameText_eq_dot_iff (h : ValidLabels labels) : nameText labels = ['.'] ↔ labels = [] := by
  refine ⟨fun heq => ?_, fun heq => by rw [heq]; rfl⟩
  have hlabels := decodePresentationName_nameText h
  rw [show nameText labels = nameText [] from heq,
    decodePresentationName_nameText ValidLabels.nil] at hlabels
  exact (Except.ok.inj hlabels).symm

theorem length_wireName (labels : List Bytes) : (wireName labels).length = wireLength labels := by
  simp only [wireName, wireLength, length_append, length_flatMap, length_cons,
    length_nil]
  exact Nat.add_comm _ _

/-- **The text of a name is put on the wire as its labels.** -/
theorem encodeName_nameText (h : ValidLabels labels) :
    encodeName (nameText labels) = .ok (wireName labels) := by
  have hne : (nameText labels).isEmpty = false := by
    simpa using nameText_ne_nil h.nonempty
  have hany : labels.any (255 < ·.length) = false := by
    simp only [any_eq_false, decide_eq_true_eq, not_lt]
    intro label hlabel
    have := h.short label hlabel
    omega
  rw [encodeName, hne, decodePresentationName_nameText h, ok_bind, hany, length_wireName]
  by_cases hempty : labels = []
  · simp [hempty, wireName]
  · have := h.fits
    rw [if_neg (by simp), if_neg (by simpa using hempty), if_neg (by simp), if_neg (by omega)]

end RustdResolved.Wire.Presentation
