import RustdResolved.Json.Parsing

/-! # What the writers write, the parser reads

`Renders` says which texts stand for a value: blanks may stand around the elements of an array and
around the keys and values of an object. The parser reads every such text (`reads_value`), and both
writers write one. -/

namespace RustdResolved.Json.RoundTrip

open List Lib Loop Result Maps Wire.Octets Values Parsing

variable {c : Char} {n : Nat} {rest text : Text} {value : Value}

/-- In front of `rest`, `read` reads `a` from `text`. -/
def Reads {α : Type} (read : Parser → Except Failure (α × Parser)) (text : Text) (a : α)
    (rest : Text) : Prop :=
  ∀ offset, ∃ offset', read ⟨text ++ rest, offset⟩ = .ok (a, ⟨rest, offset'⟩)

/-! ### Strings -/

theorem hexDigit_hexDigitChar : ∀ digit < 16, hexDigit (hexDigitChar digit) = some digit := by
  decide

theorem four_le_byteLength (a b c d : Char) (rest : Text) :
    4 ≤ byteLength (a :: b :: c :: d :: rest) := by
  have ha := a.utf8Size_pos
  have hb := b.utf8Size_pos
  have hc := c.utf8Size_pos
  have hd := d.utf8Size_pos
  simp only [byteLength, map_cons, sum_cons]
  omega

theorem reads_hexQuad (h : n < 65536) (rest : Text) : Reads parseHexQuad (hexQuad n) n rest := by
  intro offset
  have hlong := four_le_byteLength (hexDigitChar (n / 4096 % 16)) (hexDigitChar (n / 256 % 16))
    (hexDigitChar (n / 16 % 16)) (hexDigitChar (n % 16)) rest
  have hdigits : ((hexQuad n ++ rest).take 4).mapM hexDigit =
      some [n / 4096 % 16, n / 256 % 16, n / 16 % 16, n % 16] := by
    simp [hexQuad, hexDigit_hexDigitChar, Nat.mod_lt]
  have hvalue : ((n / 4096 % 16 * 16 + n / 256 % 16) * 16 + n / 16 % 16) * 16 + n % 16 = n := by
    omega
  refine ⟨offset + 4, ?_⟩
  rw [parseHexQuad, if_neg (by simpa [hexQuad] using hlong)]
  simp only [hdigits, hvalue]
  rfl

theorem surrogatePair_control (h : n < 0x20) {parser : Parser} :
    surrogatePair n parser = .ok (n, parser) := by
  have hhigh : ¬(0xd800 ≤ n ∧ n ≤ 0xdbff) := by omega
  have hlow : ¬(0xdc00 ≤ n ∧ n ≤ 0xdfff) := by omega
  rw [surrogatePair, if_neg hhigh, if_neg hlow]

theorem reads_controlEscape (h : c.toNat < 0x20) :
    Reads parseUnicodeEscape (hexQuad c.toNat) c rest := by
  intro offset
  obtain ⟨offset', hquad⟩ := reads_hexQuad (n := c.toNat) (by omega) rest offset
  have hvalid : c.toNat < 0xd800 ∨ 0xdfff < c.toNat ∧ c.toNat < 0x110000 := by omega
  have hscalar : charFromU32 c.toNat = some c := by
    rw [charFromU32, if_pos hvalid, Char.ofNat_toNat]
  refine ⟨offset', bind_eq_ok.mpr ⟨_, hquad, bind_eq_ok.mpr ⟨_, surrogatePair_control h, ?_⟩⟩⟩
  simp only [hscalar]

theorem stringRound_writeChar {rest output : Text} {offset : Nat} :
    ∃ offset', stringRound (⟨writeChar c ++ rest, offset⟩, output) =
      .ok (.again (⟨rest, offset'⟩, output ++ [c])) := by
  unfold writeChar
  split_ifs with hquote hslash hback hfeed hline hreturn htab hcontrol
  · subst hquote
    exact ⟨_, rfl⟩
  · subst hslash
    exact ⟨_, rfl⟩
  · obtain rfl : c = Char.ofNat 0x08 := by rw [← hback, Char.ofNat_toNat]
    exact ⟨_, rfl⟩
  · obtain rfl : c = Char.ofNat 0x0c := by rw [← hfeed, Char.ofNat_toNat]
    exact ⟨_, rfl⟩
  · subst hline
    exact ⟨_, rfl⟩
  · subst hreturn
    exact ⟨_, rfl⟩
  · subst htab
    exact ⟨_, rfl⟩
  · obtain ⟨offset', hescape⟩ := reads_controlEscape hcontrol (offset + 1 + 1)
    refine ⟨offset', ?_⟩
    have hround : stringRound (⟨'\\' :: 'u' :: hexQuad c.toNat ++ rest, offset⟩, output) =
        parseUnicodeEscape ⟨hexQuad c.toNat ++ rest, offset + 1 + 1⟩ >>= fun read =>
          .ok (.again (read.2, output ++ [read.1])) := rfl
    rw [hround, hescape, ok_bind]
  · refine ⟨offset + c.utf8Size, ?_⟩
    have hbyte : (⟨[c] ++ rest, offset⟩ : Parser).byte = some c := rfl
    simp only [stringRound, hbyte, if_neg hquote, if_neg hslash,
      if_neg (show ¬c.toNat ≤ 31 by omega)]
    rfl

theorem writeChar_ne_nil (c : Char) : writeChar c ≠ [] := by
  unfold writeChar
  split_ifs <;> simp

theorem length_le_length_writeChars (value : Text) :
    value.length ≤ (value.flatMap writeChar).length := by
  induction value with
  | nil => simp
  | cons c value ih =>
    have hc := length_pos_of_ne_nil (writeChar_ne_nil c)
    rw [flatMap_cons, length_append, length_cons]
    omega

theorem loop_stringRound : ∀ (value output : Text) (rounds offset : Nat),
    value.length < rounds → ∃ offset', loop .outOfFuel stringRound rounds
      (⟨value.flatMap writeChar ++ '"' :: rest, offset⟩, output) =
        .ok (output ++ value, ⟨rest, offset'⟩)
  | [], output, rounds + 1, offset, _ => by
    rw [List.append_nil]
    exact ⟨offset + 1, rfl⟩
  | c :: value, output, rounds + 1, offset, hrounds => by
    obtain ⟨next, hround⟩ :=
      stringRound_writeChar
    obtain ⟨offset', hloop⟩ := loop_stringRound value (output ++ [c]) rounds next
      (by simpa using hrounds)
    refine ⟨offset', ?_⟩
    rw [flatMap_cons, append_assoc, loop, hround, ok_bind]
    simpa using hloop

theorem reads_string (value rest : Text) : Reads parseString (writeString value) value rest := by
  intro offset
  have hlength := length_le_length_writeChars value
  obtain ⟨offset', hloop⟩ := loop_stringRound value [] ((writeString value ++ rest).length + 1)
    (offset + 1) (by simp only [writeString, length_append, length_cons]; omega)
  refine ⟨offset', ?_⟩
  rw [parseString, if_neg (by simp [Parser.byte, writeString])]
  simpa [Parser.skip, writeString] using hloop

/-! ### Numbers -/

/-- What may stand behind a number. -/
def EndsNumber (rest : Text) : Prop :=
  ∀ c, rest.head? = some c → isDigit c = false ∧ c ≠ '.' ∧ c ≠ 'e' ∧ c ≠ 'E'

theorem isDigit_of_mem_decimal (h : c ∈ decimal n) : isDigit c = true :=
  forall_decimal (p := fun c => isDigit c = true) (by decide) c h

theorem head_decimal_ne_zero (h : 0 < n) : (decimal n).head? ≠ some '0' := by
  have hone : ∀ digit < 10, 0 < digit → digit.digitChar ≠ '0' := by decide
  induction n using Nat.strongRecOn with
  | ind n ih =>
    by_cases hn : n < 10
    · rw [decimal, Nat.toDigits_of_lt_base hn]
      simpa using hone n hn h
    · have hdigits := Nat.toDigits_of_base_le (b := 10) (by decide) (not_lt.mp hn)
      rw [decimal, hdigits, head?_append_of_ne_nil _ Nat.toDigits_ne_nil]
      exact ih (n / 10) (by omega) (by omega)

theorem reads_digits (hrest : EndsNumber rest) :
    Reads parseDigits (decimal n) (decimal n) rest := by
  intro offset
  rcases Nat.eq_zero_or_pos n with rfl | hn
  · refine ⟨offset + 1, ?_⟩
    have hnext : (rest.head?).any isDigit = false := by
      cases rest with
      | nil => rfl
      | cons c rest => exact (hrest c rfl).1
    have hparse : parseDigits ⟨decimal 0 ++ rest, offset⟩ =
        if (rest.head?).any isDigit then (⟨rest, offset + 1⟩ : Parser).error
          "leading zero in number".toList
        else .ok (decimal 0, ⟨rest, offset + 1⟩) := rfl
    rw [hparse, hnext]
    rfl
  · obtain ⟨c, digits, hdigits⟩ := exists_cons_of_ne_nil (Nat.toDigits_ne_nil (b := 10) (n := n))
    have hc : isDigit c = true := isDigit_of_mem_decimal (n := n) (by simp [decimal, hdigits])
    have hzero : c ≠ '0' := by
      have hhead := head_decimal_ne_zero hn
      rw [decimal, hdigits] at hhead
      simpa using hhead
    have hbyte : (⟨decimal n ++ rest, offset⟩ : Parser).byte = some c := by
      simp [Parser.byte, decimal, hdigits]
    have htake : (decimal n ++ rest).takeWhile isDigit = decimal n := by
      rw [takeWhile_append_of_pos fun d hd => isDigit_of_mem_decimal hd]
      cases rest with
      | nil => simp
      | cons c rest => simp [(hrest c rfl).1]
    refine ⟨offset + (decimal n).length, ?_⟩
    rw [parseDigits, hbyte]
    simp only [hc, if_true, htake, Parser.skip, drop_left]

theorem parseI128_decimal (value : I128) :
    parseI128 (decide (value.val < 0)) (decimal value.val.natAbs) = some value := by
  obtain ⟨value, hvalue⟩ := value
  have hsign : (if decide (value < 0) = true then -(value.natAbs : Int) else value.natAbs) =
      value := by
    by_cases h : value < 0
    · rw [decide_eq_true h, if_pos rfl]
      omega
    · rw [decide_eq_false h, if_neg (by decide)]
      omega
  simp only [parseI128, foldl_decimal, hsign]
  rw [dif_pos hvalue]

theorem parseNumber_eq {parser next : Parser} {negative : Bool} {digits : Text} {value : I128}
    (hsign : (parser.byte == some '-') = negative)
    (hdigits : parseDigits (if negative then parser.skip 1 else parser) = .ok (digits, next))
    (hend : EndsNumber next.rest) (hvalue : parseI128 negative digits = some value) :
    parseNumber parser = .ok (value, next) := by
  have hnext : ¬(next.byte = some '.' ∨ next.byte = some 'e' ∨ next.byte = some 'E') := by
    rintro (h | h | h)
    · exact (hend _ h).2.1 rfl
    · exact (hend _ h).2.2.1 rfl
    · exact (hend _ h).2.2.2 rfl
  simp only [parseNumber, hsign, hdigits, ok_bind, if_neg hnext, hvalue]

theorem reads_number {value : I128} (hrest : EndsNumber rest) :
    Reads parseNumber (writeNumber value) value rest := by
  intro offset
  have hvalue := parseI128_decimal value
  by_cases hneg : value.val < 0
  · obtain ⟨offset', hdigits⟩ := reads_digits hrest (offset + 1)
    rw [decide_eq_true hneg] at hvalue
    rw [writeNumber, if_pos hneg]
    exact ⟨offset', parseNumber_eq rfl hdigits hrest hvalue⟩
  · obtain ⟨offset', hdigits⟩ := reads_digits hrest offset
    rw [decide_eq_false hneg] at hvalue
    rw [writeNumber, if_neg hneg]
    refine ⟨offset', parseNumber_eq (beq_eq_false_iff_ne.mpr fun hbyte => ?_) hdigits hrest hvalue⟩
    have hne : decimal value.val.natAbs ≠ [] := Nat.toDigits_ne_nil
    have hhead : (decimal value.val.natAbs ++ rest).head? = some '-' := hbyte
    rw [head?_append_of_ne_nil _ hne] at hhead
    exact absurd (isDigit_of_mem_decimal (mem_of_head? hhead)) (by decide)

/-- A minus sign or a digit. -/
def numberStarts : Text := ['-', '0', '1', '2', '3', '4', '5', '6', '7', '8', '9']

theorem mem_numberStarts (h : isDigit c = true) : c ∈ numberStarts := by
  have hall : ∀ n < 58, 48 ≤ n → Char.ofNat n ∈ numberStarts := by decide
  simp only [isDigit, Bool.and_eq_true, decide_eq_true_eq, Char.le_def, UInt32.le_iff_toNat_le] at h
  rw [← Char.ofNat_toNat c]
  exact hall c.toNat (Nat.lt_succ_of_le h.2) h.1

theorem writeNumber_starts {value : I128} :
    ∃ c rest, writeNumber value = c :: rest ∧ c ∈ numberStarts := by
  by_cases hneg : value.val < 0
  · rw [writeNumber, if_pos hneg]
    exact ⟨_, _, rfl, by decide⟩
  · rw [writeNumber, if_neg hneg]
    obtain ⟨c, digits, hcons⟩ :=
      exists_cons_of_ne_nil (Nat.toDigits_ne_nil (b := 10) (n := value.val.natAbs))
    refine ⟨c, digits, hcons, mem_numberStarts ?_⟩
    exact isDigit_of_mem_decimal (n := value.val.natAbs) (by simp [decimal, hcons])

/-! ### The texts of a value -/

/-- White space. -/
def Blank (text : Text) : Prop := ∀ c ∈ text, isBlank c = true

theorem blank_nil : Blank [] := fun _ h => nomatch h

mutual

/-- The text stands for the value. -/
inductive Renders : Value → Text → Prop
  | null : Renders .null "null".toList
  | bool (value : Bool) : Renders (.bool value) (if value then "true".toList else "false".toList)
  | number (value : I128) : Renders (.number value) (writeNumber value)
  | string (value : Text) : Renders (.string value) (writeString value)
  | emptyArray : Renders (.array []) ['[', ']']
  | array {values : List Value} {before items : Text} (hbefore : Blank before)
    (hitems : RendersItems values items) : Renders (.array values) ('[' :: before ++ items ++ [']'])
  | emptyObject : Renders (.object JsonObject.new) ['{', '}']
  | object {object : JsonObject Value} {before members : Text} (hobject : object.WellFormed)
    (hbefore : Blank before) (hmembers : RendersMembers object.entries members) :
    Renders (.object object) ('{' :: before ++ members ++ ['}'])

/-- The text stands for the elements of an array that is not empty. -/
inductive RendersItems : List Value → Text → Prop
  | last {value : Value} {text after : Text} (hvalue : Renders value text) (hafter : Blank after) :
    RendersItems [value] (text ++ after)
  | cons {value : Value} {values : List Value} {text after before items : Text}
    (hvalue : Renders value text) (hafter : Blank after) (hbefore : Blank before)
    (hitems : RendersItems values items) :
    RendersItems (value :: values) (text ++ after ++ ',' :: before ++ items)

/-- The text stands for the members of an object that is not empty. -/
inductive RendersMembers : List (Text × Value) → Text → Prop
  | last (key : Text) {value : Value} {behind front text after : Text} (hbehind : Blank behind)
    (hfront : Blank front) (hvalue : Renders value text) (hafter : Blank after) :
    RendersMembers [(key, value)] (writeString key ++ behind ++ ':' :: front ++ text ++ after)
  | cons (key : Text) {value : Value} {entries : List (Text × Value)}
    {behind front text after before members : Text} (hbehind : Blank behind) (hfront : Blank front)
    (hvalue : Renders value text) (hafter : Blank after) (hbefore : Blank before)
    (hmembers : RendersMembers entries members) :
    RendersMembers ((key, value) :: entries)
      (writeString key ++ behind ++ ':' :: front ++ text ++ after ++ ',' :: before ++ members)

end

/-- A text that does not start with white space. -/
def Solid (text : Text) : Prop := ∀ c, text.head? = some c → isBlank c = false

theorem skipWhitespace_blank {blank : Text} (hblank : Blank blank) (hrest : Solid rest)
    (offset : Nat) :
    (⟨blank ++ rest, offset⟩ : Parser).skipWhitespace = ⟨rest, offset + blank.length⟩ := by
  have htake : (blank ++ rest).takeWhile isBlank = blank := by
    rw [takeWhile_append_of_pos hblank]
    cases rest with
    | nil => simp
    | cons c rest => simp [hrest c rfl]
  simp only [Parser.skipWhitespace, Parser.skip, htake, drop_left]

theorem solid_cons (h : isBlank c = false) : Solid (c :: rest) := by
  intro d hd
  rw [← Option.some.inj hd]
  exact h

/-- A value starts neither with a blank nor with the end of an array. -/
theorem Renders.starts (h : Renders value text) :
    ∃ c rest, text = c :: rest ∧ isBlank c = false ∧ c ≠ ']' := by
  cases h with
  | null | string | emptyArray | array | emptyObject | object => exact ⟨_, _, rfl, by decide⟩
  | bool value => cases value <;> exact ⟨_, _, rfl, by decide⟩
  | number value =>
    have hall : ∀ c ∈ numberStarts, isBlank c = false ∧ c ≠ ']' := by decide
    obtain ⟨c, rest, htext, hc⟩ := writeNumber_starts
    exact ⟨c, rest, htext, hall c hc⟩

/-! ### Values -/

theorem parseValue_number (hc : c ∈ numberStarts) (depth : Nat) (rest : Text) (offset : Nat) :
    parseValue (depth + 1) ⟨c :: rest, offset⟩ =
      parseNumber ⟨c :: rest, offset⟩ >>= fun read => .ok (.number read.1, read.2) := by
  simp only [numberStarts, mem_cons, not_mem_nil, or_false] at hc
  rcases hc with rfl | rfl | rfl | rfl | rfl | rfl | rfl | rfl | rfl | rfl | rfl <;> rfl

theorem Reads.blank {depth : Nat} {blank : Text}
    (h : Reads (parseValue (depth + 1)) text value rest) (hblank : Blank blank)
    (hsolid : Solid (text ++ rest)) :
    Reads (parseValue (depth + 1)) (blank ++ text) value rest := by
  intro offset
  obtain ⟨offset', hread⟩ := h (offset + blank.length)
  refine ⟨offset', Eq.trans ?_ hread⟩
  have hskip := skipWhitespace_blank blank_nil hsolid (offset + blank.length)
  rw [nil_append] at hskip
  rw [append_assoc, parseValue, parseValue, skipWhitespace_blank hblank hsolid, hskip]
  rfl

theorem Renders.solid (h : Renders value text) {rest : Text} : Solid (text ++ rest) := by
  obtain ⟨c, tail, rfl, hc, -⟩ := h.starts
  exact solid_cons hc

theorem Renders.length_pos (h : Renders value text) : 0 < text.length := by
  obtain ⟨c, rest, rfl, -⟩ := h.starts
  exact Nat.succ_pos _

theorem RendersItems.starts {values : List Value} {items : Text} (h : RendersItems values items) :
    ∃ c rest, items = c :: rest ∧ isBlank c = false ∧ c ≠ ']' := by
  cases h with
  | last hvalue | cons hvalue =>
    obtain ⟨c, rest, rfl, hc⟩ := hvalue.starts
    exact ⟨c, _, rfl, hc⟩

theorem RendersMembers.starts {entries : List (Text × Value)} {members : Text}
    (h : RendersMembers entries members) : ∃ rest, members = '"' :: rest := by
  cases h <;> exact ⟨_, rfl⟩

theorem parseValue_array {before text : Text} {c : Char} (hbefore : Blank before)
    (hc : isBlank c = false) (hclose : c ≠ ']') {depth offset : Nat} :
    parseValue (depth + 1) ⟨'[' :: (before ++ c :: text), offset⟩ =
      loop .outOfFuel (arrayRound (parseValue depth)) ((c :: text).length + 1)
        (⟨c :: text, offset + 1 + before.length⟩, []) := by
  have hvalue : parseValue (depth + 1) ⟨'[' :: (before ++ c :: text), offset⟩ =
      parseArray (parseValue depth) ⟨'[' :: (before ++ c :: text), offset⟩ := rfl
  have hskip : ((⟨'[' :: (before ++ c :: text), offset⟩ : Parser).skip 1).skipWhitespace =
      ⟨c :: text, offset + 1 + before.length⟩ := skipWhitespace_blank hbefore (solid_cons hc) _
  have hbyte : (⟨c :: text, offset + 1 + before.length⟩ : Parser).byte ≠ some ']' :=
    fun h => hclose (Option.some.inj h)
  rw [hvalue, parseArray]
  simp only [hskip, if_neg hbyte]

theorem parseValue_object {before text : Text} (hbefore : Blank before) {depth offset : Nat} :
    parseValue (depth + 1) ⟨'{' :: (before ++ '"' :: text), offset⟩ =
      loop .outOfFuel (objectRound (parseValue depth)) (('"' :: text).length + 1)
        (⟨'"' :: text, offset + 1 + before.length⟩, JsonObject.new) := by
  have hvalue : parseValue (depth + 1) ⟨'{' :: (before ++ '"' :: text), offset⟩ =
      parseObject (parseValue depth) ⟨'{' :: (before ++ '"' :: text), offset⟩ := rfl
  have hskip : ((⟨'{' :: (before ++ '"' :: text), offset⟩ : Parser).skip 1).skipWhitespace =
      ⟨'"' :: text, offset + 1 + before.length⟩ :=
    skipWhitespace_blank hbefore (solid_cons (by decide)) _
  have hbyte : (⟨'"' :: text, offset + 1 + before.length⟩ : Parser).byte ≠ some '}' := by
    simp [Parser.byte]
  rw [hvalue, parseObject]
  simp only [hskip, if_neg hbyte]

theorem endsNumber_delimiter {blank : Text} (hblank : Blank blank) (hc : c ∈ [',', ']', '}'])
    (rest : Text) : EndsNumber (blank ++ c :: rest) := by
  have hall : ∀ d ∈ [',', ']', '}'], isDigit d = false ∧ d ≠ '.' ∧ d ≠ 'e' ∧ d ≠ 'E' := by decide
  intro d hd
  cases blank with
  | nil =>
    rw [← Option.some.inj hd]
    exact (hall c hc)
  | cons b blank =>
    have hb : isBlank b = true := hblank b (by simp)
    rw [← Option.some.inj hd]
    simp only [isBlank, Bool.or_eq_true, beq_iff_eq] at hb
    rcases hb with ((rfl | rfl) | rfl) | rfl <;> decide

/-! ### One round of the loops -/

theorem solid_delimiter (hc : c ∈ [',', ']', '}']) : Solid (c :: rest) :=
  solid_cons ((by decide : ∀ d ∈ [',', ']', '}'], isBlank d = false) c hc)

section
variable {before behind front after : Text} {depth offset : Nat} (hvalue : Renders value text)
  (hread : ∀ {rest : Text}, EndsNumber rest → Reads (parseValue (depth + 1)) text value rest)
  (hfront : Blank front) (hafter : Blank after) (hc : c ∈ [',', ']', '}'])
include hvalue hread hfront hafter hc

theorem arrayRound_eq {done : List Value} :
    ∃ offset', arrayRound (parseValue (depth + 1))
        (⟨front ++ text ++ after ++ c :: rest, offset⟩, done) =
      match some c with
      | some ',' => .ok (.again (⟨rest, offset' + 1⟩, done ++ [value]))
      | some ']' => .ok (.done (.array (done ++ [value]), ⟨rest, offset' + 1⟩))
      | _ => (⟨c :: rest, offset'⟩ : Parser).error "expected ',' or ']'".toList := by
  obtain ⟨next, hread⟩ :=
    (hread (endsNumber_delimiter hafter hc rest)).blank hfront hvalue.solid offset
  refine ⟨next + after.length, ?_⟩
  rw [List.append_assoc, arrayRound]
  simp only [hread, ok_bind, skipWhitespace_blank hafter (solid_delimiter hc)]
  rfl

theorem objectRound_eq {key : Text} (hbefore : Blank before) (hbehind : Blank behind)
    {object object' : JsonObject Value} (hinsert : object.insert key value = (none, object')) :
    ∃ offset', objectRound (parseValue (depth + 1))
        (⟨before ++ writeString key ++ behind ++ ':' :: front ++ text ++ after ++
          c :: rest, offset⟩, object) =
      match some c with
      | some ',' => .ok (.again (⟨rest, offset' + 1⟩, object'))
      | some '}' => .ok (.done (.object object', ⟨rest, offset' + 1⟩))
      | _ => (⟨c :: rest, offset'⟩ : Parser).error "expected ',' or '\x7d'".toList := by
  obtain ⟨colon, hkey⟩ :=
    reads_string key (behind ++ ':' :: (front ++ text ++ (after ++ c :: rest)))
    (offset + before.length)
  obtain ⟨next, hread⟩ := (hread (endsNumber_delimiter hafter hc rest)).blank hfront hvalue.solid
    (colon + behind.length + 1)
  refine ⟨next + after.length, ?_⟩
  generalize htail : front ++ text ++ (after ++ c :: rest) = tail at hkey hread
  have htext : before ++ writeString key ++ behind ++ ':' :: front ++ text ++ after ++ c :: rest =
      before ++ (writeString key ++ (behind ++ ':' :: tail)) := by simp [← htail]
  have hquote : Solid (writeString key ++ (behind ++ ':' :: tail)) := solid_cons (by decide)
  have hcolon : ((⟨':' :: tail, colon + behind.length⟩ : Parser).byte ≠ some ':') = False := by
    simp [Parser.byte]
  have hskip : (⟨':' :: tail, colon + behind.length⟩ : Parser).skip 1 =
      ⟨tail, colon + behind.length + 1⟩ := rfl
  rw [htext, objectRound]
  simp only [skipWhitespace_blank hbefore hquote, hkey, ok_bind,
    skipWhitespace_blank hbehind (solid_cons (show isBlank ':' = false by decide)),
    hcolon, if_false, hskip, hread, hinsert, Option.isSome_none, Bool.false_eq_true,
    skipWhitespace_blank hafter (solid_delimiter hc)]
  rfl

end

mutual

/-- **The parser reads every text of a value**, if arrays and objects may be as deep in each other
as the text is long. -/
theorem reads_value : ∀ {value : Value} {text : Text}, Renders value text →
    ∀ {depth : Nat} {rest : Text}, text.length ≤ depth + 1 → EndsNumber rest →
      Reads (parseValue (depth + 1)) text value rest
  | _, _, .null, depth, rest, _, _, offset => ⟨offset + 4, rfl⟩
  | _, _, .bool true, depth, rest, _, _, offset => ⟨offset + 4, rfl⟩
  | _, _, .bool false, depth, rest, _, _, offset => ⟨offset + 5, rfl⟩
  | _, _, .number value, depth, rest, _, hrest, offset => by
    obtain ⟨offset', hread⟩ := reads_number hrest offset
    obtain ⟨c, tail, htext, hc⟩ := writeNumber_starts
    refine ⟨offset', ?_⟩
    rw [htext, cons_append] at hread ⊢
    rw [parseValue_number hc, hread, ok_bind]
  | _, _, .string value, depth, rest, _, _, offset => by
    obtain ⟨offset', hread⟩ := reads_string value rest offset
    have hvalue : parseValue (depth + 1) ⟨writeString value ++ rest, offset⟩ =
        parseString ⟨writeString value ++ rest, offset⟩ >>= fun read =>
          .ok (.string read.1, read.2) := rfl
    exact ⟨offset', by rw [hvalue, hread, ok_bind]⟩
  | _, _, .emptyArray, depth, rest, _, _, offset => ⟨offset + 2, rfl⟩
  | _, _, @Renders.array values before items hbefore hitems, depth, rest, hdepth, _, offset => by
    obtain ⟨c, tail, rfl, hc, hclose⟩ := hitems.starts
    simp only [length_append, length_cons, length_nil] at hdepth
    obtain ⟨depth, rfl⟩ := Nat.exists_eq_add_one.mpr (by omega : 0 < depth)
    obtain ⟨offset', hloop⟩ := reads_items hitems (by rw [length_cons]; omega : _ ≤ depth + 1)
      (by rw [length_append]; omega : _ ≤ (c :: tail ++ ']' :: rest).length + 1) blank_nil rest []
      (offset + 1 + before.length)
    refine ⟨offset', Eq.trans ?_ hloop⟩
    refine Eq.trans ?_ (parseValue_array hbefore hc hclose)
    simp
  | _, _, .emptyObject, depth, rest, _, _, offset => ⟨offset + 2, rfl⟩
  | _, _, @Renders.object object before members hobject hbefore hmembers, depth, rest, hdepth, _,
      offset => by
    obtain ⟨tail, rfl⟩ := hmembers.starts
    simp only [length_append, length_cons, length_nil] at hdepth
    obtain ⟨depth, rfl⟩ := Nat.exists_eq_add_one.mpr (by omega : 0 < depth)
    obtain ⟨offset', hloop⟩ := reads_members hmembers (by rw [length_cons]; omega : _ ≤ depth + 1)
      (by rw [length_append]; omega : _ ≤ ('"' :: tail ++ '}' :: rest).length + 1) blank_nil rest
      [] (JsonObject.wellFormed_iff.mp hobject).nodup (offset + 1 + before.length)
    refine ⟨offset', Eq.trans ?_ (hloop.trans ?_)⟩
    · refine Eq.trans ?_ (parseValue_object hbefore)
      simp
    · rw [nil_append, hobject]

theorem reads_items : ∀ {values : List Value} {items : Text}, RendersItems values items →
    ∀ {depth rounds : Nat} {blank : Text}, items.length ≤ depth + 1 → items.length ≤ rounds + 1 →
      Blank blank → ∀ (rest : Text) (done : List Value) (offset : Nat), ∃ offset',
        loop .outOfFuel (arrayRound (parseValue (depth + 1))) (rounds + 1)
          (⟨blank ++ items ++ ']' :: rest, offset⟩, done) =
            .ok (.array (done ++ values), ⟨rest, offset'⟩)
  | _, _, @RendersItems.last value text after hvalue hafter, depth, rounds, blank,
      hdepth, _, hblank, rest, done, offset => by
    rw [List.length_append] at hdepth
    obtain ⟨next, hround⟩ :=
      arrayRound_eq hvalue (reads_value hvalue (by omega : _ ≤ depth + 1)) hblank
      hafter (c := ']') (by decide)
    refine ⟨next + 1, ?_⟩
    rw [← append_assoc, loop, hround]
    rfl
  | _, _, @RendersItems.cons value values text after before items hvalue hafter hbefore hitems,
      depth, rounds, blank, hdepth, hrounds, hblank, rest, done, offset => by
    simp only [length_append, length_cons] at hdepth hrounds
    have hpos := hvalue.length_pos
    obtain ⟨rounds, rfl⟩ := Nat.exists_eq_add_one.mpr (by omega : 0 < rounds)
    obtain ⟨next, hround⟩ :=
      arrayRound_eq hvalue (reads_value hvalue (by omega : _ ≤ depth + 1)) hblank
      hafter (c := ',') (by decide)
    obtain ⟨offset', hloop⟩ := reads_items hitems (by omega : _ ≤ depth + 1)
      (by omega : _ ≤ rounds + 1) hbefore rest (done ++ [value]) (next + 1)
    refine ⟨offset', ?_⟩
    have htext : blank ++ (text ++ after ++ ',' :: before ++ items) ++ ']' :: rest =
        blank ++ text ++ after ++ ',' :: (before ++ items ++ ']' :: rest) := by simp
    rw [htext, loop, hround]
    refine hloop.trans ?_
    simp

theorem reads_members : ∀ {entries : List (Text × Value)} {members : Text},
    RendersMembers entries members → ∀ {depth rounds : Nat} {blank : Text},
      members.length ≤ depth + 1 → members.length ≤ rounds + 1 → Blank blank →
      ∀ (rest : Text) (done : List (Text × Value)), ((done ++ entries).map Prod.fst).Nodup →
      ∀ offset : Nat,
        ∃ offset', loop .outOfFuel (objectRound (parseValue (depth + 1))) (rounds + 1)
          (⟨blank ++ members ++ '}' :: rest, offset⟩, JsonObject.fromIter done) =
            .ok (.object (JsonObject.fromIter (done ++ entries)), ⟨rest, offset'⟩)
  | _, _, @RendersMembers.last key value behind front text after hbehind hfront hvalue hafter,
      depth, rounds, blank, hdepth, _, hblank, rest, done, hnodup, offset => by
    simp only [List.length_append, List.length_cons] at hdepth
    obtain ⟨next, hround⟩ :=
      objectRound_eq hvalue (reads_value hvalue (by omega : _ ≤ depth + 1)) hfront
      hafter (c := '}') (by decide) hblank hbehind (JsonObject.insert_fromIter hnodup)
    have htext :
        blank ++ (writeString key ++ behind ++ ':' :: front ++ text ++ after) ++ '}' :: rest =
        blank ++ writeString key ++ behind ++ ':' :: front ++ text ++ after ++
          '}' :: rest := by simp
    refine ⟨next + 1, ?_⟩
    rw [htext, loop, hround]
    rfl
  | _, _, @RendersMembers.cons key value entries behind front text after before members
      hbehind hfront hvalue hafter hbefore hmembers, depth, rounds, blank, hdepth, hrounds, hblank,
      rest, done, hnodup, offset => by
    simp only [length_append, length_cons] at hdepth hrounds
    have hdone : ((done ++ [(key, value)] ++ entries).map Prod.fst).Nodup := by simpa using hnodup
    have hkey : ((done ++ [(key, value)]).map Prod.fst).Nodup := by
      rw [map_append] at hdone
      exact (nodup_append.mp hdone).1
    have hpos := hvalue.length_pos
    obtain ⟨rounds, rfl⟩ := Nat.exists_eq_add_one.mpr (by omega : 0 < rounds)
    obtain ⟨next, hround⟩ :=
      objectRound_eq hvalue (reads_value hvalue (by omega : _ ≤ depth + 1)) hfront
      hafter (c := ',') (by decide) hblank hbehind (JsonObject.insert_fromIter hkey)
    obtain ⟨offset', hloop⟩ := reads_members hmembers (by omega : _ ≤ depth + 1)
      (by omega : _ ≤ rounds + 1) hbefore rest (done ++ [(key, value)]) hdone (next + 1)
    have htext :
        blank ++ (writeString key ++ behind ++ ':' :: front ++ text ++ after ++ ',' :: before ++
        members) ++ '}' :: rest = blank ++ writeString key ++ behind ++ ':' :: front ++
          text ++ after ++
          ',' :: (before ++ members ++ '}' :: rest) := by simp
    refine ⟨offset', ?_⟩
    rw [htext, loop, hround]
    refine hloop.trans ?_
    simp

end

/-! ### The writers -/

mutual

theorem renders_writeJson : ∀ value : Value, WellFormed value → Renders value (writeJson value)
  | .null, _ | .bool _, _ | .number _, _ | .string _, _ => by
    simp only [writeJson]
    constructor
  | .array [], _ => by
    simp only [writeJson, writeItems]
    exact .emptyArray
  | .array (value :: values), h => by
    simp only [writeJson]
    exact .array blank_nil (rendersItems_writeItems (value :: values) (by simp) h)
  | .object object, h => by
    simp only [writeJson]
    exact renders_writeMembers object h

theorem renders_writeMembers : ∀ object : JsonObject Value, ObjectWellFormed object →
    Renders (.object object) ('{' :: writeMembers object ++ ['}'])
  | ⟨[], indices⟩, h => by
    simp only [writeMembers, writeEntries]
    rw [← h.1]
    exact .emptyObject
  | ⟨entry :: entries, indices⟩, h => by
    simp only [writeMembers]
    exact .object h.1 blank_nil (rendersMembers_writeEntries (entry :: entries) (by simp) h.2)

theorem rendersItems_writeItems : ∀ values : List Value, values ≠ [] → AllWellFormed values →
    RendersItems values (writeItems values)
  | [], hne, _ => absurd rfl hne
  | [value], _, h => by
    simpa [writeItems] using RendersItems.last (renders_writeJson value h.1) blank_nil
  | value :: next :: values, _, h => by
    have hrest := rendersItems_writeItems (next :: values) (by simp) h.2
    simpa [writeItems] using RendersItems.cons (renders_writeJson value h.1) blank_nil
      blank_nil hrest

theorem rendersMembers_writeEntries : ∀ entries : List (Text × Value), entries ≠ [] →
    MembersWellFormed entries → RendersMembers entries (writeEntries entries)
  | [], hne, _ => absurd rfl hne
  | [(key, value)], _, h => by
    simpa [writeEntries] using
      RendersMembers.last key blank_nil blank_nil (renders_writeJson value h.1) blank_nil
  | (key, value) :: next :: entries, _, h => by
    have hrest := rendersMembers_writeEntries (next :: entries) (by simp) h.2
    simpa [writeEntries] using RendersMembers.cons key blank_nil blank_nil
      (renders_writeJson value h.1) blank_nil blank_nil hrest

end

theorem blank_line (depth : Nat) : Blank ('\n' :: tabs depth) := by
  intro c hc
  rcases mem_cons.mp hc with rfl | hc
  · decide
  · rw [eq_of_mem_replicate hc]
    decide

theorem blank_space : Blank [' '] := by
  intro c hc
  rw [mem_singleton.mp hc]
  decide

mutual

theorem renders_writeJsonPretty : ∀ (value : Value) (depth : Nat), WellFormed value →
    Renders value (writeJsonPretty depth value)
  | .null, _, h | .bool _, _, h | .number _, _, h | .string _, _, h | .array [], _, h => by
    simpa only [writeJsonPretty] using renders_writeJson _ h
  | .array (value :: values), depth, h => by
    obtain ⟨items, htext, hitems⟩ :=
      rendersItems_writeItemsPretty (value :: values) (depth + 1) depth (by simp) h
    have hrenders := Renders.array (blank_line (depth + 1)) hitems
    simp only [writeJsonPretty]
    rw [append_assoc "[\n".toList, htext]
    simpa using hrenders
  | .object object, depth, h => by
    simp only [writeJsonPretty]
    exact renders_writeMembersPretty object depth h

theorem renders_writeMembersPretty : ∀ (object : JsonObject Value) (depth : Nat),
    ObjectWellFormed object → Renders (.object object) (writeMembersPretty depth object)
  | ⟨[], indices⟩, depth, h => by
    simp only [writeMembersPretty]
    rw [← h.1]
    exact .emptyObject
  | ⟨entry :: entries, indices⟩, depth, h => by
    obtain ⟨members, htext, hmembers⟩ :=
      rendersMembers_writeEntriesPretty (entry :: entries) (depth + 1) depth (by simp) h.2
    have hrenders := Renders.object h.1 (blank_line (depth + 1)) hmembers
    simp only [writeMembersPretty]
    rw [append_assoc "\x7b\n".toList, htext]
    simpa using hrenders

/-- The elements and the tabs in front of the end, without the tabs in front of the first
element. -/
theorem rendersItems_writeItemsPretty : ∀ (values : List Value) (depth outer : Nat), values ≠ [] →
    AllWellFormed values → ∃ items,
      writeItemsPretty depth values ++ tabs outer = tabs depth ++ items ∧ RendersItems values items
  | [], _, _, hne, _ => absurd rfl hne
  | [value], depth, outer, _, h => by
    refine ⟨_, ?_, .last (renders_writeJsonPretty value depth h.1) (blank_line outer)⟩
    simp [writeItemsPretty]
  | value :: next :: values, depth, outer, _, h => by
    obtain ⟨items, htext, hitems⟩ :=
      rendersItems_writeItemsPretty (next :: values) depth outer (by simp) h.2
    refine ⟨_, ?_, .cons (renders_writeJsonPretty value depth h.1) blank_nil
      (blank_line depth) hitems⟩
    simp only [writeItemsPretty]
    rw [append_assoc, htext]
    simp

/-- The members and the tabs in front of the end, without the tabs in front of the first member. -/
theorem rendersMembers_writeEntriesPretty : ∀ (entries : List (Text × Value)) (depth outer : Nat),
    entries ≠ [] → MembersWellFormed entries → ∃ members,
      writeEntriesPretty depth entries ++ tabs outer = tabs depth ++ members ∧
        RendersMembers entries members
  | [], _, _, hne, _ => absurd rfl hne
  | [(key, value)], depth, outer, _, h => by
    refine ⟨_, ?_, .last key blank_space blank_space (renders_writeJsonPretty value depth h.1)
      (blank_line outer)⟩
    simp [writeEntriesPretty]
  | (key, value) :: next :: entries, depth, outer, _, h => by
    obtain ⟨members, htext, hmembers⟩ :=
      rendersMembers_writeEntriesPretty (next :: entries) depth outer (by simp) h.2
    refine ⟨_, ?_, .cons key blank_space blank_space (renders_writeJsonPretty value depth h.1)
      blank_nil (blank_line depth) hmembers⟩
    simp only [writeEntriesPretty]
    rw [append_assoc, htext]
    simp

end

/-! ### The round trip -/

theorem parse_of_renders {value : Value} {text : Text} (h : Renders value text) :
    parse text = .ok value := by
  have hend : EndsNumber [] := fun c hc => nomatch hc
  obtain ⟨offset, hread⟩ := reads_value h (Nat.le_succ text.length) hend 0
  rw [append_nil] at hread
  rw [parse, hread, ok_bind]
  rfl

/-- **What the writers write, the parser reads back.** Every value that can be made, whatever its
depth, numbers and texts, is what both of its texts are parsed as, with the members of its objects
in their order, and the comparison of the source calls it equal to itself. -/
theorem parse_written (value : Value) (h : WellFormed value) :
    parse value.toJson = .ok value ∧ parse value.toJsonPretty = .ok value ∧
      valueEq value value = true :=
  ⟨parse_of_renders (renders_writeJson value h),
    parse_of_renders (renders_writeJsonPretty value 0 h), valueEq_self value h⟩

def sampleValue : Value :=
  .object (.fromIter [("name".toList, .string "resolver\nnode \u0001".toList),
    ("numbers".toList, .array [.number ⟨-1, by decide⟩, .number ⟨0, by decide⟩, .array []]),
    ([], .object .new), ("enabled".toList, .bool true), ("peer".toList, .null)])

theorem parse_written_sample : WellFormed sampleValue ∧ parse sampleValue.toJson = .ok sampleValue ∧
    parse sampleValue.toJsonPretty = .ok sampleValue ∧ valueEq sampleValue sampleValue = true := by
  have h : WellFormed sampleValue := by
    simp only [sampleValue, WellFormed]
    refine objectWellFormed_fromIter ?_
    simp [WellFormed, AllWellFormed, objectWellFormed_new]
  exact ⟨h, parse_written sampleValue h⟩

end RustdResolved.Json.RoundTrip
