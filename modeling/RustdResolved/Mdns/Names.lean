import RustdResolved.Wire.WrittenName

/-! # Names of multicast messages

`canonicalWireName` of `mdns_full.rs` checks a name and puts it into lower case; `decodeName` of
`mdns_responder.rs` reads one from a packet, compressed or not, and gives its canonical form. -/

namespace RustdResolved.Mdns.Names

open List Lib Loop Result Wire Octets Name WrittenName

variable {output packet rest : Bytes}

/-! ### Canonical names -/

/-- What `canonicalWireName` reports, and the mark of the model for a loop out of rounds. -/
inductive MdnsNameError
  | empty
  | compressed
  | invalidLabel
  | tooLong
  | trailingData
  | outOfFuel
  deriving DecidableEq, Repr

/-- A round of `canonicalWireName`: the input that is left and the output so far. -/
def canonicalRound (state : Bytes × Bytes) :
    Except MdnsNameError (LoopFlow Bytes (Bytes × Bytes)) :=
  match state.1 with
  | [] => .error .invalidLabel
  | length :: rest =>
    if length &&& 0xc0 ≠ 0 then .error .compressed
    else if length = 0 then
      if rest = [] then .ok (.done (state.2 ++ [length])) else .error .trailingData
    else if 63 < length then .error .invalidLabel
    else if rest.length < length.toNat then .error .invalidLabel
    else
      let output := state.2 ++ length :: lowercase (rest.take length.toNat)
      if 255 ≤ output.length then .error .tooLong
      else .ok (.again (rest.drop length.toNat, output))

def canonicalWireName (input : Bytes) : Except MdnsNameError Bytes :=
  if input = [] then .error .empty
  else do
    let output ← loop .outOfFuel canonicalRound (input.length + 1) (input, [])
    if 255 < output.length then .error .tooLong else .ok output

/-! ### Names in a packet -/

/-- The errors of the multicast code that matter here are of the kind `InvalidData`. -/
inductive IoError
  | invalidData (message : Text)
  | writeZero (message : Text)
  | os (code : Int)
  deriving DecidableEq, Repr

/-- The variables of `decodeName`. -/
structure NameCursor where
  output : Bytes
  cursor : Nat
  next : Option Nat
  visited : List Nat

/-- A round of `decodeName`: a pointer, a label or the end. -/
def decodeRound (packet : Bytes) (state : NameCursor) :
    Except IoError (LoopFlow (Bytes × Nat) NameCursor) :=
  match packet[state.cursor]? with
  | none => .error (.invalidData "truncated mDNS name".toList)
  | some length =>
    if length &&& 0xc0 = 0xc0 then
      match packet[state.cursor + 1]? with
      | none => .error (.invalidData "truncated mDNS pointer".toList)
      | some second =>
        let target := (length &&& 0x3f).toNat * 256 + second.toNat
        if packet.length ≤ target ∨ target ∈ state.visited then
          .error (.invalidData "invalid mDNS pointer".toList)
        else
          .ok (.again ⟨state.output, target, state.next.or (some (state.cursor + 2)),
            target :: state.visited⟩)
    else if length &&& 0xc0 ≠ 0 ∨ 63 < length then .error (.invalidData "invalid mDNS label".toList)
    else if length = 0 then
      match canonicalWireName (state.output ++ [length]) with
      | .ok output => .ok (.done (output, state.next.getD (state.cursor + 1)))
      | .error _ => .error (.invalidData "invalid canonical mDNS name".toList)
    else
      match getRange packet (state.cursor + 1) (state.cursor + 1 + length.toNat) with
      | none => .error (.invalidData "truncated mDNS label".toList)
      | some label =>
        .ok (.again { state with
          output := state.output ++ length :: lowercase label
          cursor := state.cursor + 1 + length.toNat })

/-- The name at an offset and the offset behind it. The source has 128 rounds at most. -/
def decodeName (packet : Bytes) (start : Nat) : Except IoError (Bytes × Nat) :=
  loop (.invalidData "mDNS compression loop".toList) (decodeRound packet) 128 ⟨[], start, none, []⟩

/-! ### What canonical names are -/

variable (labels : List Bytes)

def wireLabels : Bytes :=
  labels.flatMap fun label => UInt8.ofNat label.length :: label

theorem wireName_eq : wireName labels = wireLabels labels ++ [0] := rfl

theorem wireLabels_concat (label : Bytes) :
    wireLabels (labels ++ [label]) = wireLabels labels ++ UInt8.ofNat label.length :: label := by
  simp [wireLabels]

theorem length_wireLabels : (wireLabels labels).length + 1 = wireLength labels := by
  induction labels with
  | nil => rfl
  | cons label labels ih =>
    rw [wireLength_cons, ← ih]
    simp only [wireLabels, flatMap_cons, length_append, length_cons]
    omega

theorem canonicalRound_label {label : Bytes} (hsome : label ≠ []) (hshort : label.length ≤ 63)
    (rest : Bytes) (hfits : output.length + label.length + 1 < 255) :
    canonicalRound (UInt8.ofNat label.length :: label ++ rest, output) =
      .ok (.again (rest, output ++ UInt8.ofNat label.length :: lowercase label)) := by
  obtain ⟨hlength, hzero, hle⟩ := lengthOctet hsome hshort
  have hplain := short_not_pointer hle
  have hnext : ¬255 ≤ output.length + (UInt8.ofNat label.length :: lowercase label).length := by
    rw [length_cons, length_lowercase]
    omega
  simp only [canonicalRound, cons_append, hplain, ne_eq, not_true_eq_false, if_false, if_neg hzero,
    if_neg (not_lt.mpr hle), hlength, length_append, Nat.not_lt.mpr (Nat.le_add_right _ _),
    take_left', drop_left', if_neg hnext]

theorem canonicalRound_ok {flow : LoopFlow Bytes (Bytes × Bytes)}
    (h : canonicalRound (rest, output) = .ok flow) :
    (rest = [0] ∧ flow = .done (output ++ [0])) ∨
      ∃ label more, label ≠ [] ∧ label.length ≤ 63 ∧
      rest = UInt8.ofNat label.length :: label ++ more ∧
        output.length + label.length + 1 < 255 ∧
        flow = .again (more, output ++ UInt8.ofNat label.length :: lowercase label) := by
  cases rest with
  | nil => cases h
  | cons length rest =>
    simp only [canonicalRound] at h
    split_ifs at h with hpointer hzero hroot hlong hshort hfits
    · subst hzero hroot
      exact Or.inl ⟨rfl, (Except.ok.inj h).symm⟩
    · have hlength : (rest.take length.toNat).length = length.toNat := by
        rw [length_take]
        omega
      have hoctet : UInt8.ofNat (rest.take length.toNat).length = length := by
        rw [hlength, UInt8.ofNat_toNat]
      have hle := UInt8.le_iff_toNat_le.mp (not_lt.mp hlong)
      refine Or.inr ⟨rest.take length.toNat, rest.drop length.toNat, ?_, ?_, ?_, ?_, ?_⟩
      · intro hnil
        rw [hnil] at hoctet
        exact hzero hoctet.symm
      · rw [hlength]
        exact hle
      · rw [hoctet, cons_append, take_append_drop]
      · simp only [length_append, length_cons, length_lowercase] at hfits
        omega
      · rw [hoctet]
        exact (Except.ok.inj h).symm

theorem loop_canonicalRound : ∀ {labels r : List Bytes} {rounds : Nat}, ValidLabels (r ++ labels) →
    labels.length < rounds → loop .outOfFuel canonicalRound rounds
      (wireName labels, wireLabels (r.map lowercase)) =
        .ok (wireName ((r ++ labels).map lowercase))
  | [], read, rounds + 1, _, _ => by
    rw [List.append_nil]
    rfl
  | label :: labels, read, rounds + 1, hvalid, hrounds => by
    have hread : ValidLabels (read ++ [label] ++ labels) := by simpa using hvalid
    have hlength : (wireLabels (read.map lowercase)).length + label.length + 1 < 255 := by
      have h1 := length_wireLabels (read.map lowercase)
      have h2 := wireLength_append read (label :: labels)
      have h3 := hvalid.fits
      rw [wireLength_map_lowercase] at h1
      rw [wireLength_cons] at h2
      have h4 : 1 ≤ wireLength labels := Nat.le_add_right 1 _
      omega
    have hround :=
      canonicalRound_label (hvalid.nonempty label (by simp)) (hvalid.short label (by simp))
      (wireName labels) hlength
    have hloop := loop_canonicalRound hread (Nat.lt_of_succ_lt_succ hrounds)
    rw [wireName_cons, loop, ← cons_append, hround, ok_bind]
    simpa [wireLabels_concat] using hloop

variable {state : NameCursor}

/-- **What a canonical name is**: a name in lower case, from the same name in any case. -/
theorem canonicalWireName_eq_ok {input : Bytes} :
    canonicalWireName input = .ok output ↔
      ∃ labels, ValidLabels labels ∧ input = wireName labels ∧
        output = wireName (labels.map lowercase) := by
  constructor
  · intro h
    unfold canonicalWireName at h
    split_ifs at h with hempty
    obtain ⟨result, hloop, h⟩ := of_bind h
    split_ifs at h with hlong
    cases h
    -- what is read is in the output, and what is left is behind it in the input
    refine loop_ok (fun state => ∃ read : List Bytes, (∀ label ∈ read, label ≠ []) ∧
      (∀ label ∈ read, label.length ≤ 63) ∧ (wireLabels read).length < 255 ∧
      input = wireLabels read ++ state.1 ∧ state.2 = wireLabels (read.map lowercase))
      (fun result => ∃ labels, ValidLabels labels ∧ input = wireName labels ∧
        result = wireName (labels.map lowercase)) ?_ ?_ ⟨[], by simp, by simp, by decide, rfl, rfl⟩
          hloop
    · rintro ⟨rest, out⟩ next ⟨read, hsome, hshort, hfits, rfl, rfl⟩ hround
      rcases canonicalRound_ok hround with ⟨-, hflow⟩ |
        ⟨label, more, hlabel, hle, rfl, hlength, hflow⟩
      · cases hflow
      · cases hflow
        have hread := length_wireLabels read
        have hlower := length_wireLabels (read.map lowercase)
        rw [wireLength_map_lowercase] at hlower
        refine ⟨read ++ [label], ?_, ?_, ?_, ?_, ?_⟩
        · simpa [or_imp, forall_and] using ⟨hsome, hlabel⟩
        · simpa [or_imp, forall_and] using ⟨hshort, hle⟩
        · rw [wireLabels_concat, length_append, length_cons]
          omega
        · rw [wireLabels_concat, append_assoc]
        · simp [wireLabels_concat]
    · rintro ⟨rest, out⟩ result ⟨read, hsome, hshort, hfits, rfl, rfl⟩ hround
      rcases canonicalRound_ok hround with ⟨rfl, hflow⟩ | ⟨label, more, -, -, -, -, hflow⟩
      · cases hflow
        have hread := length_wireLabels read
        exact ⟨read, ⟨hsome, hshort, by omega⟩, rfl, rfl⟩
      · cases hflow
  · rintro ⟨labels, hvalid, rfl, rfl⟩
    have hempty : wireName labels ≠ [] := by simp [wireName]
    have hlong : ¬255 < (wireName (labels.map lowercase)).length := by
      have hlength := length_wireLabels (labels.map lowercase)
      have hfits := hvalid.fits
      rw [wireLength_map_lowercase] at hlength
      rw [wireName_eq, length_append, length_singleton]
      omega
    have hloop : loop .outOfFuel canonicalRound ((wireName labels).length + 1)
        (wireName labels, []) =
        .ok (wireName (labels.map lowercase)) :=
      loop_canonicalRound (r := []) hvalid (Nat.lt_succ_of_lt (length_lt_wireName labels))
    rw [canonicalWireName, if_neg hempty, hloop, ok_bind, if_neg hlong]

/-! ### What is read from a packet -/

theorem decodeRound_done {result : Bytes × Nat}
    (h : decodeRound packet state = .ok (.done result)) :
    ∃ output, canonicalWireName (state.output ++ [0]) = .ok output ∧
      result = (output, state.next.getD (state.cursor + 1)) := by
  unfold decodeRound at h
  split at h
  · cases h
  · split_ifs at h with hpointer hbad hzero
    · split at h
      · cases h
      · dsimp only at h
        split_ifs at h
        cases h
    · subst hzero
      split at h
      · rename_i output hcanonical
        exact ⟨output, hcanonical, (LoopFlow.done.inj (Except.ok.inj h)).symm⟩
      · cases h
    · split at h
      · cases h
      · cases h

/-- **A name that is read is canonical.** -/
theorem decodeName_canonical {name : Bytes} {start next : Nat}
    (h : decodeName packet start = .ok (name, next)) :
    ∃ labels, ValidLabels labels ∧ name = wireName (labels.map lowercase) := by
  refine loop_ok (fun _ => True) (fun result => ∃ labels, ValidLabels labels ∧
    result.1 = wireName (labels.map lowercase)) (fun _ _ _ _ => trivial) ?_ trivial h
  intro state result _ hround
  obtain ⟨output, hcanonical, rfl⟩ := decodeRound_done hround
  obtain ⟨labels, hvalid, -, rfl⟩ := canonicalWireName_eq_ok.mp hcanonical
  exact ⟨labels, hvalid, rfl⟩

theorem decodeRound_root (hroot : packet[state.cursor]? = some 0)
    (hcanonical : canonicalWireName (state.output ++ [0]) = .ok output) :
    decodeRound packet state = .ok (.done (output, state.next.getD (state.cursor + 1))) := by
  simp [decodeRound, hroot, hcanonical]

theorem decodeRound_label {label : Bytes} (hsome : label ≠ []) (hshort : label.length ≤ 63)
    (hpacket : packet.drop state.cursor = UInt8.ofNat label.length :: (label ++ rest)) :
    decodeRound packet state = .ok (.again { state with
      output := state.output ++ UInt8.ofNat label.length :: lowercase label
      cursor := state.cursor + 1 + label.length }) := by
  obtain ⟨hlength, hzero, hle⟩ := lengthOctet hsome hshort
  have hplain := short_not_pointer hle
  have hlong : ¬(UInt8.ofNat label.length &&& 0xc0 ≠ 0 ∨ 63 < UInt8.ofNat label.length) := by
    rw [hplain]
    simpa using hle
  have hpointer : ¬UInt8.ofNat label.length &&& 0xc0 = 0xc0 := by
    rw [hplain]
    decide
  have hrest := drop_add_of_drop (b := [_]) hpacket
  have hrange := getRange_of_drop (le_length_of_drop hpacket) hrest
  simp only [decodeRound, getElem?_of_drop hpacket, if_neg hpointer, if_neg hlong,
    if_neg hzero, hlength, hrange]

theorem loop_decodeRound {out : IoError} : ∀ {labels r : List Bytes}
    {rounds : Nat} {state : NameCursor}, ValidLabels (r ++ labels) → labels.length < rounds →
    state.output = wireLabels (r.map lowercase) →
    packet.drop state.cursor = wireName labels ++ rest →
    loop out (decodeRound packet) rounds state =
      .ok (wireName ((r ++ labels).map lowercase),
        state.next.getD (state.cursor + (wireName labels).length))
  | [], read, rounds + 1, state, hvalid, _, houtput, hdrop => by
    rw [List.append_nil] at hvalid ⊢
    have hcanonical : canonicalWireName (state.output ++ [0]) =
        .ok (wireName (read.map lowercase)) :=
      canonicalWireName_eq_ok.mpr ⟨read.map lowercase, hvalid.map_lowercase, by rw [houtput]; rfl,
        by simp [Function.comp_def]⟩
    rw [loop, decodeRound_root (getElem?_of_drop hdrop) hcanonical, ok_bind]
    rfl
  | label :: labels, read, rounds + 1, state, hvalid, hrounds, houtput, hdrop => by
    have hread : ValidLabels (read ++ [label] ++ labels) := by simpa using hvalid
    rw [wireName_cons, cons_append, append_assoc] at hdrop
    have hround :=
      decodeRound_label (hvalid.nonempty label (by simp)) (hvalid.short label (by simp)) hdrop
    have hnext := drop_add_of_drop (drop_add_of_drop (b := [_]) hdrop)
    rw [loop, hround, ok_bind]
    refine (loop_decodeRound hread (Nat.lt_of_succ_lt_succ hrounds) ?_ hnext).trans ?_
    · simp [houtput, wireLabels_concat]
    · rw [wireName_cons, append_assoc, singleton_append, length_cons, length_append]
      congr 3
      dsimp only
      omega

theorem two_mul_length_lt {labels : List Bytes} (h : ∀ label ∈ labels, label ≠ []) :
    2 * labels.length < wireLength labels := by
  induction labels with
  | nil => decide
  | cons label labels ih =>
    have hpos := length_pos_of_ne_nil (h label (by simp))
    have hrest := ih fun other hother => h other (by simp [hother])
    rw [wireLength_cons, length_cons]
    omega

end RustdResolved.Mdns.Names
