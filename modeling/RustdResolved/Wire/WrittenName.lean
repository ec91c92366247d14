import RustdResolved.Wire.Overwrite
import RustdResolved.Wire.Presentation

/-! # Names written out

`encodeName` writes the labels of a name one after the other, without compression. A reader of those
octets ends after them, follows nothing and has the labels again. -/

namespace RustdResolved.Wire.WrittenName

open List Lib Result Loop Octets Name Presentation Relocate

variable {labels : List Bytes} {offset : Nat} {packet rest bytes : Bytes} {name : Text}

/-- Labels that fit their length octet. -/
def ShortLabels (labels : List Bytes) : Prop := ∀ label ∈ labels, label ≠ [] ∧ label.length ≤ 63

def IsWritten (bytes : Bytes) : Prop :=
  ∃ labels, ShortLabels labels ∧ bytes = wireName labels ∧ bytes.length ≤ 255

theorem length_lt_wireName (labels : List Bytes) : labels.length < (wireName labels).length := by
  induction labels with
  | nil => simp [wireName]
  | cons label labels ih =>
    rw [wireName_cons]
    simp only [length_cons, length_append]
    omega

/-- **A name that is written out** ends after its octets, and follows nothing. -/
theorem localEnd_wireName {fuel : Nat} (hlabels : ShortLabels labels) (hfuel : labels.length < fuel)
    (hdrop : packet.drop offset = wireName labels ++ rest) :
    localEnd packet fuel offset = offset + (wireName labels).length ∧
      followedFrom packet fuel offset = [] := by
  induction labels generalizing fuel offset with
  | nil =>
    obtain ⟨fuel, rfl⟩ := Nat.exists_eq_add_one.mpr (Nat.zero_lt_of_lt hfuel)
    have hroot : packet[offset]? = some 0 := by
      rw [← Nat.add_zero offset, ← getElem?_drop, hdrop]
      rfl
    simp [localEnd, followedFrom, hroot, wireName]
  | cons label labels ih =>
    obtain ⟨fuel, rfl⟩ := Nat.exists_eq_add_one.mpr (Nat.zero_lt_of_lt hfuel)
    simp only [length_cons, Nat.add_lt_add_iff_right] at hfuel
    obtain ⟨hsome, hshort⟩ := hlabels label mem_cons_self
    obtain ⟨hlength, hne, hle⟩ := lengthOctet hsome hshort
    rw [wireName_cons] at hdrop
    have hfirst : packet[offset]? = some (UInt8.ofNat label.length) := by
      rw [← Nat.add_zero offset, ← getElem?_drop, hdrop]
      rfl
    have hdrop' : packet.drop (offset + 1 + label.length) = wireName labels ++ rest := by
      rw [Nat.add_assoc, ← drop_drop, hdrop, Nat.add_comm 1, cons_append, drop_succ_cons,
        append_assoc, drop_left]
    obtain ⟨hend, hfollowed⟩ := ih (fun other h => hlabels other (mem_cons_of_mem _ h)) hfuel hdrop'
    have hplain := short_ne_pointer hle
    simp only [localEnd, followedFrom, hfirst, if_neg hne, if_neg hplain, hlength]
    refine ⟨?_, hfollowed⟩
    rw [hend, wireName_cons]
    simp only [length_cons, length_append]
    omega

theorem loop_readName_wireName {read : List Bytes} {fuel : Nat} {reader : NameReader}
    (hvalid : ValidLabels (read ++ labels)) (hread : reader.Holds read)
    (hfuel : labels.length < fuel) (hdrop : packet.drop reader.cursor = wireName labels ++ rest) :
    loop .outOfFuel (readNameBody packet) fuel reader =
      .ok (DnsName.ofLabels (read ++ labels),
        if reader.jumped then reader.nextOffset else reader.cursor + (wireName labels).length) := by
  induction labels generalizing read fuel reader with
  | nil =>
    obtain ⟨fuel, rfl⟩ := Nat.exists_eq_add_one.mpr (Nat.zero_lt_of_lt hfuel)
    have hroot : packet[reader.cursor]? = some 0 := getElem?_of_drop hdrop
    have hfinish : reader.finish = (DnsName.ofLabels read,
        if reader.jumped then reader.nextOffset else reader.cursor + 1) := by
      simp [NameReader.finish, DnsName.ofLabels, nameText, hread.labels, hread.canonicalWire]
    rw [loop, readNameBody_eq_ok.mpr (.root hroot), ok_bind, hfinish, append_nil]
    rfl
  | cons label labels ih =>
    obtain ⟨fuel, rfl⟩ := Nat.exists_eq_add_one.mpr (Nat.zero_lt_of_lt hfuel)
    simp only [length_cons, Nat.add_lt_add_iff_right] at hfuel
    have hmem : label ∈ read ++ label :: labels := by simp
    obtain ⟨hlength, hne, hle⟩ := lengthOctet (hvalid.nonempty label hmem) (hvalid.short label hmem)
    rw [wireName_cons] at hdrop
    have hfirst : packet[reader.cursor]? = some (UInt8.ofNat label.length) := getElem?_of_drop hdrop
    have hrest : packet.drop (reader.cursor + 1) = label ++ (wireName labels ++ rest) := by
      rw [← drop_drop, hdrop, cons_append, drop_succ_cons, drop_zero,
        append_assoc]
    have hdrop' := drop_add_of_drop hrest
    have hlabel : getRange packet (reader.cursor + 1)
        (reader.cursor + 1 + (UInt8.ofNat label.length).toNat) = some label := by
      rw [hlength]
      exact getRange_of_drop (le_length_of_drop hdrop) hrest
    have hassoc : read ++ label :: labels = read ++ [label] ++ labels := by simp
    have hfits : wireLength read + (label.length + 1) ≤ 255 := by
      have hfront : ValidLabels (read ++ [label]) :=
        ValidLabels.of_infix (hassoc ▸ hvalid) ⟨[], labels, by simp⟩
      simpa [wireLength_append_singleton] using hfront.fits
    rw [← hread.expandedLength, ← hlength] at hfits
    have hpush := hread.push hlength.symm hne hle hfits
    rw [loop, readNameBody_eq_ok.mpr (.label hfirst hne hle hlabel hfits), ok_bind]
    have hcursor : (reader.push (UInt8.ofNat label.length) label (escapeText label)).cursor =
        reader.cursor + 1 + label.length := by
      simp only [NameReader.push, hlength]
    dsimp only
    rw [ih (hassoc ▸ hvalid) hpush hfuel (by rw [hcursor, hdrop']), hcursor, hassoc, wireName_cons]
    congr 2
    simp only [NameReader.push, length_cons, length_append]
    split_ifs
    · rfl
    · omega

/-- **A name that is written out is read as its labels.** -/
theorem readName_wireName (h : ValidLabels labels)
    (hdrop : packet.drop offset = wireName labels ++ rest) :
    readName packet offset = .ok (DnsName.ofLabels labels, offset + (wireName labels).length) := by
  have hlong := congrArg length hdrop
  have hlabels := length_lt_wireName labels
  have hfits := h.fits
  rw [← length_wireName] at hfits
  simp only [length_drop, length_append] at hlong
  unfold readName
  rw [if_neg (by omega)]
  exact loop_readName_wireName (by exact h) NameReader.holds_start
    (by unfold readNameFuel; omega) hdrop

theorem readName_wireName_self (h : ValidLabels labels) :
    readName (wireName labels) 0 = .ok (DnsName.ofLabels labels, (wireName labels).length) := by
  rw [readName_wireName h (append_nil _).symm, Nat.zero_add]

theorem IsWritten.localEnd (h : IsWritten bytes) (hdrop : packet.drop offset = bytes ++ rest) :
    Relocate.localEnd packet readNameFuel offset = offset + bytes.length ∧
      followed packet offset = [] := by
  obtain ⟨labels, hlabels, rfl, hlong⟩ := h
  have := length_lt_wireName labels
  exact localEnd_wireName hlabels (by unfold readNameFuel; omega) hdrop

/-! ### What the encoder writes -/

theorem ShortLabels.append_singleton {label : Bytes} (h : ShortLabels labels)
    (hsome : ¬ label.isEmpty) (hshort : label.length ≤ 63) : ShortLabels (labels ++ [label]) := by
  intro other hother
  rcases mem_append.mp hother with hold | hnew
  · exact h other hold
  · rw [mem_singleton.mp hnew]
    exact ⟨fun hnil => hsome (by rw [hnil]; rfl), hshort⟩

theorem decodeLabels_short : ∀ {rest label : Bytes} {labels result : List Bytes},
    decodeLabels name rest label labels = .ok result → label.length ≤ 63 → ShortLabels labels →
    ShortLabels result := by
  intro rest label labels result h hlabel hlabels
  fun_induction decodeLabels name rest label labels with
  | case2 label labels hsome =>
    cases h
    exact hlabels.append_singleton hsome hlabel
  | case3 =>
    cases h
    simp [ShortLabels]
  | case5 rest label labels hsome =>
    cases h
    exact hlabels.append_singleton hsome hlabel
  | case6 rest label labels hsome hrest ih =>
    exact ih h (Nat.zero_le _) (hlabels.append_singleton hsome hlabel)
  | case9 label labels escaped rest hescaped hshort hslash ih =>
    exact ih h (not_lt.mp hshort) hlabels
  | case13 label labels escaped _ _ second third rest _ _ hshort _ ih =>
    refine ih h ?_ hlabels
    rw [length_append, length_singleton]
    omega
  | case18 byte rest label labels _ _ _ hshort ih => exact ih h (not_lt.mp hshort) hlabels
  | _ => cases h

theorem encodeName_written (h : encodeName name = .ok bytes) : IsWritten bytes := by
  unfold encodeName at h
  split_ifs at h
  obtain ⟨labels, hlabels, h⟩ := of_bind h
  have hshort : ShortLabels labels :=
    decodeLabels_short hlabels (Nat.zero_le _) (by simp [ShortLabels])
  split_ifs at h with hempty hlong hfits
  · cases h
    exact ⟨[], by simp [ShortLabels], rfl, by decide⟩
  · cases h
    exact ⟨labels, hshort, rfl, by omega⟩

end RustdResolved.Wire.WrittenName
