import RustdResolved.Wire.Name

/-! # Names whose octets move

A packet is changed by overwriting octets and by cutting out or putting in others, so that a part of
it stands at other offsets afterwards. A name is read from its own octets, which move with it, and
after a compression pointer from octets at fixed offsets, which must not. `followed` has the offsets
that are read after the first pointer, and `readName_moved` says that a name reads the same when its
own octets are the same and those at the followed offsets are. -/

namespace RustdResolved.Wire.Relocate

open List Lib Result Loop Octets Name NameReader

variable {first length : UInt8} {name : DnsName} {next offset start start' : Nat}
  {packet packet' : Bytes}

/-! ### The same octets at another place -/

/-- The `length` octets of a packet from `start` on are those of another packet from `start'` on. -/
structure Moved (packet packet' : Bytes) (start start' length : Nat) : Prop where
  fits : start + length ≤ packet.length
  fits' : start' + length ≤ packet'.length
  same : ∀ k < length, packet'[start' + k]? = packet[start + k]?

namespace Moved

variable {length : Nat}

theorem part (h : Moved packet packet' start start' length) {skip count : Nat}
    (hle : skip + count ≤ length) : Moved packet packet' (start + skip) (start' + skip) count where
  fits := by have := h.fits; omega
  fits' := by have := h.fits'; omega
  same k hk := by
    have := h.same (skip + k) (by omega)
    rwa [← Nat.add_assoc, ← Nat.add_assoc] at this

/-- Octets that are the same, if there are any, are there in both packets. -/
theorem of_same (hfits : start + length ≤ packet.length) (hpos : 0 < length)
    (h : ∀ k < length, packet'[start' + k]? = packet[start + k]?) :
    Moved packet packet' start start' length where
  fits := hfits
  fits' := by
    have hlast := h (length - 1) (by omega)
    rw [getElem?_eq_getElem (l := packet) (by omega)] at hlast
    have := (List.getElem?_eq_some_iff.mp hlast).1
    omega
  same := h

/-- Octets that are the same at the same offsets. -/
theorem of_agree (hfits : start + length ≤ packet.length) (hpos : 0 < length)
    (h : ∀ i, start ≤ i → i < start + length → packet'[i]? = packet[i]?) :
    Moved packet packet' start start length :=
  of_same hfits hpos fun k hk => h (start + k) (by omega) (by omega)

section
variable (h : Moved packet packet' start start' length)
include h

theorem getOr {k : Nat} (hk : k < length) (error : WireError) :
    Octets.getOr error packet' (start' + k) = Octets.getOr error packet (start + k) := by
  unfold Octets.getOr
  rw [h.same k hk]

theorem getRange {i j : Nat} (hj : j ≤ length) :
    Octets.getRange packet' (start' + i) (start' + j) =
      Octets.getRange packet (start + i) (start + j) := by
  have hfits := h.fits
  have hfits' := h.fits'
  unfold Octets.getRange
  by_cases hij : i ≤ j
  · rw [if_pos (by omega), if_pos (by omega)]
    congr 1
    apply ext_getElem?
    intro k
    rw [getElem?_take, getElem?_take]
    by_cases hk : k < j - i
    · rw [if_pos (by omega), if_pos (by omega), getElem?_drop, getElem?_drop,
        Nat.add_assoc, Nat.add_assoc]
      exact h.same (i + k) (by omega)
    · rw [if_neg (by omega), if_neg (by omega)]
  · rw [if_neg (by omega), if_neg (by omega)]

theorem getRangeOr {i j : Nat} (hj : j ≤ length) (error : WireError) :
    Octets.getRangeOr error packet' (start' + i) (start' + j) =
      Octets.getRangeOr error packet (start + i) (start + j) := by
  unfold Octets.getRangeOr
  rw [h.getRange hj]

end

/-- The same place in two ranges of octets. -/
def Place (_ : Moved packet packet' start start' length) (offset offset' : Nat) : Prop :=
  ∃ k ≤ length, offset = start + k ∧ offset' = start' + k

theorem place_start (h : Moved packet packet' start start' length) : h.Place start start' :=
  ⟨0, Nat.zero_le _, rfl, rfl⟩

end Moved

theorem readU16_eq (packet : Bytes) (offset : Nat) :
    readU16 packet offset =
      match packet[offset]?, packet[offset + 1]? with
      | some a, some b => .ok (u16FromBeBytes a b)
      | _, _ => .error .shortPacket := by
  unfold readU16
  rw [← Nat.add_zero offset, ← getElem?_drop, Nat.add_zero, ← getElem?_drop]
  match packet.drop offset with
  | [] => rfl
  | [_] => rfl
  | _ :: _ :: _ => rfl

theorem readU32_eq (packet : Bytes) (offset : Nat) :
    readU32 packet offset =
      match packet[offset]?, packet[offset + 1]?, packet[offset + 2]?, packet[offset + 3]? with
      | some a, some b, some c, some d => .ok (u32FromBeBytes a b c d)
      | _, _, _, _ => .error .shortPacket := by
  unfold readU32
  rw [← Nat.add_zero offset, ← getElem?_drop, Nat.add_zero, ← getElem?_drop,
    ← getElem?_drop, ← getElem?_drop]
  match packet.drop offset with
  | [] => rfl
  | [_] => rfl
  | [_, _] => rfl
  | [_, _, _] => rfl
  | _ :: _ :: _ :: _ :: _ => rfl

theorem Moved.readU16 {length : Nat} (h : Moved packet packet' start start' length) {k : Nat}
    (hk : k + 2 ≤ length) :
    Octets.readU16 packet' (start' + k) = Octets.readU16 packet (start + k) := by
  rw [readU16_eq, readU16_eq, Nat.add_assoc, Nat.add_assoc, h.same k (by omega),
    h.same (k + 1) (by omega)]

/-! ### Where a name is read -/

/-- The offset after the octets of a name at `cursor`. -/
def localEnd (packet : Bytes) : Nat → Nat → Nat
  | 0, cursor => cursor
  | fuel + 1, cursor =>
    match packet[cursor]? with
    | none => cursor
    | some length =>
      if length = 0 then cursor + 1
      else if length &&& 0xc0 = 0xc0 then cursor + 2
      else localEnd packet fuel (cursor + 1 + length.toNat)

/-- The offsets that are read from `cursor` on, through labels and pointers. -/
def octetsFrom (packet : Bytes) : Nat → Nat → List Nat
  | 0, cursor => [cursor]
  | fuel + 1, cursor =>
    match packet[cursor]? with
    | none => [cursor]
    | some length =>
      if length = 0 then [cursor]
      else if length &&& 0xc0 = 0xc0 then
        cursor :: (cursor + 1) ::
          match packet[cursor + 1]? with
          | none => []
          | some second => octetsFrom packet fuel (pointerTarget length second)
      else
        List.range' cursor (length.toNat + 1) ++ octetsFrom packet fuel (cursor + 1 + length.toNat)

/-- The offsets that are read after the first pointer of a name at `cursor`. -/
def followedFrom (packet : Bytes) : Nat → Nat → List Nat
  | 0, _ => []
  | fuel + 1, cursor =>
    match packet[cursor]? with
    | none => []
    | some length =>
      if length = 0 then []
      else if length &&& 0xc0 = 0xc0 then
        match packet[cursor + 1]? with
        | none => []
        | some second => octetsFrom packet fuel (pointerTarget length second)
      else followedFrom packet fuel (cursor + 1 + length.toNat)

/-- The offsets that `readName` reads after the first pointer of the name at `offset`. -/
def followed (packet : Bytes) (offset : Nat) : List Nat := followedFrom packet readNameFuel offset

theorem cursor_mem_octetsFrom {fuel cursor : Nat} : cursor ∈ octetsFrom packet fuel cursor := by
  cases fuel with
  | zero => simp [octetsFrom]
  | succ fuel =>
    simp only [octetsFrom]
    split
    · simp
    · split_ifs
      · simp
      · simp
      · exact mem_append_left _ (mem_range'_1.mpr ⟨le_refl _, by omega⟩)

theorem le_localEnd (packet : Bytes) : ∀ fuel cursor : Nat, cursor ≤ localEnd packet fuel cursor
  | 0, cursor => le_refl _
  | fuel + 1, cursor => by
    simp only [localEnd]
    split
    · exact le_refl _
    · split_ifs
      · omega
      · omega
      · have := le_localEnd packet fuel (cursor + 1 + (‹UInt8›).toNat)
        omega

/-- More fuel only reads further. -/
theorem octetsFrom_subset_succ (fuel cursor : Nat) :
    octetsFrom packet fuel cursor ⊆ octetsFrom packet (fuel + 1) cursor := by
  induction fuel generalizing cursor with
  | zero =>
    intro i hi
    rw [octetsFrom, mem_singleton] at hi
    rw [hi]
    exact cursor_mem_octetsFrom
  | succ fuel ih =>
    rw [octetsFrom, octetsFrom]
    split
    · exact List.Subset.refl _
    · split_ifs
      · exact List.Subset.refl _
      · split
        · exact List.Subset.refl _
        · exact cons_subset_cons _ (cons_subset_cons _ (ih _))
      · exact append_subset.mpr ⟨subset_append_left _ _,
          List.Subset.trans (ih _) (subset_append_right _ _)⟩

/-- What is read from a cursor on is what is followed from there and octets after the cursor. -/
theorem forall_octetsFrom {p : Nat → Prop} {fuel cursor : Nat}
    (hfollowed : ∀ i ∈ followedFrom packet (fuel + 1) cursor, p i)
    (hafter : ∀ i, cursor ≤ i → p i) : ∀ i ∈ octetsFrom packet fuel cursor, p i := by
  induction fuel generalizing cursor with
  | zero =>
    intro i hi
    rw [octetsFrom, mem_singleton] at hi
    exact hafter i hi.ge
  | succ fuel ih =>
    rw [followedFrom] at hfollowed
    rw [octetsFrom]
    cases hlength : packet[cursor]? with
    | none =>
      simp only [mem_singleton, forall_eq]
      exact hafter cursor (le_refl _)
    | some length =>
      simp only [hlength] at hfollowed ⊢
      split_ifs at hfollowed ⊢
      · simp only [mem_singleton, forall_eq]
        exact hafter cursor (le_refl _)
      · simp only [mem_cons, forall_eq_or_imp]
        refine ⟨hafter cursor (le_refl _), hafter (cursor + 1) (by omega), ?_⟩
        cases hsecond : packet[cursor + 1]? with
        | none => simp
        | some second =>
          simp only [hsecond] at hfollowed ⊢
          exact fun i hi => hfollowed i (octetsFrom_subset_succ fuel _ hi)
      · intro i hi
        rcases mem_append.mp hi with hown | hrest
        · exact hafter i (mem_range'_1.mp hown).1
        · exact ih hfollowed (fun i hle => hafter i (by omega)) i hrest

/-- The offsets that are read depend on what they hold. -/
theorem octetsFrom_kept {fuel cursor : Nat}
    (hkeep : ∀ i ∈ octetsFrom packet fuel cursor, packet'[i]? = packet[i]?) :
    octetsFrom packet' fuel cursor = octetsFrom packet fuel cursor := by
  induction fuel generalizing cursor with
  | zero => rfl
  | succ fuel ih =>
    have hcursor := hkeep cursor cursor_mem_octetsFrom
    rw [octetsFrom] at hkeep ⊢
    rw [hcursor, octetsFrom]
    cases hlength : packet[cursor]? with
    | none => rfl
    | some length =>
      simp only [hlength] at hkeep ⊢
      split_ifs at hkeep ⊢
      · rfl
      · simp only [mem_cons, forall_eq_or_imp] at hkeep
        rw [hkeep.2.1]
        cases hsecond : packet[cursor + 1]? with
        | none => rfl
        | some second =>
          simp only [hsecond] at hkeep ⊢
          rw [ih hkeep.2.2]
      · rw [ih fun i hi => hkeep i (mem_append_right _ hi)]

/-! ### Names that move -/

theorem loop_localEnd {fuel : Nat} {reader : NameReader} {result : DnsName × Nat}
    (h : loop .outOfFuel (readNameBody packet) fuel reader = .ok result) :
    result.2 = if reader.jumped then reader.nextOffset else localEnd packet fuel reader.cursor := by
  induction fuel generalizing reader result with
  | zero => cases h
  | succ fuel ih =>
    obtain ⟨_, hbody, hrest⟩ := of_bind h
    cases readNameBody_eq_ok.mp hbody with
    | root hroot =>
      cases hrest
      simp [finish, localEnd, hroot]
    | pointer hlength hpointer =>
      rw [ih hrest]
      simp [jump, localEnd, hlength, hpointer, pointer_ne_zero hpointer]
    | label hlength hsome hshort =>
      rw [ih hrest]
      have hplain := short_not_pointer hshort
      cases hjumped : reader.jumped <;>
        simp [push, localEnd, hlength, hsome, hplain, hjumped]

theorem readName_localEnd (h : readName packet offset = .ok (name, next)) :
    next = localEnd packet readNameFuel offset := by
  unfold readName at h
  split_ifs at h
  exact loop_localEnd h

theorem readName_root (h : packet[offset]? = some 0) :
    readName packet offset = .ok (⟨['.'], [0]⟩, offset + 1) := by
  have hin := (List.getElem?_eq_some_iff.mp h).1
  have hbody : readNameBody packet ⟨offset, offset, false, 0, 1, [], []⟩ =
      .ok (.done (⟨['.'], [0]⟩, offset + 1)) := readNameBody_eq_ok.mpr (.root h)
  have hloop :
      loop .outOfFuel (readNameBody packet) (399 + 1) ⟨offset, offset, false, 0, 1, [], []⟩ =
      .ok (⟨['.'], [0]⟩, offset + 1) := by
    rw [loop, hbody]
    rfl
  unfold readName
  rw [if_neg (by omega)]
  exact hloop

/-- Where the reader of a name at `offset` is. -/
def ReaderWithin (packet : Bytes) (offset : Nat) (reader : NameReader) : Prop :=
  if reader.jumped then offset < reader.nextOffset ∧ reader.nextOffset ≤ packet.length
  else offset ≤ reader.cursor

/-- A name has octets, all of them in the packet. -/
theorem readName_lt (h : readName packet offset = .ok (name, next)) :
    offset < next ∧ next ≤ packet.length := by
  unfold readName at h
  split_ifs at h
  refine loop_ok (ReaderWithin packet offset)
    (fun result : DnsName × Nat => offset < result.2 ∧ result.2 ≤ packet.length) ?_ ?_
    (show ReaderWithin packet offset ⟨offset, offset, false, 0, 1, [], []⟩ from le_refl offset) h
  · intro reader state hinv hbody
    unfold ReaderWithin at hinv ⊢
    cases readNameBody_eq_ok.mp hbody with
    | pointer hlength hpointer hsecond =>
      have hin := (List.getElem?_eq_some_iff.mp hsecond).1
      cases hjumped : reader.jumped <;> simp [hjumped, jump] at hinv ⊢ <;> omega
    | label =>
      cases hjumped : reader.jumped <;> simp [hjumped, push] at hinv ⊢ <;> omega
  · intro reader result hinv hbody
    unfold ReaderWithin at hinv
    cases readNameBody_eq_ok.mp hbody with
    | root hroot =>
      have hin := (List.getElem?_eq_some_iff.mp hroot).1
      cases hjumped : reader.jumped <;> simp [hjumped, finish] at hinv ⊢ <;> omega

/-- How far the reader of a name at `offset` has come: up to its first pointer, by the octets it
counts. -/
def ReaderCounts (offset : Nat) (reader : NameReader) : Prop :=
  reader.expandedLength ≤ 255 ∧
    if reader.jumped then reader.nextOffset ≤ offset + 256
    else reader.cursor + 1 = offset + reader.expandedLength

/-- A name is at most 254 octets of labels with a pointer after them. -/
theorem readName_le (h : readName packet offset = .ok (name, next)) : next ≤ offset + 256 := by
  unfold readName at h
  split_ifs at h
  refine loop_ok (ReaderCounts offset) (fun result : DnsName × Nat => result.2 ≤ offset + 256) ?_ ?_
    (show ReaderCounts offset ⟨offset, offset, false, 0, 1, [], []⟩
      from ⟨show 1 ≤ 255 by decide, rfl⟩) h
  · rintro reader state ⟨hcount, hinv⟩ hbody
    unfold ReaderCounts
    cases readNameBody_eq_ok.mp hbody with
    | pointer hlength hpointer hsecond =>
      cases hjumped : reader.jumped <;> simp [hjumped, jump] at hinv ⊢ <;> omega
    | label hlength hsome hshort hlabel hfits =>
      cases hjumped : reader.jumped <;> simp [hjumped, push] at hinv ⊢ <;> omega
  · rintro reader result ⟨hcount, hinv⟩ hbody
    cases readNameBody_eq_ok.mp hbody with
    | root hroot =>
      cases hjumped : reader.jumped <;> simp [hjumped, finish] at hinv ⊢ <;> omega

/-- What the followed offsets hold is the same, and a pointer to them still points back. -/
def Steady (packet packet' : Bytes) (start start' : Nat) (offsets : List Nat) : Prop :=
  ∀ i ∈ offsets, packet'[i]? = packet[i]? ∧ (start ≤ start' ∨ i < start')

/-- Two readers of a name that moved, `length` octets long: before its first pointer they are at the
same place of the name, and after it at the same offset. -/
inductive ReadersMoved (packet packet' : Bytes) (start start' length fuel : Nat) :
    NameReader → NameReader → Prop
  | inside (reader : NameReader) (k nextOffset : Nat) (hjumped : reader.jumped = false)
    (hcursor : reader.cursor = start + k)
    (hlocal : localEnd packet fuel reader.cursor = start + length)
    (hsteady : Steady packet packet' start start' (followedFrom packet fuel reader.cursor)) :
    ReadersMoved packet packet' start start' length fuel reader
      { reader with cursor := start' + k, nextOffset := nextOffset }
  | away (reader : NameReader) (hjumped : reader.jumped = true)
    (hnext : reader.nextOffset = start + length)
    (hsteady : ∀ i ∈ octetsFrom packet fuel reader.cursor, packet'[i]? = packet[i]?) :
    ReadersMoved packet packet' start start' length fuel reader
      { reader with nextOffset := start' + length }

section

variable {length fuel : Nat} {reader reader' : NameReader}
  (hmoved : Moved packet packet' start start' length)
  (h : ReadersMoved packet packet' start start' length (fuel + 1) reader reader')
include hmoved h

theorem ReadersMoved.pointer {second : UInt8} (hfirst : packet[reader.cursor]? = some first)
    (hpointer : first &&& 0xc0 = 0xc0) (hsecond : packet[reader.cursor + 1]? = some second)
    (hback : pointerTarget first second < reader.cursor) (hsteps : reader.pointerSteps < 128) :
    ∃ next', NameStep packet' reader' (.again next') ∧
      ReadersMoved packet packet' start start' length fuel
        (reader.jump (pointerTarget first second)) next' := by
  have hne := pointer_ne_zero hpointer
  cases h with
  | inside k nextOffset hjumped hcursor hlocal hsteady =>
    simp only [localEnd, followedFrom, hfirst, hsecond, if_neg hne, if_pos hpointer]
      at hlocal hsteady
    -- the target is among the offsets that are followed, so it is still before the pointer
    have htarget := hsteady _ cursor_mem_octetsFrom
    have hstep : NameStep packet' { reader with cursor := start' + k, nextOffset := nextOffset }
        (.again _) :=
      .pointer (by rw [← hfirst, hcursor]; exact hmoved.same k (by omega)) hpointer
        (by rw [← hsecond, hcursor]; exact hmoved.same (k + 1) (by omega))
        (by rcases htarget.2 with hle | hlt <;> simp only <;> omega) hsteps
    have haway : ReadersMoved packet packet' start start' length fuel
        (reader.jump (pointerTarget first second)) _ := .away _ rfl
      (by simpa [jump, hjumped] using hlocal) (fun i hi => (hsteady i hi).1)
    refine ⟨_, hstep, ?_⟩
    convert haway using 1
    simp [jump, hjumped]
    omega
  | away hjumped hnext hsteady =>
    simp only [octetsFrom, hfirst, hsecond, if_neg hne, if_pos hpointer] at hsteady
    have hstep : NameStep packet' { reader with nextOffset := start' + length } (.again _) :=
      .pointer (by rw [← hfirst]; exact hsteady _ (by simp)) hpointer
        (by rw [← hsecond]; exact hsteady _ (by simp)) hback hsteps
    have haway : ReadersMoved packet packet' start start' length fuel
        (reader.jump (pointerTarget first second)) _ := .away _ rfl
      (by simpa [jump, hjumped] using hnext)
      (fun i hi => hsteady i (mem_cons_of_mem _ (mem_cons_of_mem _ hi)))
    refine ⟨_, hstep, ?_⟩
    convert haway using 1
    simp [jump, hjumped]

theorem ReadersMoved.label {label : Bytes} (hfirst : packet[reader.cursor]? = some first)
    (hsome : first ≠ 0) (hshort : first ≤ 63)
    (hlabel : getRange packet (reader.cursor + 1) (reader.cursor + 1 + first.toNat) = some label)
    (hfits : reader.expandedLength + (first.toNat + 1) ≤ 255) :
    ∃ next', NameStep packet' reader' (.again next') ∧
      ReadersMoved packet packet' start start' length fuel
        (reader.push first label (escapeText label)) next' := by
  have hplain := short_ne_pointer hshort
  cases h with
  | inside k nextOffset hjumped hcursor hlocal hsteady =>
    simp only [localEnd, followedFrom, hfirst, if_neg hsome, if_neg hplain] at hlocal hsteady
    have hend := le_localEnd packet fuel (reader.cursor + 1 + first.toNat)
    have hlabel' : getRange packet' (start' + k + 1) (start' + k + 1 + first.toNat) =
        some label := by
      have hrange := hmoved.getRange (i := k + 1) (j := k + 1 + first.toNat) (by omega)
      rw [hcursor] at hlabel
      rw [← hlabel]
      simpa only [Nat.add_assoc] using hrange
    have hstep : NameStep packet' { reader with cursor := start' + k, nextOffset := nextOffset }
        (.again _) :=
      .label (by rw [← hfirst, hcursor]; exact hmoved.same k (by omega)) hsome hshort hlabel' hfits
    have hinside : ReadersMoved packet packet' start start' length fuel
        (reader.push first label (escapeText label)) _ :=
      .inside _ (k + 1 + first.toNat) (start' + k + 1 + first.toNat) hjumped
      (by simp only [push]; omega) hlocal hsteady
    refine ⟨_, hstep, ?_⟩
    convert hinside using 1
    simp [push, hjumped]
    omega
  | away hjumped hnext hsteady =>
    simp only [octetsFrom, hfirst, if_neg hsome, if_neg hplain] at hsteady
    have hin := (getRange_eq_some.mp hlabel).1.2
    have hown : Moved packet packet' reader.cursor reader.cursor (first.toNat + 1) :=
      .of_agree (by omega) (by omega) fun i hle hlt =>
        hsteady i (mem_append_left _ (mem_range'_1.mpr ⟨hle, hlt⟩))
    have hlabel' : getRange packet' (reader.cursor + 1) (reader.cursor + 1 + first.toNat) =
        some label := by
      have hrange := hown.getRange (i := 1) (j := 1 + first.toNat) (by omega)
      rw [← hlabel]
      simpa only [Nat.add_assoc] using hrange
    have hstep : NameStep packet' { reader with nextOffset := start' + length } (.again _) :=
      .label (by rw [← hfirst]; exact hsteady _ (by simp)) hsome hshort hlabel' hfits
    have haway : ReadersMoved packet packet' start start' length fuel
        (reader.push first label (escapeText label)) _ := .away _ hjumped
      (by simpa [push, hjumped] using hnext)
      (fun i hi => hsteady i (mem_append_right _ hi))
    refine ⟨_, hstep, ?_⟩
    convert haway using 1
    simp [push, hjumped]

theorem ReadersMoved.finish (hroot : packet[reader.cursor]? = some 0) :
    NameStep packet' reader' (.done (reader.finish.1, start' + length)) := by
  cases h with
  | inside k nextOffset hjumped hcursor hlocal hsteady =>
    simp only [localEnd, hroot, if_true] at hlocal
    have hstep : NameStep packet' { reader with cursor := start' + k, nextOffset := nextOffset }
        (.done _) :=
      .root (by rw [← hroot, hcursor]; exact hmoved.same k (by omega))
    convert hstep using 2
    simp [finish, hjumped]
    omega
  | away hjumped hnext hsteady =>
    have hstep : NameStep packet' { reader with nextOffset := start' + length } (.done _) :=
      .root (by rw [← hroot]; exact hsteady _ cursor_mem_octetsFrom)
    convert hstep using 2
    simp [finish, hjumped]

end

/-- **A name that moves reads the same**, if its own octets move with it and those that its pointers
lead to stay where they are. -/
theorem readName_moved {length : Nat} (h : readName packet start = .ok (name, start + length))
    (hmoved : Moved packet packet' start start' length)
    (hsteady : Steady packet packet' start start' (followed packet start)) :
    readName packet' start' = .ok (name, start' + length) := by
  have hlocal := readName_localEnd h
  have hlt := (readName_lt h).1
  have hfits' := hmoved.fits'
  unfold readName at h
  split_ifs at h
  have hstart : ReadersMoved packet packet' start start' length readNameFuel
      ⟨start, start, false, 0, 1, [], []⟩ _ := .inside _ 0 start' rfl rfl hlocal.symm hsteady
  have hround : ∀ fuel reader reader',
      ReadersMoved packet packet' start start' length (fuel + 1) reader reader' →
      Carries (FlowCarries (fun result result' => result' = (result.1, start' + length))
        (ReadersMoved packet packet' start start' length fuel))
        (readNameBody packet reader) (readNameBody packet' reader') := by
    intro fuel reader reader' hrelated flow hbody
    simp only [readNameBody_eq_ok] at hbody ⊢
    cases hbody with
    | root hroot => exact ⟨_, hrelated.finish hmoved hroot, .done rfl⟩
    | pointer hfirst hpointer hsecond hback hsteps =>
      obtain ⟨_, hstep, hnext⟩ := hrelated.pointer hmoved hfirst hpointer hsecond hback hsteps
      exact ⟨_, hstep, .again hnext⟩
    | label hfirst hsome hshort hlabel hfits =>
      obtain ⟨_, hstep, hnext⟩ := hrelated.label hmoved hfirst hsome hshort hlabel hfits
      exact ⟨_, hstep, .again hnext⟩
  obtain ⟨result, hloop, hresult⟩ := loop_carries _ _ hround hstart _ h
  unfold readName
  rw [if_neg (by omega), ← hresult]
  exact hloop

theorem localEnd_moved {length : Nat} (hmoved : Moved packet packet' start start' length)
    {fuel k : Nat} {reader : NameReader} {result : DnsName × Nat}
    (h : loop .outOfFuel (readNameBody packet) fuel reader = .ok result)
    (hjumped : reader.jumped = false) (hcursor : reader.cursor = start + k)
    (hresult : result.2 = start + length) :
    localEnd packet' fuel (start' + k) = start' + length := by
  induction fuel generalizing k reader result with
  | zero => cases h
  | succ fuel ih =>
    have hend := loop_localEnd h
    rw [hjumped, hresult] at hend
    obtain ⟨_, hbody, hrest⟩ := of_bind h
    cases readNameBody_eq_ok.mp hbody with
    | root hroot =>
      cases hrest
      simp only [localEnd, hroot, Bool.false_eq_true, if_false, if_true] at hend
      simp only [localEnd, hmoved.same k (by omega), ← hcursor, hroot, if_true]
      omega
    | pointer hfirst hpointer =>
      have hne := pointer_ne_zero hpointer
      simp only [localEnd, hfirst, if_neg hne, if_pos hpointer, Bool.false_eq_true,
        if_false] at hend
      simp only [localEnd, hmoved.same k (by omega), ← hcursor, hfirst, if_neg hne, if_pos hpointer]
      omega
    | @label first label hfirst hsome hshort =>
      have hplain := short_ne_pointer hshort
      simp only [localEnd, hfirst, if_neg hsome, if_neg hplain, Bool.false_eq_true,
        if_false] at hend
      have hle := le_localEnd packet fuel (reader.cursor + 1 + first.toNat)
      simp only [localEnd, hmoved.same k (by omega), ← hcursor, hfirst, if_neg hsome, if_neg hplain]
      rw [Nat.add_assoc, Nat.add_assoc, ← Nat.add_assoc k]
      exact ih hrest hjumped (by simp only [push]; omega) hresult

theorem readName_length_moved {length : Nat} {name' : DnsName}
    (h : readName packet start = .ok (name, start + length))
    (h' : readName packet' start' = .ok (name', next))
    (hmoved : Moved packet packet' start start' length) : next = start' + length := by
  rw [readName_localEnd h']
  unfold readName at h
  split_ifs at h
  exact localEnd_moved hmoved (k := 0) h rfl rfl rfl

theorem followedFrom_kept {fuel : Nat} {reader : NameReader} {result : DnsName × Nat}
    (h : loop .outOfFuel (readNameBody packet) fuel reader = .ok result)
    (hjumped : reader.jumped = false)
    (hown : ∀ i, reader.cursor ≤ i → i < result.2 → packet'[i]? = packet[i]?)
    (hfollowed : ∀ i ∈ followedFrom packet fuel reader.cursor, packet'[i]? = packet[i]?) :
    followedFrom packet' fuel reader.cursor = followedFrom packet fuel reader.cursor := by
  induction fuel generalizing reader result with
  | zero => cases h
  | succ fuel ih =>
    have hend := loop_localEnd h
    rw [hjumped] at hend
    obtain ⟨_, hbody, hrest⟩ := of_bind h
    cases readNameBody_eq_ok.mp hbody with
    | root hroot =>
      cases hrest
      simp only [localEnd, hroot, Bool.false_eq_true, if_false, if_true] at hend
      simp [followedFrom, hown reader.cursor (le_refl _) (by omega), hroot]
    | pointer hfirst hpointer hsecond =>
      have hne := pointer_ne_zero hpointer
      simp only [localEnd, hfirst, if_neg hne, if_pos hpointer, Bool.false_eq_true,
        if_false] at hend
      simp only [followedFrom, hfirst, hsecond, if_neg hne, if_pos hpointer] at hfollowed
      simp only [followedFrom, hown reader.cursor (le_refl _) (by omega),
        hown (reader.cursor + 1) (by omega) (by omega), hfirst, hsecond, if_neg hne,
        if_pos hpointer]
      exact octetsFrom_kept hfollowed
    | @label first label hfirst hsome hshort =>
      have hplain := short_ne_pointer hshort
      simp only [localEnd, hfirst, if_neg hsome, if_neg hplain, Bool.false_eq_true,
        if_false] at hend
      have hle := le_localEnd packet fuel (reader.cursor + 1 + first.toNat)
      simp only [followedFrom, hfirst, if_neg hsome, if_neg hplain] at hfollowed
      simp only [followedFrom, hown reader.cursor (le_refl _) (by omega), hfirst, if_neg hsome,
        if_neg hplain]
      exact ih hrest hjumped
        (fun i hi => hown i (by simp only [push] at hi; omega)) hfollowed

end RustdResolved.Wire.Relocate
