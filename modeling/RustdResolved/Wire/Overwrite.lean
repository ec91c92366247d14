import RustdResolved.Wire.Relocate

/-! # Packets with octets overwritten

What the writers of a packet do to each octet, and what the readers get back. -/

namespace RustdResolved.Wire.Overwrite

open List Octets Relocate

variable {bytes packet packet' : Bytes} {offset value : Nat}

theorem writeAt_eq_ok :
    writeAt packet offset bytes = .ok packet' ↔
      offset + bytes.length ≤ packet.length ∧
        packet' = packet.take offset ++ bytes ++ packet.drop (offset + bytes.length) := by
  unfold writeAt
  split_ifs with h
  · simp [h, eq_comm]
  · simp [h]

section
variable (h : writeAt packet offset bytes = .ok packet')
include h

theorem length_writeAt : packet'.length = packet.length := by
  obtain ⟨hfits, rfl⟩ := writeAt_eq_ok.mp h
  simp only [length_append, length_take, length_drop]
  omega

theorem getElem?_writeAt (i : Nat) :
    packet'[i]? = if offset ≤ i ∧ i < offset + bytes.length then bytes[i - offset]?
      else packet[i]? := by
  obtain ⟨hfits, rfl⟩ := writeAt_eq_ok.mp h
  have htake : (packet.take offset).length = offset := by
    rw [length_take]
    omega
  rw [append_assoc, getElem?_append, htake]
  by_cases hbefore : i < offset
  · rw [if_pos hbefore, if_neg (by omega), getElem?_take, if_pos hbefore]
  · rw [if_neg hbefore, getElem?_append]
    by_cases hinside : i < offset + bytes.length
    · rw [if_pos (by omega), if_pos (by omega)]
    · rw [if_neg (by omega), if_neg (by omega), getElem?_drop]
      congr 1
      omega

theorem getElem?_writeAt_of_out {i : Nat} (hout : i < offset ∨ offset + bytes.length ≤ i) :
    packet'[i]? = packet[i]? := by
  rw [getElem?_writeAt h, if_neg (by omega)]

end

theorem exists_writeAt (h : offset + bytes.length ≤ packet.length) :
    ∃ packet', writeAt packet offset bytes = .ok packet' ∧ packet'.length = packet.length :=
  have hwrite := writeAt_eq_ok.mpr ⟨h, rfl⟩
  ⟨_, hwrite, length_writeAt hwrite⟩

theorem getElem?_writeU16_of_out {i : Nat} (h : writeU16 packet offset value = .ok packet')
    (hout : i < offset ∨ offset + 2 ≤ i) : packet'[i]? = packet[i]? :=
  getElem?_writeAt_of_out h hout

@[simp] theorem length_u16ToBeBytes (value : Nat) : (u16ToBeBytes value).length = 2 := rfl

@[simp] theorem length_u32ToBeBytes (value : Nat) : (u32ToBeBytes value).length = 4 := rfl

theorem readU16_of_octets (h : ∀ k < 2, packet[offset + k]? = (u16ToBeBytes value)[k]?) :
    readU16 packet offset = .ok (value % 65536) := by
  have h0 := h 0 (by omega)
  have h1 := h 1 (by omega)
  rw [readU16_eq, ← Nat.add_zero offset, h0, Nat.add_zero, h1]
  simp only [u16ToBeBytes, getElem?_cons_zero, getElem?_cons_succ, u16FromBeBytes,
    UInt8.toNat_ofNat', Except.ok.injEq]
  omega

theorem readU32_of_octets (h : ∀ k < 4, packet[offset + k]? = (u32ToBeBytes value)[k]?) :
    readU32 packet offset = .ok (value % 4294967296) := by
  have h0 := h 0 (by omega)
  have h1 := h 1 (by omega)
  have h2 := h 2 (by omega)
  have h3 := h 3 (by omega)
  rw [readU32_eq, ← Nat.add_zero offset, h0, Nat.add_zero, h1, h2, h3]
  simp only [u32ToBeBytes, u16ToBeBytes, cons_append, nil_append,
    getElem?_cons_zero, getElem?_cons_succ, u32FromBeBytes, u16FromBeBytes,
    UInt8.toNat_ofNat', Except.ok.injEq]
  omega

theorem readU16_of_drop {rest : Bytes} (h : packet.drop offset = u16ToBeBytes value ++ rest) :
    readU16 packet offset = .ok (value % 65536) := by
  refine readU16_of_octets fun k hk => ?_
  rw [← getElem?_drop, h, getElem?_append_left (by simpa using hk)]

theorem readU16_writeU16 (h : writeU16 packet offset value = .ok packet') :
    readU16 packet' offset = .ok (value % 65536) := by
  refine readU16_of_octets fun k hk => ?_
  rw [getElem?_writeAt h, if_pos (by rw [length_u16ToBeBytes]; omega), Nat.add_sub_cancel_left]

theorem readU16_of_agree (h0 : packet'[offset]? = packet[offset]?)
    (h1 : packet'[offset + 1]? = packet[offset + 1]?) :
    readU16 packet' offset = readU16 packet offset := by
  rw [readU16_eq, readU16_eq, h0, h1]

theorem readU16_writeAt_of_out {place : Nat} (h : writeAt packet place bytes = .ok packet')
    (hout : offset + 2 ≤ place ∨ place + bytes.length ≤ offset) :
    readU16 packet' offset = readU16 packet offset :=
  readU16_of_agree (getElem?_writeAt_of_out h (by omega)) (getElem?_writeAt_of_out h (by omega))

theorem readU32_of_agree (h : ∀ i, offset ≤ i → i < offset + 4 → packet'[i]? = packet[i]?) :
    readU32 packet' offset = readU32 packet offset := by
  rw [readU32_eq, readU32_eq, h offset (by omega) (by omega), h (offset + 1) (by omega) (by omega),
    h (offset + 2) (by omega) (by omega), h (offset + 3) (by omega) (by omega)]

theorem readU16_lt_65536 (h : readU16 packet offset = .ok value) : value < 65536 := by
  rw [readU16_eq] at h
  split at h
  · cases h
    exact u16FromBeBytes_lt _ _
  · cases h

theorem readU32_lt (h : readU32 packet offset = .ok value) :
    value < 4294967296 ∧ offset + 4 ≤ packet.length := by
  rw [readU32_eq] at h
  split at h
  · rename_i hd
    have hin := (List.getElem?_eq_some_iff.mp hd).1
    cases h
    exact ⟨u32FromBeBytes_lt _ _ _ _, by omega⟩
  · cases h

end RustdResolved.Wire.Overwrite
