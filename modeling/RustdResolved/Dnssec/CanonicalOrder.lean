import RustdResolved.Dnssec.NamePath
import RustdResolved.Lib.Chain
import RustdResolved.Resolver.Error

/-! # Canonical order of names

The validator compares two names in wire form label by label, the label next to the root first. On
the names of paths this is the lexicographic order of the paths (`canonicalDnsNameCmp_wireName`),
and the interval of a record with owner `o` and next name `x` covers what the link `(o, x)` of a
chain covers (`canonicalNameIntervalCovers_wireName`). -/

namespace RustdResolved.Dnssec.CanonicalOrder

open List Lib Result Loop PrefixOrder Chain Wire Octets Name Presentation Resolver.Error NameText

/-! ### The labels of a name in wire form -/

/-- One round of `dnsWireLabels`, at an offset and with the labels read so far. -/
def dnsWireLabelsBody (name : Bytes) (state : Nat × List Bytes) :
    Except ResolveError (LoopFlow (List Bytes) (Nat × List Bytes)) :=
  match name[state.1]? with
  | none => .error (.wire (.invalidName "truncated wire name".toList))
  | some length =>
    if length = 0 then
      if state.1 + 1 ≠ name.length then
        .error (.wire (.invalidName "trailing wire name data".toList))
      else .ok (.done state.2)
    else if length > 63 then .error (.wire .invalidLabel)
    else
      match getRange name (state.1 + 1) (state.1 + 1 + length.toNat) with
      | none => .error (.wire .invalidLabel)
      | some label => .ok (.again (state.1 + 1 + length.toNat, state.2 ++ [label]))

def dnsWireLabels (name : Bytes) : Except ResolveError (List Bytes) :=
  loop (.wire .outOfFuel) (dnsWireLabelsBody name) (name.length + 1) (0, [])

def dnsNameLabelCount (name : Bytes) : Except ResolveError Nat := do
  let labels ← dnsWireLabels name
  .ok labels.length

/-- Compares two names in wire form, from the root down. -/
def canonicalDnsNameCmp (left right : Bytes) : Except ResolveError Ordering := do
  let left ← dnsWireLabels left
  let right ← dnsWireLabels right
  .ok (scanCmp left.reverse right.reverse)

/-- Whether `name` lies strictly between `owner` and `next`, round the end of the order if `next`
does not come after `owner`. -/
def canonicalNameIntervalCovers (owner next name : Bytes) : Except ResolveError Bool := do
  let ownerToNext ← canonicalDnsNameCmp owner next
  let ownerToName ← canonicalDnsNameCmp owner name
  let nameToNext ← canonicalDnsNameCmp name next
  .ok (match ownerToNext with
    | .lt => ownerToName == .lt && nameToNext == .lt
    | .gt => ownerToName == .lt || nameToNext == .lt
    | .eq => ownerToName != .eq)

theorem dnsWireLabelsBody_cons {front : Bytes} {read : List Bytes} {label : Bytes}
    {labels : List Bytes} (hne : label ≠ []) (hshort : label.length ≤ 63) :
    dnsWireLabelsBody (front ++ wireName (label :: labels)) (front.length, read) =
      .ok (.again (front.length + 1 + label.length, read ++ [label])) := by
  obtain ⟨hlen, hzero, hle⟩ := lengthOctet hne hshort
  have hsmall : ¬ UInt8.ofNat label.length > 63 := not_lt.mpr hle
  have hrange : getRange (front ++ wireName (label :: labels)) (front.length + 1)
      (front.length + 1 + label.length) = some label := by
    rw [getRange_eq_some, wireName_cons]
    refine ⟨⟨by omega, by simp; omega⟩, ?_⟩
    rw [← drop_drop]
    simp
  have hget : (front ++ wireName (label :: labels))[front.length]? =
      some (UInt8.ofNat label.length) := by
    rw [wireName_cons]
    simp
  simp only [dnsWireLabelsBody, hget, if_neg hzero, if_neg hsmall, hlen, hrange]

theorem loop_dnsWireLabels :
    ∀ (labels : List Bytes) (front : Bytes) (read : List Bytes) (fuel : Nat),
    (∀ l ∈ labels, l ≠ []) → (∀ l ∈ labels, l.length ≤ 63) → labels.length < fuel →
    loop (.wire .outOfFuel) (dnsWireLabelsBody (front ++ wireName labels)) fuel
      (front.length, read) = .ok (read ++ labels)
  | [], front, read, fuel + 1, _, _, _ => by
    simp [loop, dnsWireLabelsBody, wireName]
  | label :: labels, front, read, fuel + 1, hne, hshort, hfuel => by
    have hrest := loop_dnsWireLabels labels (front ++ UInt8.ofNat label.length :: label)
      (read ++ [label]) fuel (fun l hl => hne l (by simp [hl]))
        (fun l hl => hshort l (by simp [hl]))
      (by simpa using hfuel)
    rw [loop, dnsWireLabelsBody_cons (hne label (by simp)) (hshort label (by simp)), ok_bind]
    simp only [append_assoc, cons_append, length_append, length_cons,
      nil_append, ← wireName_cons] at hrest
    rw [← hrest, show front.length + 1 + label.length = front.length + (label.length + 1) by omega]

/-- **The labels of a name in wire form are its labels.** -/
theorem dnsWireLabels_wireName {labels : List Bytes} (h : ValidLabels labels) :
    dnsWireLabels (wireName labels) = .ok labels := by
  have hlen : labels.length < (wireName labels).length + 1 := by
    have : labels.length ≤ (labels.map (·.length + 1)).sum := by
      clear h
      induction labels with
      | nil => simp
      | cons l ls ih => simp; omega
    rw [length_wireName, wireLength]
    omega
  exact loop_dnsWireLabels labels [] [] _ h.nonempty h.short hlen

/-! ### The order of paths -/

variable {o x n p q : Path}

/-- **Names in wire form are compared as paths.** -/
theorem canonicalDnsNameCmp_wireName (hp : IsPath p) (hq : IsPath q) :
    canonicalDnsNameCmp (wireName p.reverse) (wireName q.reverse) = .ok (scanCmp p q) := by
  unfold canonicalDnsNameCmp
  rw [dnsWireLabels_wireName hp.valid, dnsWireLabels_wireName hq.valid, ok_bind, ok_bind,
    reverse_reverse, reverse_reverse]

/-- **The interval of two names covers what the link between their paths covers.** -/
theorem canonicalNameIntervalCovers_wireName (ho : IsPath o) (hx : IsPath x) (hn : IsPath n) :
    ∃ covers, canonicalNameIntervalCovers (wireName o.reverse) (wireName x.reverse)
      (wireName n.reverse) = .ok covers ∧ (covers = true ↔ Covers o x n) := by
  have hcmp : canonicalNameIntervalCovers (wireName o.reverse) (wireName x.reverse)
      (wireName n.reverse) = .ok (match scanCmp o x with
        | .lt => scanCmp o n == .lt && scanCmp n x == .lt
        | .gt => scanCmp o n == .lt || scanCmp n x == .lt
        | .eq => scanCmp o n != .eq) := by
    unfold canonicalNameIntervalCovers
    rw [canonicalDnsNameCmp_wireName ho hx, canonicalDnsNameCmp_wireName ho hn,
      canonicalDnsNameCmp_wireName hn hx]
    rfl
  refine ⟨_, hcmp, ?_⟩
  rcases lt_trichotomy o x with h | h | h
  · rw [scanCmp_lt_iff.mpr h]
    simp only [Bool.and_eq_true, beq_iff_eq, scanCmp_lt_iff]
    unfold Covers
    simp [h, h.not_gt, h.ne]
  · rw [scanCmp_eq_iff.mpr h]
    simp only [bne_iff_ne, ne_eq, scanCmp_eq_iff]
    unfold Covers
    simp [h, eq_comm]
  · rw [scanCmp_gt_iff.mpr h]
    simp only [Bool.or_eq_true, beq_iff_eq, scanCmp_lt_iff]
    unfold Covers
    simp [h, h.not_gt, h.ne']

end RustdResolved.Dnssec.CanonicalOrder
