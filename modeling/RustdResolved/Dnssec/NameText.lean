import Mathlib.Data.List.DropRight
import RustdResolved.Lib.PrefixOrder
import RustdResolved.Wire.Presentation

/-! # Names as the validator compares them

The validator passes names around as text and normalises a name each time it looks at it. Every such
text stands for one *path*, the labels of the name in lower case from the root down (`Denotes`), and
each helper of the validator is an operation on paths: equality of texts is equality of paths, a
name is at or below another when its path extends the other's, the common suffix of two names is the
longest common prefix of their paths. -/

namespace RustdResolved.Dnssec.NameText

open List Wire Octets Name Presentation

variable {labels : List Bytes} {text : Text}

/-! ### The helpers of the validator -/

def isWhitespace (c : Char) : Bool :=
  let n := c.toNat
  (9 ≤ n && n ≤ 13) || n == 32 || n == 0x85 || n == 0xa0 || n == 0x1680 ||
    (0x2000 ≤ n && n ≤ 0x200a) || n == 0x2028 || n == 0x2029 || n == 0x202f || n == 0x205f ||
    n == 0x3000

def trim (text : Text) : Text := (text.dropWhile isWhitespace).rdropWhile isWhitespace

variable (name : Text)

def normalizeDnsName : Text :=
  let name := ((trim name).rdropWhile (· == '.')).map Char.toLower
  if name.isEmpty then ['.'] else name

def dnsNamesEqual (left right : Text) : Bool := normalizeDnsName left == normalizeDnsName right

def dnsNameIsAtOrBelow (parent : Text) : Bool :=
  let name := normalizeDnsName name
  let parent := normalizeDnsName parent
  parent == ['.'] || name == parent ||
    match parent.isSuffixOf? name with
    | some front => front.getLast? == some '.'
    | none => false

/-- The labels of a normalised name as text; the root has none. -/
def splitLabels : List Text := if name = ['.'] then [] else name.splitOn '.'

def splitOnce (text : Text) : Option (Text × Text) :=
  match text.dropWhile (· != '.') with
  | [] => none
  | _ :: rest => some (text.takeWhile (· != '.'), rest)

def dnsNameParent : Option Text :=
  let normalized := normalizeDnsName name
  if normalized = ['.'] then none
  else some (match splitOnce normalized with
    | some (_, parent) => parent
    | none => ['.'])

def dnsNameCommonSuffix (left right : Text) : Text :=
  let left := splitLabels (normalizeDnsName left)
  let right := splitLabels (normalizeDnsName right)
  let common :=
    ((left.reverse.zip right.reverse).takeWhile fun pair => pair.1 == pair.2).map Prod.fst
  joinLabels common.reverse

def dnsNameAncestors : List Text :=
  let labels := splitLabels (normalizeDnsName name)
  ['.'] :: (List.range labels.length).reverse.map fun index => joinLabels (labels.drop index)

/-- The ancestor of the name with the given number of labels. -/
def dnsNameSuffix (labels : Nat) : Option Text :=
  let parts := splitLabels (normalizeDnsName name)
  if labels > parts.length then none
  else if labels = 0 then some ['.']
  else some (joinLabels (parts.drop (parts.length - labels)))

/-- The wildcard below a normalised name. -/
def wildcardOf (closest : Text) : Text := if closest = ['.'] then ['*'] else '*' :: '.' :: closest

/-! ### Paths -/

/-- The labels of a name, from the root down. -/
abbrev Path := List Bytes

def pathText (path : Path) : Text := nameText path.reverse

/-- The path of a list of labels in wire order. -/
def pathOf (labels : List Bytes) : Path := (labels.map lowercase).reverse

/-- The path of a name of the wire format, in lower case. -/
structure IsPath (path : Path) : Prop where
  valid : ValidLabels path.reverse
  lower : ∀ label ∈ path, lowercase label = label

/-- **The text `text` stands for the path `path`.** -/
structure Denotes (text : Text) (path : Path) : Prop where
  isPath : IsPath path
  normalized : normalizeDnsName text = pathText path

theorem isPath_pathOf (h : ValidLabels labels) : IsPath (pathOf labels) := by
  refine ⟨?_, ?_⟩
  · rw [pathOf, reverse_reverse]
    exact ValidLabels.map_lowercase h
  · simp [pathOf, lowercase_idem]

variable {p q : Path}

theorem IsPath.of_isPrefix (hq : IsPath q) (h : p <+: q) : IsPath p :=
  ⟨ValidLabels.of_infix hq.valid (List.reverse_infix.mpr h.isInfix),
    fun l hl => hq.lower l (h.subset hl)⟩

theorem isPath_nil : IsPath [] := ⟨ValidLabels.nil, by simp⟩

theorem IsPath.pathOf_reverse (h : IsPath p) : pathOf p.reverse = p := by
  rw [pathOf, map_reverse, reverse_reverse]
  calc p.map lowercase = p.map id := map_congr_left h.lower
    _ = p := map_id p

/-! ### The text of a name under normalisation -/

theorem toLower_cases (c : Char) :
    c.toLower = c ∨ (97 ≤ c.toLower.toNat ∧ c.toLower.toNat ≤ 122) := by
  unfold Char.toLower
  split_ifs with h
  · right
    obtain ⟨h1, h2⟩ := h
    rw [ge_iff_le, UInt32.le_iff_toNat_le] at h1
    rw [UInt32.le_iff_toNat_le] at h2
    have hA : 'A'.val.toNat = 65 := rfl
    have hZ : 'Z'.val.toNat = 90 := rfl
    have hdiff : ('a'.val - 'A'.val).toNat = 32 := rfl
    simp only [Char.toNat, UInt32.toNat_add, hdiff]
    omega
  · exact Or.inl rfl

theorem toLower_idem (c : Char) : c.toLower.toLower = c.toLower := by
  rcases toLower_cases c with heq | ⟨h1, h2⟩
  · rw [heq, heq]
  · generalize c.toLower = d at h1 h2
    unfold Char.toLower
    rw [dif_neg]
    rintro ⟨-, h3⟩
    rw [UInt32.le_iff_toNat_le] at h3
    have hZ : 'Z'.val.toNat = 90 := rfl
    simp only [Char.toNat] at h1
    omega

/-- What holds of the dot and of the text of every octet holds along the text of a name. -/
theorem nameText_all {p : Char → Bool} (hdot : p '.' = true)
    (hoctets : ∀ n : Fin 256, (escapeOctet (UInt8.ofNat n.val)).all p = true)
    {labels : List Bytes} {c : Char} (hc : c ∈ nameText labels) : p c = true := by
  have hlabel : ∀ {label : Bytes}, c ∈ escapeText label → p c = true := by
    intro label hc
    obtain ⟨byte, -, hbyte⟩ := mem_flatMap.mp hc
    exact all_eq_true.mp (forall_octet (p := fun byte => (escapeOctet byte).all p = true)
      hoctets byte) c hbyte
  induction labels with
  | nil =>
    obtain rfl : c = '.' := by simpa [nameText, joinLabels] using hc
    exact hdot
  | cons label rest ih =>
    rcases rest with _ | ⟨next, rest⟩
    · rw [nameText_singleton] at hc
      exact hlabel hc
    · rw [nameText_cons label (by simp), mem_append, mem_cons] at hc
      rcases hc with hc | rfl | hc
      · exact hlabel hc
      · exact hdot
      · exact ih hc

theorem nameText_chars {c : Char} (h : c ∈ nameText labels) : isWhitespace c = false := by
  simpa using nameText_all (p := fun c => !isWhitespace c) (by decide)
    (by set_option maxRecDepth 4000 in decide) h

theorem nameText_getLast : ∀ {labels : List Bytes}, labels ≠ [] → (∀ l ∈ labels, l ≠ []) →
    (nameText labels).getLast? ≠ some '.'
  | [], h, _ => absurd rfl h
  | [label], _, hne => by
    rw [nameText_singleton]
    intro hlast
    exact dot_notMem_escapeText label (List.mem_of_getLast? hlast)
  | label :: next :: rest, _, hne => by
    have hrest : ∀ l ∈ next :: rest, l ≠ [] := fun l hl => hne l (mem_cons_of_mem _ hl)
    have htext : nameText (next :: rest) ≠ [] := nameText_ne_nil hrest
    rw [nameText_cons label (by simp), getLast?_append_of_ne_nil _ (by simp),
      getLast?_cons_of_ne_nil htext]
    exact nameText_getLast (by simp) hrest

theorem rdropWhile_eq_self {p : Char → Bool} (h : ∀ c, text.getLast? = some c → p c = false) :
    text.rdropWhile p = text := by
  rw [rdropWhile_eq_self_iff]
  intro hne
  simp [h _ (getLast?_eq_some_getLast hne)]

theorem dropWhile_eq_self {p : Char → Bool} (h : ∀ c, text.head? = some c → p c = false) :
    text.dropWhile p = text := by
  cases text with
  | nil => rfl
  | cons c rest => simp [h c rfl]

theorem trim_eq_of_ends (hhead : ∀ c, text.head? = some c → isWhitespace c = false)
    (hlast : ∀ c, text.getLast? = some c → isWhitespace c = false) : trim text = text := by
  rw [trim, dropWhile_eq_self hhead]
  exact rdropWhile_eq_self hlast

theorem trim_eq_self (h : ∀ c ∈ text, isWhitespace c = false) : trim text = text :=
  trim_eq_of_ends (fun c hc => h c (mem_of_head? hc)) fun c hc => h c (mem_of_getLast? hc)

/-- A text without white space that ends in no dot only changes its case. -/
theorem normalizeDnsName_eq (hne : text ≠ []) (hws : ∀ c ∈ text, isWhitespace c = false)
    (hlast : text.getLast? ≠ some '.') : normalizeDnsName text = text.map Char.toLower := by
  have hdot : text.rdropWhile (· == '.') = text := by
    refine rdropWhile_eq_self fun c hc => ?_
    simp only [beq_eq_false_iff_ne]
    rintro rfl
    exact hlast hc
  unfold normalizeDnsName
  rw [trim_eq_self hws, hdot]
  simp [hne]

theorem normalizeDnsName_nameText (h : ∀ l ∈ labels, l ≠ []) :
    normalizeDnsName (nameText labels) = nameText (labels.map lowercase) := by
  by_cases hroot : labels = []
  · subst hroot
    decide
  · rw [normalizeDnsName_eq (nameText_ne_nil h) (fun c hc => nameText_chars hc)
      (nameText_getLast hroot h), nameText_toLower]

/-- **The text of a name stands for the path of its labels.** -/
theorem denotes_nameText (h : ValidLabels labels) : Denotes (nameText labels) (pathOf labels) := by
  refine ⟨isPath_pathOf h, ?_⟩
  rw [normalizeDnsName_nameText h.nonempty, pathText, pathOf, reverse_reverse]

theorem denotes_pathText (h : IsPath p) : Denotes (pathText p) p := by
  have := denotes_nameText h.valid
  rwa [h.pathOf_reverse] at this

theorem pathText_injective (hp : IsPath p) (hq : IsPath q) (h : pathText p = pathText q) :
    p = q := by
  have hdecode := decodePresentationName_nameText hp.valid
  rw [show nameText p.reverse = nameText q.reverse from h,
    decodePresentationName_nameText hq.valid] at hdecode
  exact (reverse_injective (Except.ok.inj hdecode)).symm

end RustdResolved.Dnssec.NameText
