import RustdResolved.Lib.Maps
import RustdResolved.Wire.WrittenName

/-! # Names under a DNAME record

A DNAME record at a name redirects what is below it: the labels in front of the owner stay, the
owner is replaced by the target. `rewriteDname` looks for an owner from the name itself upwards, and
`rewriteCoveringDname` from its parent upwards. Both cut the name twice, the wire form by its length
octets and the text at its dots; that the two cuts agree is `rewriteDname_eq` and
`rewriteCoveringDname_eq`.

Every name that the resolver gets from a packet in this way has one list of labels behind its text
and its wire form (`name_representation`). -/

namespace RustdResolved.Wire.Dname

open List Lib Result Loop Maps Octets Name Presentation WrittenName DnsName

variable {dnames : FiniteMap Bytes DnsName} {labels : List Bytes} {name : DnsName}

/-! ### The code -/

/-- The text with the first labels of one name in front of another. -/
def rewriteDnameText (current : Text) (prefixLabels : Nat) (target : Text) :
    Except WireError Text :=
  let labels := if current = ['.'] then [] else current.splitOn '.'
  if labels.length < prefixLabels then .error .invalidRecord
  else
    let front := ['.'].intercalate (labels.take prefixLabels)
    .ok (match front.isEmpty, target == ['.'] with
      | true, true => ['.']
      | true, false => target
      | false, true => front
      | false, false => front ++ '.' :: target)

variable (current : DnsName) {front : List Bytes} {label : Bytes}

/-- The name with what stands before `suffixOffset` in front of the target of a DNAME record. -/
def rewriteSuffix (target : DnsName) (suffixOffset prefixLabels : Nat) :
    Except WireError DnsName := do
  let front ← indexRange current.canonicalWire 0 suffixOffset
  if front.length + target.canonicalWire.length > 255 then .error .nameTooLong
  else do
    let text ← rewriteDnameText current.text prefixLabels target.text
    .ok ⟨text, front ++ target.canonicalWire⟩

/-- A round of the loop of `rewriteDname`, at an offset and with the labels before it. -/
def rewriteDnameBody (dnames : FiniteMap Bytes DnsName) (state : Nat × Nat) :
    Except WireError (LoopFlow (Option DnsName) (Nat × Nat)) := do
  let canonical := current.canonicalWire
  let suffix ← indexRange canonical state.1 canonical.length
  match dnames.lookup suffix with
  | some target => do
    let name ← rewriteSuffix current target state.1 state.2
    .ok (.done (some name))
  | none => do
    let labelLength ← getOr .invalidRecord canonical state.1
    if labelLength = 0 then .ok (.done none)
    else if labelLength > 63 then .error .invalidRecord
    else if state.1 + (labelLength.toNat + 1) ≥ canonical.length then .error .invalidRecord
    else .ok (.again (state.1 + (labelLength.toNat + 1), state.2 + 1))

/-- The name as a DNAME record at it or above it rewrites it. -/
def rewriteDname (dnames : FiniteMap Bytes DnsName) : Except WireError (Option DnsName) :=
  loop .outOfFuel (rewriteDnameBody current dnames) (current.canonicalWire.length + 1) (0, 0)

/-- A round of the loop of `rewriteCoveringDname`; here the bound is checked first. -/
def rewriteCoveringDnameBody (dnames : FiniteMap Bytes DnsName)
    (state : Nat × Nat) : Except WireError (LoopFlow (Option DnsName) (Nat × Nat)) :=
  let canonical := current.canonicalWire
  if state.1 ≥ canonical.length then .error .invalidRecord
  else do
    let suffix ← indexRange canonical state.1 canonical.length
    match dnames.lookup suffix with
    | some target => do
      let name ← rewriteSuffix current target state.1 state.2
      .ok (.done (some name))
    | none => do
      let labelLength ← getOr .invalidRecord canonical state.1
      if labelLength = 0 then .ok (.done none)
      else if labelLength > 63 then .error .invalidRecord
      else .ok (.again (state.1 + (labelLength.toNat + 1), state.2 + 1))

def rewriteCoveringDname (dnames : FiniteMap Bytes DnsName) :
    Except WireError (Option DnsName) := do
  let firstLabel ← getOr .invalidRecord current.canonicalWire 0
  if firstLabel = 0 ∨ firstLabel > 63 then .ok none
  else
    loop .outOfFuel (rewriteCoveringDnameBody current dnames) (current.canonicalWire.length + 1)
      (firstLabel.toNat + 1, 1)

/-! ### The search for an owner -/

/-- The octets of labels on the wire, without the root label. -/
def wireFront (labels : List Bytes) : Bytes :=
  labels.flatMap fun label => UInt8.ofNat label.length :: label

theorem wireName_append (front labels : List Bytes) :
    wireName (front ++ labels) = wireFront front ++ wireName labels := by
  simp [wireName, wireFront]

theorem length_wireFront (front : List Bytes) :
    (wireFront front).length + 1 = wireLength front := by
  rw [← length_wireName]
  simp [wireName, wireFront]

/-- The target of a DNAME record with labels in front of it. -/
def graft (front : List Bytes) (target : DnsName) : DnsName :=
  ⟨if front = [] then target.text
    else if target.text = ['.'] then nameText front
    else nameText front ++ '.' :: target.text,
    wireFront (front.map lowercase) ++ target.canonicalWire⟩

theorem graft_ofLabels (h : ValidLabels labels) :
    graft front (ofLabels labels) = ofLabels (front ++ labels) := by
  have hroot := nameText_eq_dot_iff h
  unfold graft
  rw [ofLabels.eq_def (front ++ labels), map_append, wireName_append]
  congr 1
  split_ifs with hfront hlabels
  · rw [hfront]
    rfl
  · rw [hroot.mp hlabels, append_nil]
  · exact (nameText_append hfront fun hnil => hlabels (hroot.mpr hnil)).symm

/-- From the name `rest` upwards, the first one that owns a DNAME record: the labels before it and
the target of the record. -/
def findDname (dnames : FiniteMap Bytes DnsName) (front rest : List Bytes) :
    Option (List Bytes × DnsName) :=
  match dnames.lookup (wireName (rest.map lowercase)) with
  | some target => some (front, target)
  | none =>
    match rest with
    | [] => none
    | label :: rest => findDname dnames (front ++ [label]) rest

/-- The name that a DNAME record leads to, when it fits the wire format. -/
def rewriteFound : Option (List Bytes × DnsName) → Except WireError (Option DnsName)
  | none => .ok none
  | some (front, target) =>
    if (wireFront front).length + target.canonicalWire.length > 255 then .error .nameTooLong
    else .ok (some (graft front target))

/-- Where the loops stand after the labels `front`. -/
def position (front : List Bytes) : Nat × Nat := ((wireFront front).length, front.length)

/-- What a round does after the labels `front`. -/
def searchStep (dnames : FiniteMap Bytes DnsName) (front rest : List Bytes) :
    Except WireError (LoopFlow (Option DnsName) (Nat × Nat)) :=
  match dnames.lookup (wireName (rest.map lowercase)) with
  | some target => do
    let name ← rewriteFound (some (front, target))
    .ok (.done name)
  | none =>
    match rest with
    | [] => .ok (.done none)
    | label :: _ => .ok (.again (position (front ++ [label])))

/-- **A loop whose rounds are steps of the search finds the owner.** -/
theorem loop_search {body : Nat × Nat → Except WireError (LoopFlow (Option DnsName) (Nat × Nat))}
    (hbody : ∀ front rest, front ++ rest = labels → body (position front) = searchStep dnames front
      rest) {rest : List Bytes} {fuel : Nat} (hlabels : front ++ rest = labels)
    (hfuel : rest.length < fuel) :
    loop .outOfFuel body fuel (position front) = rewriteFound (findDname dnames front rest) := by
  induction rest generalizing front fuel with
  | nil =>
    obtain ⟨fuel, rfl⟩ := Nat.exists_eq_add_one.mpr (Nat.zero_lt_of_lt hfuel)
    rw [loop, hbody front [] hlabels, searchStep, findDname]
    cases dnames.lookup (wireName (map lowercase [])) with
    | none => rfl
    | some target => cases hfound : rewriteFound (some (front, target)) <;> simp [hfound]
  | cons label rest ih =>
    obtain ⟨fuel, rfl⟩ := Nat.exists_eq_add_one.mpr (Nat.zero_lt_of_lt hfuel)
    have hnext := ih (show front ++ [label] ++ rest = labels by simpa using hlabels)
      (by simpa using hfuel)
    rw [loop, hbody front (label :: rest) hlabels, searchStep, findDname]
    cases dnames.lookup (wireName ((label :: rest).map lowercase)) with
    | none => exact hnext
    | some target => cases hfound : rewriteFound (some (front, target)) <;> simp [hfound]

/-! ### The rounds of the code -/

theorem indexRange_back (front back : Bytes) :
    indexRange (front ++ back) front.length (front ++ back).length = .ok back := by
  simp [indexRange, getRange]

theorem indexRange_front (front back : Bytes) :
    indexRange (front ++ back) 0 front.length = .ok front := by
  simp [indexRange, getRange]

/-- The text is cut where the wire form is. -/
theorem rewriteDnameText_eq {rest : List Bytes} (h : ValidLabels (front ++ rest)) (target : Text) :
    rewriteDnameText (nameText (front ++ rest)) front.length target =
      .ok (if front = [] then target
        else if target = ['.'] then nameText front else nameText front ++ '.' :: target) := by
  have hlabels : (if nameText (front ++ rest) = ['.'] then []
      else (nameText (front ++ rest)).splitOn '.') = (front ++ rest).map escapeText := by
    split_ifs with hroot
    · rw [(nameText_eq_dot_iff h).mp hroot]
      rfl
    · exact splitOn_nameText fun hnil => hroot ((nameText_eq_dot_iff h).mpr hnil)
  have hfront : ((front ++ rest).map escapeText).take front.length = front.map escapeText := by
    rw [map_append, ← length_map escapeText, take_left]
  unfold rewriteDnameText
  dsimp only
  rw [hlabels, if_neg (by simp), hfront]
  by_cases hnil : front = []
  · subst hnil
    cases hdot : target == ['.'] with
    | true => simpa using (beq_iff_eq.mp hdot).symm
    | false => rfl
  · have hvalid : ∀ l ∈ front, l ≠ [] := fun l hl => h.nonempty l (by simp [hl])
    have htext : nameText front = ['.'].intercalate (front.map escapeText) := by
      rw [nameText, joinLabels, if_neg (by simpa using hnil)]
    have hsome : (nameText front).isEmpty = false := by simpa using nameText_ne_nil hvalid
    rw [← htext, hsome, if_neg hnil]
    cases hdot : target == ['.'] with
    | true => rw [if_pos (beq_iff_eq.mp hdot)]
    | false => rw [if_neg (beq_eq_false_iff_ne.mp hdot)]

variable {front rest : List Bytes}

theorem canonicalWire_split (front rest : List Bytes) :
    (ofLabels (front ++ rest)).canonicalWire =
      wireFront (front.map lowercase) ++ wireName (rest.map lowercase) := by
  rw [ofLabels, map_append, wireName_append]

theorem length_wireFront_lowercase (front : List Bytes) :
    (wireFront (front.map lowercase)).length = (wireFront front).length := by
  have h1 := length_wireFront (front.map lowercase)
  have h2 := length_wireFront front
  rw [wireLength_map_lowercase] at h1
  omega

theorem rewriteSuffix_eq (h : ValidLabels (front ++ rest)) (target : DnsName) :
    (rewriteSuffix (ofLabels (front ++ rest)) target (position front).1
      (position front).2).map some = rewriteFound (some (front, target)) := by
  unfold rewriteSuffix position
  rw [canonicalWire_split, ← length_wireFront_lowercase, indexRange_front, ok_bind, rewriteFound,
    length_wireFront_lowercase]
  split_ifs with hlong
  · rfl
  · rw [show (ofLabels (front ++ rest)).text = nameText (front ++ rest) from rfl,
      rewriteDnameText_eq h]
    rfl

/-- The octet after the labels `front`. -/
theorem getOr_position (error : WireError) (front rest : List Bytes) :
    getOr error (ofLabels (front ++ rest)).canonicalWire (position front).1 =
      .ok (match rest with
        | [] => 0
        | label :: _ => UInt8.ofNat label.length) := by
  rw [getOr_eq_ok, canonicalWire_split, position, ← length_wireFront_lowercase,
    getElem?_append_right le_rfl, Nat.sub_self]
  cases rest with
  | nil => rfl
  | cons label rest => rw [map_cons, wireName_cons, length_lowercase]; rfl

theorem position_lt (front rest : List Bytes) :
    (position front).1 < (ofLabels (front ++ rest)).canonicalWire.length := by
  rw [canonicalWire_split, position, ← length_wireFront_lowercase, length_append]
  have := length_lt_wireName (rest.map lowercase)
  omega

theorem position_append_singleton (front : List Bytes) (label : Bytes) :
    position (front ++ [label]) =
      ((position front).1 + (label.length + 1), (position front).2 + 1) := by
  simp [position, wireFront]

theorem next_position_lt :
    (position front).1 + (label.length + 1) <
      (ofLabels (front ++ label :: rest)).canonicalWire.length := by
  have hin := position_lt (front ++ [label]) rest
  rwa [append_assoc, singleton_append, position_append_singleton] at hin

/-- A round of `rewriteDname` is a step of the search. -/
theorem rewriteDnameBody_eq (h : ValidLabels (front ++ rest)) (dnames : FiniteMap Bytes DnsName) :
    rewriteDnameBody (ofLabels (front ++ rest)) dnames (position front) =
      searchStep dnames front rest := by
  have hsuffix : indexRange (ofLabels (front ++ rest)).canonicalWire (position front).1
      (ofLabels (front ++ rest)).canonicalWire.length = .ok (wireName (rest.map lowercase)) := by
    rw [canonicalWire_split, position, ← length_wireFront_lowercase, indexRange_back]
  unfold rewriteDnameBody searchStep
  dsimp only
  rw [hsuffix, ok_bind]
  cases dnames.lookup (wireName (rest.map lowercase)) with
  | some target =>
    dsimp only
    rw [← rewriteSuffix_eq h]
    cases rewriteSuffix (ofLabels (front ++ rest)) target (position front).1
      (position front).2 <;> rfl
  | none =>
    rw [getOr_position, ok_bind]
    cases rest with
    | nil => rfl
    | cons label rest =>
      have hmem : label ∈ front ++ label :: rest := by simp
      obtain ⟨hlength, hne, hle⟩ := lengthOctet (h.nonempty label hmem) (h.short label hmem)
      dsimp only
      rw [if_neg hne, if_neg (not_lt.mpr hle), hlength,
        if_neg (not_le.mpr next_position_lt), position_append_singleton]

/-- **`rewriteDname` on a name with the given labels.** -/
theorem rewriteDname_eq (h : ValidLabels labels) (dnames : FiniteMap Bytes DnsName) :
    rewriteDname (ofLabels labels) dnames = rewriteFound (findDname dnames [] labels) := by
  have hlong := length_lt_wireName (labels.map lowercase)
  rw [length_map] at hlong
  refine loop_search (fun front rest hsplit => ?_) (nil_append labels) ?_
  · subst hsplit
    exact rewriteDnameBody_eq h dnames
  · exact Nat.lt_succ_of_lt hlong

/-- **`rewriteCoveringDname` on a name with the given labels.** -/
theorem rewriteCoveringDname_eq
    (h : ValidLabels (label :: labels)) (dnames : FiniteMap Bytes DnsName) :
    rewriteCoveringDname (ofLabels (label :: labels)) dnames =
      rewriteFound (findDname dnames [label] labels) := by
  obtain ⟨hlength, hne, hle⟩ := lengthOctet (h.nonempty label (by simp)) (h.short label (by simp))
  have hlong := length_lt_wireName ((label :: labels).map lowercase)
  rw [length_map, length_cons] at hlong
  have hfirst := getOr_position .invalidRecord [] (label :: labels)
  have hstart : (label.length + 1, 1) = position [label] := by simp [position, wireFront]
  unfold rewriteCoveringDname
  rw [show getOr .invalidRecord (ofLabels (label :: labels)).canonicalWire 0 =
    .ok (UInt8.ofNat label.length) from hfirst, ok_bind, if_neg (by simp [hne, hle]),
    hlength, hstart]
  refine loop_search (fun front rest hsplit => ?_) (singleton_append) ?_
  · rw [← hsplit] at h ⊢
    rw [← rewriteDnameBody_eq h]
    unfold rewriteCoveringDnameBody rewriteDnameBody
    dsimp only
    rw [if_neg (not_le.mpr (position_lt front rest)), getOr_position]
    cases rest with
    | nil => rfl
    | cons label rest =>
      have hmem : label ∈ front ++ label :: rest := by simp
      obtain ⟨hlength, -, -⟩ := lengthOctet (h.nonempty label hmem) (h.short label hmem)
      simp only [ok_bind, hlength, if_neg (not_le.mpr next_position_lt)]
  · exact Nat.lt_of_succ_lt (Nat.lt_succ_of_lt hlong)

/-! ### Names that come from packets -/

/-- **What the search finds** is the nearest name above that has a DNAME record. -/
theorem findDname_some {target : DnsName} {before : List Bytes}
    (h : findDname dnames front rest = some (before, target)) :
    ∃ middle owner, before = front ++ middle ∧ rest = middle ++ owner ∧
      dnames.lookup (wireName (owner.map lowercase)) = some target ∧
      ∀ middle' owner', middle' ++ owner' = rest → owner.length < owner'.length →
        dnames.lookup (wireName (owner'.map lowercase)) = none := by
  induction rest generalizing front before with
  | nil =>
    unfold findDname at h
    cases hlookup : dnames.lookup (wireName (map lowercase [])) with
    | none => simp [hlookup] at h
    | some found =>
      simp only [hlookup, Option.some.injEq, Prod.mk.injEq] at h
      obtain ⟨rfl, rfl⟩ := h
      refine ⟨[], [], by simp, rfl, hlookup, fun middle' owner' hsplit hlonger => ?_⟩
      simp [(append_eq_nil_iff.mp hsplit).2] at hlonger
  | cons label rest ih =>
    unfold findDname at h
    cases hlookup : dnames.lookup (wireName ((label :: rest).map lowercase)) with
    | none =>
      simp only [hlookup] at h
      obtain ⟨middle, owner, rfl, rfl, howner, hnearest⟩ := ih h
      refine ⟨label :: middle, owner, by simp, rfl, howner, fun middle' owner' hsplit hlonger => ?_⟩
      cases middle' with
      | nil =>
        rw [nil_append] at hsplit
        rw [hsplit]
        exact hlookup
      | cons label' middle' => exact hnearest middle' owner' (cons.inj hsplit).2 hlonger
    | some found =>
      simp only [hlookup, Option.some.injEq, Prod.mk.injEq] at h
      obtain ⟨rfl, rfl⟩ := h
      refine ⟨[], label :: rest, by simp, rfl, hlookup, fun middle' owner' hsplit hlonger => ?_⟩
      have hlength := congrArg length hsplit
      rw [length_append] at hlength
      omega

theorem findDname_none
    (h : ∀ middle owner, middle ++ owner = rest →
      dnames.lookup (wireName (owner.map lowercase)) = none) :
        findDname dnames front rest = none := by
  induction rest generalizing front with
  | nil =>
    unfold findDname
    rw [h [] [] rfl]
  | cons label rest ih =>
    unfold findDname
    rw [h [] (label :: rest) rfl]
    exact ih fun middle owner hsplit => h (label :: middle) owner (by rw [cons_append, hsplit])

/-- The name that a search leads to has labels when the targets have. -/
theorem rewriteFound_wellFormed {front rest : List Bytes} (hlabels : ValidLabels (front ++ rest))
    (htargets : ∀ owner target, dnames.lookup owner = some target → target.WellFormed)
    (h : rewriteFound (findDname dnames front rest) = .ok (some name)) : name.WellFormed := by
  cases hfind : findDname dnames front rest with
  | none =>
    rw [hfind] at h
    cases h
  | some found =>
    obtain ⟨before, target⟩ := found
    obtain ⟨middle, owner, rfl, rfl, howner, -⟩ := findDname_some hfind
    obtain ⟨labels, htarget, rfl⟩ := htargets _ _ howner
    rw [hfind, rewriteFound] at h
    split_ifs at h with hlong
    rw [← append_assoc] at hlabels
    generalize front ++ middle = before at hlabels h hlong
    rw [graft_ofLabels htarget] at h
    have hbefore : ValidLabels before := hlabels.of_infix (prefix_append _ _).isInfix
    refine ⟨before ++ labels, hbefore.append htarget ?_, (Option.some.inj (Except.ok.inj h)).symm⟩
    have hfront := length_wireFront before
    have happend := wireLength_append before labels
    have hwire : (ofLabels labels).canonicalWire.length = wireLength labels := by
      rw [ofLabels, length_wireName, wireLength_map_lowercase]
    omega

/-- **Names read from packets, and names made of them by DNAME records.** -/
inductive Decoded : DnsName → Prop
  | read {packet : Bytes} {offset next : Nat} {name : DnsName}
    (hread : readName packet offset = .ok (name, next)) : Decoded name
  | dname {current name : DnsName} {dnames : FiniteMap Bytes DnsName} (hcurrent : Decoded current)
    (htargets : ∀ owner target, dnames.lookup owner = some target → Decoded target)
    (hname : rewriteDname current dnames = .ok (some name)) : Decoded name
  | coveringDname {current name : DnsName} {dnames : FiniteMap Bytes DnsName}
    (hcurrent : Decoded current)
    (htargets : ∀ owner target, dnames.lookup owner = some target → Decoded target)
    (hname : rewriteCoveringDname current dnames = .ok (some name)) : Decoded name

theorem rewriteCoveringDname_wellFormed {current : DnsName} (hcurrent : current.WellFormed)
    (htargets : ∀ owner target, dnames.lookup owner = some target → target.WellFormed)
    (h : rewriteCoveringDname current dnames = .ok (some name)) : name.WellFormed := by
  obtain ⟨labels, hlabels, rfl⟩ := hcurrent
  cases labels with
  | nil => cases h
  | cons label labels =>
    rw [rewriteCoveringDname_eq hlabels] at h
    exact rewriteFound_wellFormed (by exact hlabels) htargets h

theorem Decoded.wellFormed (h : Decoded name) : name.WellFormed := by
  induction h with
  | read hread => exact readName_wellFormed hread
  | dname _ _ hname hcurrent htargets =>
    obtain ⟨labels, hlabels, rfl⟩ := hcurrent
    rw [rewriteDname_eq hlabels] at hname
    exact rewriteFound_wellFormed (by exact hlabels) htargets hname
  | coveringDname _ _ hname hcurrent htargets =>
    exact rewriteCoveringDname_wellFormed hcurrent htargets hname

/-- Names in wire form are equal when their texts are. -/
theorem wireName_eq_iff {a b : List Bytes} (ha : ValidLabels a) (hb : ValidLabels b) :
    wireName a = wireName b ↔ nameText a = nameText b := by
  constructor
  · intro h
    have hread := readName_wireName_self ha
    rw [h, readName_wireName_self hb] at hread
    exact (congrArg (fun result => result.1.text) (Except.ok.inj hread)).symm
  · intro h
    have hdecode := decodePresentationName_nameText ha
    rw [h, decodePresentationName_nameText hb] at hdecode
    rw [Except.ok.inj hdecode]

/-- Names are equal on the wire when their texts are equal but for case. -/
theorem canonicalWire_eq_iff {other : DnsName} (h : name.WellFormed) (hother : other.WellFormed) :
    name.canonicalWire = other.canonicalWire ↔
      name.text.map Char.toLower = other.text.map Char.toLower := by
  obtain ⟨labels, hlabels, rfl⟩ := h
  obtain ⟨labels', hlabels', rfl⟩ := hother
  unfold ofLabels
  rw [nameText_toLower, nameText_toLower]
  exact wireName_eq_iff hlabels.map_lowercase hlabels'.map_lowercase

/-- **The text and the wire form of a name stand for each other.** The text goes on the wire as the
wire form, case apart, within the limit of the wire format, and is read from there as the same name;
so names are equal on the wire when their texts are equal but for case. -/
theorem name_representation {name : DnsName} (h : Decoded name) :
    (∃ wire, encodeName name.text = .ok wire ∧ lowercase wire = name.canonicalWire ∧
      wire.length ≤ 255 ∧ ∃ again next, readName wire 0 = .ok (again, next) ∧
        again.text = name.text ∧ again.canonicalWire = name.canonicalWire) ∧
    ∀ {other : DnsName}, Decoded other →
      (name.canonicalWire = other.canonicalWire ↔
        name.text.map Char.toLower = other.text.map Char.toLower) := by
  refine ⟨?_, fun hother => canonicalWire_eq_iff h.wellFormed hother.wellFormed⟩
  obtain ⟨labels, hlabels, rfl⟩ := h.wellFormed
  have hfits : (wireName labels).length ≤ 255 := by
    rw [length_wireName]
    exact hlabels.fits
  exact ⟨wireName labels, encodeName_nameText hlabels, lowercase_wireName hlabels.short, hfits,
    DnsName.ofLabels labels, _, readName_wireName_self hlabels, rfl, rfl⟩

/-- The name `A\046b.c` of a packet, under a DNAME record from `c` to `D`. -/
theorem name_representation_under_dname :
    Decoded ⟨"A\\046b.D".toList, [3, 97, 46, 98, 1, 100, 0]⟩ ∧
      ∃ wire, encodeName "A\\046b.D".toList = .ok wire ∧
        lowercase wire = [3, 97, 46, 98, 1, 100, 0] := by
  have hcurrent : readName [1, 99, 0, 3, 65, 46, 98, 0xc0, 0] 3 =
      .ok (⟨"A\\046b.c".toList, [3, 97, 46, 98, 1, 99, 0]⟩, 9) := by decide
  have htarget : readName [1, 68, 0] 0 = .ok (⟨"D".toList, [1, 100, 0]⟩, 3) := by decide
  let dnames : FiniteMap Bytes DnsName := AList.insert [1, 99, 0] ⟨"D".toList, [1, 100, 0]⟩ ∅
  have htargets : ∀ owner target, dnames.lookup owner = some target → Decoded target := by
    intro owner target hlookup
    rcases lookup_insert_cases hlookup with ⟨-, rfl⟩ | hempty
    · exact .read htarget
    · simp at hempty
  have hname : Decoded ⟨"A\\046b.D".toList, [3, 97, 46, 98, 1, 100, 0]⟩ :=
    .coveringDname (.read hcurrent) htargets (by decide)
  obtain ⟨⟨wire, hwire, hlower, -⟩, -⟩ := name_representation hname
  exact ⟨hname, wire, hwire, hlower⟩

end RustdResolved.Wire.Dname
