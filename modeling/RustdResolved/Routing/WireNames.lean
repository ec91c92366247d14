import RustdResolved.Routing.Table

/-! # Routing the names of queries

The name of a question reaches `select` as text, in which an octet that is no letter, digit, `-` or
`_` takes four characters. `normalizeName` holds the text to the lengths of the wire format. -/

namespace RustdResolved.Routing.WireNames

open List Lib.Result Wire Octets Name Presentation Record Packet Dnssec.NameText Table

variable {label : Bytes} {labels : List Bytes}

def presentedLength (label : Bytes) : Nat :=
  label.length + 3 * label.countP (fun byte => !isPlainOctet byte)

/-- The labels whose text has the lengths of a name on the wire. -/
structure Presentable (labels : List Bytes) : Prop where
  short : ∀ label ∈ labels, presentedLength label ≤ 63
  fits : (labels.map (presentedLength · + 1)).sum ≤ 254

theorem length_escapeText : (escapeText label).length = presentedLength label := by
  induction label with
  | nil => rfl
  | cons byte label ih =>
    rw [escapeText, flatMap_cons, length_append, ← escapeText, ih]
    cases hplain : isPlainOctet byte <;> simp [presentedLength, escapeOctet, hplain] <;> omega

theorem length_nameText (h : labels ≠ []) :
    (nameText labels).length + 1 = (labels.map (presentedLength · + 1)).sum := by
  induction labels with
  | nil => exact absurd rfl h
  | cons label rest ih =>
    cases rest with
    | nil => simp [nameText_singleton, length_escapeText]
    | cons next rest =>
      rw [nameText_cons label (by simp), map_cons, sum_cons, ← ih (by simp)]
      simp only [length_append, length_cons, length_escapeText]
      omega

/-- **A name is refused exactly if its text is too long.** -/
theorem normalizeName_nameText (h : ValidLabels labels) :
    (∀ domain, normalizeName (nameText labels) ≠ .error (.invalidDomain domain)) ↔
      Presentable labels := by
  by_cases hroot : labels = []
  · subst hroot
    have hdot : normalizeName (nameText []) = .ok ['.'] := by decide
    exact iff_of_true (fun domain => by simp [hdot]) ⟨by simp, by simp⟩
  have hne : nameText labels ≠ [] := nameText_ne_nil h.nonempty
  have htrim : (trim (nameText labels)).rdropWhile (· == '.') = nameText labels := by
    rw [trim_eq_self fun c hc => nameText_chars hc]
    refine rdropWhile_eq_self fun c hc => beq_eq_false_iff_ne.mpr ?_
    rintro rfl
    exact nameText_getLast hroot h.nonempty hc
  have hchars : ∀ c ∈ nameText labels, c.toNat < 128 ∧ c ≠ '~' := fun c hc => by
    simpa using nameText_all (p := fun c => c.toNat < 128 && c != '~') (by decide)
      (by decide +kernel) hc
  have htilde : (nameText labels).head? ≠ some '~' := fun hhead =>
    (hchars '~' (mem_of_head? hhead)).2 rfl
  have hmark : nameText labels ≠ ['~'] := fun heq => htilde (by rw [heq]; rfl)
  have hascii : (nameText labels).all (·.toNat < 128) = true := by
    simpa using fun c hc => (hchars c hc).1
  have hlabels : ((nameText labels).splitOn '.').any
      (fun label => label.isEmpty || 63 < label.length) = true ↔
      ∃ label ∈ labels, 63 < presentedLength label := by
    rw [splitOn_nameText hroot]
    simp only [any_map, any_eq_true, Function.comp_apply, Bool.or_eq_true,
      List.isEmpty_iff, escapeText_eq_nil, decide_eq_true_eq, length_escapeText]
    exact exists_congr fun label => and_congr_right fun hlabel => by simp [h.nonempty label hlabel]
  have hlength := length_nameText hroot
  unfold normalizeName
  simp only [htrim, List.isEmpty_iff, hne, beq_iff_eq, hmark, Bool.or_eq_true, decide_eq_true_eq,
    or_self, if_false, htilde, hascii, Bool.not_true, Bool.false_eq_true, false_or, hlabels]
  split_ifs with hlong
  · refine iff_of_false (fun hall => hall _ rfl) fun hfits => ?_
    rcases hlong with hlong | ⟨label, hlabel, hlong⟩
    · have := hfits.fits
      omega
    · exact absurd hlong (hfits.short label hlabel).not_gt
  · rw [not_or, not_exists] at hlong
    exact iff_of_true (fun domain => by simp) ⟨fun label hlabel =>
      not_lt.mp fun hlt => hlong.2 label ⟨hlabel, hlt⟩, by omega⟩

variable (table : RoutingTable) (globalServers fallbackServers : List SocketAddr)
  (globalDomains : List Domain) (delegates : List DnsDelegate)

theorem select_invalidDomain {name : Text} (domain : Text) :
    select table globalServers fallbackServers globalDomains delegates name none =
      .error (.invalidDomain domain) ↔ normalizeName name = .error (.invalidDomain domain) := by
  unfold select
  cases hname : normalizeName name with
  | error error => simp
  | ok normalized =>
    simp only [Option.filter_none, ok_bind, reduceCtorEq, iff_false]
    split
    · simp
    · split_ifs <;> simp

/-- **The name of a query is routed** if an interface is asked for or its text is not too long. -/
theorem query_routed_iff {query : Bytes} {question : Question}
    (hquestion : firstQuestion query = .ok question) (ifindex : Option Int) :
    (∀ domain, select table globalServers fallbackServers globalDomains delegates question.name.text
        ifindex ≠ .error (.invalidDomain domain)) ↔
      (ifindex.filter (· ≠ 0)).isSome = true ∨
        ∃ labels, ValidLabels labels ∧ question.name = DnsName.ofLabels labels ∧
        Presentable labels := by
  obtain ⟨header, -, hparse⟩ := of_bind hquestion
  have hname : question.name.WellFormed := by
    split_ifs at hparse
    exact parseQuestion_wellFormed hparse
  cases hindex : (ifindex.filter (· ≠ 0)).isSome with
  | true =>
    refine iff_of_true ?_ (Or.inl rfl)
    obtain ⟨index, hindex⟩ := Option.isSome_iff_exists.mp hindex
    unfold select validateIfindex
    simp only [hindex]
    split_ifs
    · simp
    · cases table.links.lookup index with
      | none => simp
      | some link =>
        dsimp only
        split_ifs <;> simp
  | false =>
    have hselect : select table globalServers fallbackServers globalDomains delegates
        question.name.text ifindex = select table globalServers fallbackServers
          globalDomains delegates
        question.name.text none := by
      unfold select
      rw [Option.isSome_eq_false_iff, Option.isNone_iff_eq_none] at hindex
      rw [hindex]
      rfl
    simp only [hselect, ne_eq, select_invalidDomain, Bool.false_eq_true, false_or]
    obtain ⟨labels, hlabels, htext⟩ := hname
    constructor
    · intro h
      rw [htext] at h
      exact ⟨labels, hlabels, htext, (normalizeName_nameText hlabels).mp h⟩
    · rintro ⟨labels, hlabels, htext, hfits⟩
      rw [htext]
      exact (normalizeName_nameText hlabels).mpr hfits

def labelQuery (label : Bytes) : Bytes :=
  [0, 0, 1, 0, 0, 1, 0, 0, 0, 0, 0, 0] ++ wireName [label] ++ [0, 1, 0, 1]

theorem query_routed_plain : ∃ question,
    firstQuestion (labelQuery [97]) = .ok question ∧
      ((∀ domain, select .empty [] [] [] [] question.name.text none ≠
        .error (.invalidDomain domain)) ↔
        ((none : Option Int).filter (· ≠ 0)).isSome = true ∨
          ∃ labels, ValidLabels labels ∧ question.name = DnsName.ofLabels labels ∧
          Presentable labels) :=
  have hquestion : firstQuestion (labelQuery [97]) = .ok ⟨.ofLabels [[97]], 1, 1, 19⟩ := by
    decide
  ⟨_, hquestion, query_routed_iff _ _ _ _ _ hquestion none⟩

/-- Sixteen octets that are no letters fit a label but not its text. -/
theorem query_refused : validate (labelQuery (List.replicate 16 1)) false = .ok () ∧
    ∃ question, firstQuestion (labelQuery (List.replicate 16 1)) = .ok question ∧
      select .empty [] [] [] [] question.name.text none =
        .error (.invalidDomain question.name.text) := by
  refine ⟨by decide, ⟨.ofLabels [replicate 16 1], 1, 1, 34⟩, by decide, ?_⟩
  rw [select_invalidDomain]
  decide

end RustdResolved.Routing.WireNames
