import Mathlib.Data.List.AList
import RustdResolved.Lib.Result

/-! # Finite maps

A hash map is an `AList`, whose keys are distinct. This module has the operations of a hash map that
go over all its entries, each with what it does to one key. -/

namespace RustdResolved.Lib.Maps

open List Result

universe u v
variable {α : Type u} {β : Type v} [DecidableEq α]

/-- A finite map with values of one type. -/
abbrev FiniteMap (α : Type u) (β : Type v) := AList fun _ : α => β

variable {keep : α → β → Bool} {m : FiniteMap α β} {a : α} {b : β}

/-- Drops the entries that fail a test. -/
def retain (keep : α → β → Bool) (m : FiniteMap α β) : FiniteMap α β :=
  ⟨m.entries.filter fun entry => keep entry.1 entry.2, m.nodupKeys.sublist List.filter_sublist⟩

theorem lookup_retain :
    (retain keep m).lookup a = some b ↔ m.lookup a = some b ∧ keep a b = true := by
  rw [← Option.mem_def, ← Option.mem_def, AList.mem_lookup_iff, AList.mem_lookup_iff]
  simp [retain]

theorem length_keys_retain_eq_iff :
    (retain keep m).keys.length = m.keys.length ↔ ∀ a b, m.lookup a = some b → keep a b = true := by
  simp only [AList.keys, keys, length_map, retain, length_filter_eq_length_iff]
  constructor
  · intro h a b hlookup
    exact h ⟨a, b⟩ (AList.mem_lookup_iff.mp hlookup)
  · rintro h ⟨a, b⟩ hentry
    exact h a b (AList.mem_lookup_iff.mpr hentry)

/-- Removes a list of keys, one after another. -/
def eraseAll (keys : List α) (m : FiniteMap α β) : FiniteMap α β :=
  keys.foldl (fun m key => m.erase key) m

theorem lookup_eraseAll : ∀ (keys : List α) (m : FiniteMap α β),
    (eraseAll keys m).lookup a = if a ∈ keys then none else m.lookup a
  | [], m => by simp [eraseAll]
  | key :: keys, m => by
    have ih := lookup_eraseAll keys (m.erase key)
    unfold eraseAll at ih ⊢
    rw [foldl_cons, ih]
    by_cases h : a = key
    · subst h
      simp
    · simp [h, AList.lookup_erase_ne h]

theorem lookup_insert_cases {key : α} {value : β}
    (h : (m.insert key value).lookup a = some b) : (a = key ∧ b = value) ∨ m.lookup a = some b := by
  by_cases ha : a = key
  · subst ha
    rw [AList.lookup_insert] at h
    exact Or.inl ⟨rfl, (Option.some.inj h).symm⟩
  · rw [AList.lookup_insert_ne ha] at h
    exact Or.inr h

/-! ### How many entries -/

theorem length_keys_insert (key : α) (value : β) (m : FiniteMap α β) :
    (m.insert key value).keys.length = if key ∈ m then m.keys.length else m.keys.length + 1 := by
  rw [AList.keys_insert, length_cons]
  by_cases hmem : key ∈ m
  · have hpos := length_pos_of_mem (AList.mem_keys.mpr hmem)
    rw [if_pos hmem, length_erase_of_mem (AList.mem_keys.mpr hmem)]
    omega
  · rw [if_neg hmem, erase_of_not_mem (fun hkeys => hmem (AList.mem_keys.mp hkeys))]

/-- Removing keys of the map, each once, removes as many entries. -/
theorem length_keys_eraseAll : ∀ (keys : List α) (m : FiniteMap α β), keys.Nodup → keys ⊆ m.keys →
    (eraseAll keys m).keys.length = m.keys.length - keys.length
  | [], m, _, _ => rfl
  | key :: keys, m, hnodup, hsubset => by
    obtain ⟨hnot, hnodup⟩ := nodup_cons.mp hnodup
    have hkey : key ∈ m.keys := hsubset (by simp)
    have hrest : keys ⊆ (m.erase key).keys := by
      intro other hother
      rw [AList.keys_erase, m.keys_nodup.mem_erase_iff]
      refine ⟨?_, hsubset (by simp [hother])⟩
      rintro rfl
      exact hnot hother
    have ih := length_keys_eraseAll keys (m.erase key) hnodup hrest
    rw [AList.keys_erase, length_erase_of_mem hkey] at ih
    rw [length_cons]
    refine ih.trans ?_
    omega

def mapValues {γ : Type v} (f : β → γ) (m : FiniteMap α β) : FiniteMap α γ :=
  ⟨m.entries.map fun entry => ⟨entry.1, f entry.2⟩, by
    have hkeys : (m.entries.map fun entry => (⟨entry.1, f entry.2⟩ : Sigma fun _ : α => γ)).keys =
        m.entries.keys := by
      simp [List.keys, Function.comp_def]
    rw [List.NodupKeys, hkeys]
    exact m.nodupKeys⟩

theorem lookup_mapValues {γ : Type v} {f : β → γ} {c : γ} :
    (mapValues f m).lookup a = some c ↔ ∃ b, m.lookup a = some b ∧ f b = c := by
  simp only [← Option.mem_def, AList.mem_lookup_iff]
  simp [mapValues]

def values (m : FiniteMap α β) : List β := m.entries.map fun entry => entry.2

theorem mem_values : b ∈ values m ↔ ∃ a, m.lookup a = some b := by
  simp only [values, mem_map]
  constructor
  · rintro ⟨⟨a, b'⟩, hmem, rfl⟩
    exact ⟨a, AList.mem_lookup_iff.mpr hmem⟩
  · rintro ⟨a, h⟩
    exact ⟨⟨a, b⟩, AList.mem_lookup_iff.mp h, rfl⟩

/-- Entries that are computed one after the other: all of them can be, and the keys are theirs. -/
theorem foldlM_insert_ok {ε : Type u} {τ : Type v} {α β : Type v} [DecidableEq α]
    (key : τ → Except ε α) (value : τ → β) : ∀ {items : List τ} {m m' : FiniteMap α β},
    items.foldlM (fun m item => do return m.insert (← key item) (value item)) m = .ok m' →
    (∀ item ∈ items, ∃ a, key item = .ok a) ∧
      ∀ a, a ∈ m' ↔ a ∈ m ∨ ∃ item ∈ items, key item = .ok a
  | [], m, m', h => by
    cases h
    simp
  | item :: items, m, m', h => by
    obtain ⟨next, hnext, h⟩ := of_bind h
    obtain ⟨a, ha, hnext⟩ := of_bind hnext
    cases hnext
    obtain ⟨hkeys, hmem⟩ := foldlM_insert_ok key value h
    refine ⟨forall_mem_cons.mpr ⟨⟨a, ha⟩, hkeys⟩, fun b => ?_⟩
    have hfirst : key item = .ok b ↔ b = a := by
      rw [ha, Except.ok.injEq, eq_comm]
    simp only [hmem, AList.mem_insert, mem_cons, exists_eq_or_imp, hfirst]
    tauto

end RustdResolved.Lib.Maps
