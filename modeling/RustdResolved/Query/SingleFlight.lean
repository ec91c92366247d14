import Mathlib.Tactic.SplitIfs
import RustdResolved.Lib.Maps

/-! # Transactions in flight

Of several requests with one key, the first leads and the others wait for its response. An entry is
shared between the leader and its followers, and is named here by its place in the list of all
entries ever made; the table has the entries that a new request may join.

`finish` takes two locks one after the other, so it is two steps: `publish` gives the response to
the followers, `unlink` takes the entry out of the table. -/

namespace RustdResolved.Query.SingleFlight

open List Lib.Maps

variable {κ ρ : Type}

/-- The state of an entry, and the key that its leader holds. -/
structure InflightEntry (κ ρ : Type) where
  key : κ
  running : Bool
  response : Option ρ
  deriving DecidableEq, Repr

structure Inflight (κ ρ : Type) where
  table : FiniteMap κ Nat
  entries : List (InflightEntry κ ρ)

def Inflight.empty : Inflight κ ρ := ⟨∅, []⟩

inductive InflightRole
  | leader (entry : Nat)
  | follower (entry : Nat)
  deriving DecidableEq, Repr

/-- The entry that a leader or a follower holds. -/
def InflightRole.entry : InflightRole → Nat
  | .leader entry | .follower entry => entry

section
variable [DecidableEq κ]

section
variable (inflight : Inflight κ ρ)

/-- The source's `begin`, which is a keyword here. -/
def Inflight.beginFor (key : κ) : InflightRole × Inflight κ ρ :=
  match inflight.table.lookup key with
  | some entry => (.follower entry, inflight)
  | none =>
    (.leader inflight.entries.length,
      ⟨inflight.table.insert key inflight.entries.length, inflight.entries ++ [⟨key, true, none⟩]⟩)

/-- The first part of `finish`. -/
def Inflight.publish (entry : Nat) (response : Option ρ) : Inflight κ ρ :=
  { inflight with
    entries := inflight.entries.modify entry fun state =>
      { state with response, running := false } }

/-- The second part of `finish`. -/
def Inflight.unlink (key : κ) (entry : Nat) : Inflight κ ρ :=
  if inflight.table.lookup key = some entry then { inflight with table := inflight.table.erase key }
  else inflight

end

end

/-- The state that a follower finds. -/
inductive Waited (ρ : Type)
  | running
  | finished (response : Option ρ)
  deriving DecidableEq, Repr

def Inflight.wait (inflight : Inflight κ ρ) (entry : Nat) : Waited ρ :=
  match inflight.entries[entry]? with
  | some state => if state.running then .running else .finished state.response
  | none => .finished none

/-! ### What the entries hold -/

def Inflight.Made (inflight : Inflight κ ρ) (key : κ) (entry : Nat) : Prop :=
  ∃ state, inflight.entries[entry]? = some state ∧ state.key = key

theorem Inflight.Made.unique {inflight : Inflight κ ρ} {key other : κ} {entry : Nat}
    (h : inflight.Made key entry) (h' : inflight.Made other entry) : other = key := by
  obtain ⟨state, hstate, rfl⟩ := h
  obtain ⟨state', hstate', rfl⟩ := h'
  cases hstate.symm.trans hstate'
  rfl

/-- The table leads to entries of its keys, and every response fits the key of its entry. -/
structure Inflight.Fits [DecidableEq κ] (fits : κ → ρ → Prop) (inflight : Inflight κ ρ) : Prop where
  made : ∀ key entry, inflight.table.lookup key = some entry → inflight.Made key entry
  response : ∀ state ∈ inflight.entries, ∀ response, state.response = some response →
    fits state.key response

/-- No entry loses its key. -/
def Inflight.Extends (inflight inflight' : Inflight κ ρ) : Prop :=
  ∀ key entry, inflight.Made key entry → inflight'.Made key entry

theorem Inflight.extends_publish {inflight : Inflight κ ρ} {entry : Nat} {response : Option ρ} :
    inflight.Extends (inflight.publish entry response) := by
  rintro key other ⟨state, hstate, rfl⟩
  unfold Inflight.Made Inflight.publish
  rw [getElem?_modify]
  split_ifs
  · exact ⟨{ state with response, running := false }, by simp [hstate], rfl⟩
  · exact ⟨state, by simpa using hstate, rfl⟩

section
variable [DecidableEq κ] {fits : κ → ρ → Prop} {inflight : Inflight κ ρ} {key : κ}

theorem Inflight.fits_empty : (Inflight.empty : Inflight κ ρ).Fits fits where
  made := by
    intro key entry h
    cases h
  response := by
    intro state hstate
    cases hstate

theorem Inflight.extends_beginFor (key : κ) : inflight.Extends (inflight.beginFor key).2 := by
  rintro other entry ⟨state, hstate, hkey⟩
  unfold Inflight.beginFor
  split
  · exact ⟨state, hstate, hkey⟩
  · exact ⟨state, getElem?_append_left (List.getElem?_eq_some_iff.mp hstate).1 ▸ hstate, hkey⟩

/-- **Whoever begins a transaction gets an entry of its key**, as a leader or as a follower. -/
theorem Inflight.Fits.made_beginFor (h : inflight.Fits fits) (key : κ) :
    (inflight.beginFor key).2.Made key (inflight.beginFor key).1.entry := by
  unfold Inflight.beginFor
  cases hlookup : inflight.table.lookup key with
  | some entry => exact h.made key entry hlookup
  | none => exact ⟨⟨key, true, none⟩, by simp [InflightRole.entry], rfl⟩

theorem Inflight.Fits.beginFor (h : inflight.Fits fits) (key : κ) :
    (inflight.beginFor key).2.Fits fits := by
  have hext : inflight.Extends (inflight.beginFor key).2 := Inflight.extends_beginFor key
  have hmade := h.made_beginFor key
  revert hext hmade
  unfold Inflight.beginFor
  split
  · intro _ _
    exact h
  · intro hext hmade
    refine ⟨?_, ?_⟩
    · intro other entry hlookup
      rcases lookup_insert_cases hlookup with ⟨rfl, rfl⟩ | hbefore
      · exact hmade
      · exact hext other entry (h.made other entry hbefore)
    · intro state hstate response hresponse
      rcases mem_append.mp hstate with hbefore | hnew
      · exact h.response state hbefore response hresponse
      · rw [mem_singleton.mp hnew] at hresponse
        cases hresponse

theorem Inflight.Fits.publish (h : inflight.Fits fits) {entry : Nat} {response : Option ρ}
    (hmade : inflight.Made key entry) (hresponse : ∀ r, response = some r → fits key r) :
    (inflight.publish entry response).Fits fits where
  made := fun other place hlookup =>
    Inflight.extends_publish other place (h.made other place hlookup)
  response := by
    intro state hstate r hr
    obtain ⟨place, hplace⟩ := mem_iff_getElem?.mp hstate
    unfold Inflight.publish at hplace
    rw [getElem?_modify] at hplace
    obtain ⟨before, hbefore, rfl⟩ := Option.map_eq_some_iff.mp hplace
    by_cases heq : entry = place
    · simp only [heq, if_true] at hr ⊢
      exact hmade.unique ⟨before, heq ▸ hbefore, rfl⟩ ▸ hresponse r hr
    · simp only [heq, if_false] at hr ⊢
      exact h.response before (mem_of_getElem? hbefore) r hr

theorem Inflight.extends_unlink (key : κ) (entry : Nat) :
    inflight.Extends (inflight.unlink key entry) := by
  intro other place hmade
  unfold Inflight.unlink
  split_ifs
  · exact hmade
  · exact hmade

theorem Inflight.Fits.unlink (h : inflight.Fits fits) (key : κ) (entry : Nat) :
    (inflight.unlink key entry).Fits fits := by
  unfold Inflight.unlink
  split_ifs
  · refine ⟨?_, h.response⟩
    intro other place hlookup
    by_cases heq : other = key
    · subst heq
      simp at hlookup
    · rw [AList.lookup_erase_ne heq] at hlookup
      exact h.made other place hlookup
  · exact h

/-- **A follower gets a response that fits the key it began with.** -/
theorem Inflight.Fits.wait (h : inflight.Fits fits) {entry : Nat} {response : ρ}
    (hmade : inflight.Made key entry) (hwait : inflight.wait entry = .finished (some response)) :
    fits key response := by
  unfold Inflight.wait at hwait
  split at hwait
  · rename_i state hstate
    split_ifs at hwait
    exact hmade.unique ⟨state, hstate, rfl⟩ ▸
      h.response state (mem_of_getElem? hstate) response (Waited.finished.inj hwait)
  · cases hwait

end

end RustdResolved.Query.SingleFlight
