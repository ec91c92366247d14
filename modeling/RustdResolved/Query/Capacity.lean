import Mathlib.Algebra.Order.BigOperators.Group.Finset
import RustdResolved.Lib.Runs
import RustdResolved.Query.Store

/-! # How much the cache holds

A shard that is full makes room before it takes an entry, so no shard grows over its bound
(`Bounded.apply`). The bound of a shard is one at least, so sixteen shards have room for sixteen
entries, whatever smaller capacity was asked for. The counters of the shards know nothing of what
was evicted, so they are right as long as no insertion had to make room. -/

namespace RustdResolved.Query.Capacity

open List Lib Result Maps Runs Wire Octets PacketHeader Packet
open Dnssec.Canonical (nanosPerSecond)
open Store

variable {τ : Type} {cache : GlobalCache τ}

/-- An order in which a hash map may go over its keys. -/
structure HashOrder where
  arrange : List CacheKey → List CacheKey
  perm : ∀ keys, (arrange keys).Perm keys

def HashOrder.asListed : HashOrder := ⟨id, fun keys => .refl keys⟩

/-- The number of entries in the shards. -/
def size (cache : GlobalCache τ) : Nat := ∑ place, (cache.shards place).keys.length

/-! ### One insertion -/

/-- **Evicting frees its whole budget**, as far as there are entries. -/
theorem length_keys_evict (order : HashOrder) (shard : Shard τ) (now budget : Nat) :
    (evictExpiredOrOldest order.arrange shard now budget).keys.length =
      shard.keys.length - budget := by
  have hnodup : ∀ shard : Shard τ, (order.arrange shard.keys).Nodup := fun shard =>
    (order.perm shard.keys).nodup_iff.mpr shard.keys_nodup
  unfold evictExpiredOrOldest
  dsimp only
  set expired :=
    ((order.arrange shard.keys).filter (expiredKey shard now)).take budget with hexpired
  have hbudget : expired.length ≤ budget := length_take_le _ _
  have hsublist : expired.Sublist (order.arrange shard.keys) :=
    (take_sublist _ _).trans filter_sublist
  have hremaining := length_keys_eraseAll expired shard ((hnodup shard).sublist hsublist) (fun _
    hkey => (order.perm shard.keys).subset (hsublist.subset hkey))
  split_ifs with hdone
  · rw [hremaining]
    omega
  · set remaining := eraseAll expired shard
    set byAge := (order.arrange remaining.keys).insertionSort
      fun a b => keyGen remaining a ≤ keyGen remaining b with hbyAge
    have hperm : byAge.Perm remaining.keys :=
      (perm_insertionSort _ _).trans (order.perm remaining.keys)
    rw [length_keys_eraseAll _ remaining
      ((hperm.nodup_iff.mpr remaining.keys_nodup).sublist (take_sublist _ _))
      (fun _ hkey => hperm.subset (take_subset _ _ hkey)), length_take,
      hperm.length_eq, hremaining]
    omega

/-- What an insertion frees in the shard of its key. -/
def freed (cache : GlobalCache τ) (key : CacheKey) : Nat :=
  if cache.maxPerShard ≤ (cache.shards (shardIdx key)).keys.length then cache.maxPerShard / 16 + 1
  else 0

/-- **What an insertion does to the numbers**: the shard of its key loses what is freed and gains
one entry or none, and its counter goes up with the entry. -/
theorem insertWithScope_counts (order : HashOrder) (cache : GlobalCache τ) (key : CacheKey)
    (rcode : Nat) (answer : Bytes) (ttl : Nat) (sourceIfindex : Option Int) (tag : τ) (now : Nat) :
    ∃ cache',
      cache.insertWithScope order.arrange key rcode answer ttl sourceIfindex tag now = cache' ∧
      cache'.maxPerShard = cache.maxPerShard ∧
      (∀ other, other ≠ shardIdx key →
        cache'.shards other = cache.shards other ∧ cache'.live other = cache.live other) ∧
      ∃ new ≤ 1, (cache'.shards (shardIdx key)).keys.length =
          (cache.shards (shardIdx key)).keys.length - freed cache key + new ∧
        cache'.live (shardIdx key) = cache.live (shardIdx key) + new ∧
        ((cache.shards (shardIdx key)).keys.length = 0 → new = 1) := by
  refine ⟨_, rfl, rfl, ?_, ?_⟩
  · intro other hother
    simp [GlobalCache.insertWithScope, GlobalCache.setShard, hother]
  · unfold GlobalCache.insertWithScope GlobalCache.setShard
    simp only [if_true]
    set room := if cache.maxPerShard ≤ (cache.shards (shardIdx key)).keys.length then
      evictExpiredOrOldest order.arrange (cache.shards (shardIdx key)) now
        (cache.maxPerShard / 16 + 1)
      else cache.shards (shardIdx key) with hroom
    have hlength : room.keys.length = (cache.shards (shardIdx key)).keys.length - freed
        cache key := by
      rw [hroom]
      unfold freed
      split_ifs
      · rw [length_keys_evict]
      · rfl
    rw [length_keys_insert]
    by_cases hmem : key ∈ room
    · refine ⟨0, by omega, by rw [if_pos hmem, hlength]; rfl, by rw [if_pos hmem]; rfl, ?_⟩
      intro hempty
      have hpos := length_pos_of_mem (AList.mem_keys.mpr hmem)
      omega
    · exact ⟨1, le_refl 1, by rw [if_neg hmem, hlength], by rw [if_neg hmem], fun _ => rfl⟩

theorem sum_add_of_ne {ι : Type} [Fintype ι] [DecidableEq ι] {f g : ι → Nat} (place : ι)
    (h : ∀ other, other ≠ place → g other = f other) : ∑ i, g i + f place = ∑ i, f i + g place := by
  have hrest : ∑ i ∈ Finset.univ.erase place, g i = ∑ i ∈ Finset.univ.erase place, f i :=
    Finset.sum_congr rfl fun other hother => h other (Finset.ne_of_mem_erase hother)
  have hf := Finset.sum_erase_add Finset.univ f (Finset.mem_univ place)
  have hg := Finset.sum_erase_add Finset.univ g (Finset.mem_univ place)
  omega

/-! ### Runs of the sharded cache -/

inductive Operation (τ : Type)
  | insertWithScope (order : HashOrder) (key : CacheKey) (rcode : Nat) (answer : Bytes) (ttl : Nat)
      (sourceIfindex : Option Int) (tag : τ) (now : Nat)
  | lookup (key : CacheKey) (now : Nat)
  | setStaleWindow (staleWindow : Nat)
  | flush

/-- The cache after an operation. -/
def apply (cache : GlobalCache τ) : Operation τ → GlobalCache τ
  | .insertWithScope order key rcode answer ttl sourceIfindex tag now =>
    cache.insertWithScope order.arrange key rcode answer ttl sourceIfindex tag now
  | .lookup _ _ => cache
  | .setStaleWindow staleWindow => cache.setStaleWindow staleWindow
  | .flush => cache.flush

theorem length_keys_setStaleWindow {staleWindow : Nat} {place : Fin shardCount} :
    ((cache.setStaleWindow staleWindow).shards place).keys.length =
      (cache.shards place).keys.length := by
  simp [GlobalCache.setStaleWindow, mapValues, AList.keys, keys]

def Bounded (cache : GlobalCache τ) : Prop :=
  0 < cache.maxPerShard ∧ ∀ place, (cache.shards place).keys.length ≤ cache.maxPerShard

/-- **No operation takes a shard over its bound.** -/
theorem Bounded.apply (h : Bounded cache) (operation : Operation τ) :
    Bounded (apply cache operation) := by
  obtain ⟨hpos, hle⟩ := h
  cases operation with
  | insertWithScope order key rcode answer ttl sourceIfindex tag now =>
    obtain ⟨cache', hcache', hmax, hother, new, hnew, hlength, -, -⟩ :=
      insertWithScope_counts order cache key rcode answer ttl sourceIfindex tag now
    simp only [Capacity.apply, hcache']
    refine ⟨hmax ▸ hpos, ?_⟩
    intro place
    rw [hmax]
    by_cases hplace : place = shardIdx key
    · have hbefore := hle (shardIdx key)
      rw [hplace, hlength]
      unfold freed
      split_ifs <;> omega
    · rw [(hother place hplace).1]
      exact hle place
  | lookup key now => exact ⟨hpos, hle⟩
  | setStaleWindow staleWindow =>
    refine ⟨hpos, fun place => ?_⟩
    exact length_keys_setStaleWindow.trans_le (hle place)
  | flush => exact ⟨hpos, fun _ => Nat.zero_le _⟩

theorem Bounded.size_le (h : Bounded cache) : size cache ≤ 16 * cache.maxPerShard := by
  have hsum := Finset.sum_le_card_nsmul Finset.univ (fun place => (cache.shards place).keys.length)
    cache.maxPerShard fun place _ => h.2 place
  exact hsum

/-- The operation does not have to make room: it is no insertion, or the shard of its key is not
full. An empty shard is left as it is, even where its bound is zero. -/
def HasRoom (cache : GlobalCache τ) : Operation τ → Prop
  | .insertWithScope _ key _ _ _ _ _ _ =>
    (cache.shards (shardIdx key)).keys.length < cache.maxPerShard ∨
      (cache.shards (shardIdx key)).keys.length = 0
  | _ => True

/-- The counters add up to the number of entries. -/
def Counted (cache : GlobalCache τ) : Prop := cache.len = size cache

/-- **The counters stay right exactly if no room has to be made.** -/
theorem Counted.apply_iff (h : Counted cache) {operation : Operation τ} :
    Counted (apply cache operation) ↔ HasRoom cache operation := by
  cases operation with
  | insertWithScope order key rcode answer ttl sourceIfindex tag now =>
    obtain ⟨cache', hcache', hmax, hother, new, hnew, hlength, hlive, -⟩ :=
      insertWithScope_counts order cache key rcode answer ttl sourceIfindex tag now
    simp only [apply, hcache', HasRoom]
    have hlen := sum_add_of_ne (shardIdx key) fun other hne => (hother other hne).2
    have hsize := sum_add_of_ne (f := fun place => (cache.shards place).keys.length)
      (g := fun place => (cache'.shards place).keys.length) (shardIdx key)
      fun other hne => by rw [(hother other hne).1]
    unfold Counted GlobalCache.len size at h ⊢
    rw [hlength] at hsize
    unfold freed at hsize
    split_ifs at hsize <;> omega
  | lookup key now => exact iff_of_true h trivial
  | setStaleWindow staleWindow =>
    refine iff_of_true ?_ trivial
    refine Eq.trans h ?_
    exact (Finset.sum_congr rfl fun place _ =>
      length_keys_setStaleWindow).symm
  | flush => exact iff_of_true rfl trivial

/-- **The length that the cache reports is the number of its entries as long as no insertion meets a
full shard.** It is so after every one of the operations if and only if none of them has to make
room. -/
theorem len_eq_size (maxPerShard staleWindow : Nat) (operations : List (Operation τ)) :
    (∀ history, history <+: operations →
      (run apply (.new maxPerShard staleWindow) history).len =
        size (run apply (.new maxPerShard staleWindow) history)) ↔
      AllSteps apply HasRoom (.new maxPerShard staleWindow) operations := by
  have hstep : ∀ cache : GlobalCache τ, Counted cache → ∀ operation,
      Counted (apply cache operation) ↔ HasRoom cache operation :=
    fun _ h operation => h.apply_iff
  exact forall_history_iff hstep operations _
    (by simp [Counted, GlobalCache.new, GlobalCache.len, size])

/-- Two queries that differ in the checking mode have keys in one shard. -/
def checkedKey (checkingDisabled : Bool) : CacheKey := ⟨[0], 1, 1, checkingDisabled, 0⟩

/-- With room for one entry in a shard the second insertion replaces the first, and both are
counted. -/
theorem evicted_still_counted :
    (run apply (.new 1 0)
      [.insertWithScope .asListed (checkedKey false) 0 [] nanosPerSecond none () 0,
        .insertWithScope .asListed (checkedKey true) 0 [] nanosPerSecond none () 0]).len = 2 ∧
    size (run apply (.new 1 0)
      [.insertWithScope .asListed (checkedKey false) 0 [] nanosPerSecond none () 0,
        .insertWithScope .asListed (checkedKey true) 0 [] nanosPerSecond none () 0]) = 1 := by
  decide

/-! ### Runs of the cache -/

inductive CacheOperation (τ : Type)
  | insertScoped (order : HashOrder) (key : CacheKey) (response : Bytes)
      (sourceIfindex : Option Int)
      (tag : τ) (now : Nat)
  | getScoped (key : CacheKey) (id : Nat) (allowStale : Bool) (now : Nat)
  | setStaleRetention (staleRetention : Nat)
  | flush

/-- The cache after an operation. -/
def step (cache : Cache τ) : CacheOperation τ → Cache τ
  | .insertScoped order key response sourceIfindex tag now =>
    match cache.insertScoped order.arrange key response sourceIfindex tag now with
    | .ok (_, cache) => cache
    | .error _ => cache
  | .getScoped _ _ _ _ => cache
  | .setStaleRetention staleRetention => cache.setStaleRetention staleRetention
  | .flush => cache.flush

def StoresNothing (cache : Cache τ) : Prop := cache.capacity = 0 ∨ cache.maximumTtl = 0

/-- A response that is stored has a lifetime of its own, and the cache has room for some time. -/
theorem ttlFor_eq_some {cache : Cache τ} {header : Header} {response : Bytes} {ttl : Nat}
    (h : cache.ttlFor header response = .ok (some ttl)) :
    ¬StoresNothing cache ∧ (header.responseCode = 0 ∨ header.responseCode = 3) ∧ ttl ≠ 0 ∧
      ∃ seconds, cacheLifetime response = .ok (some seconds) ∧
        ttl = min (seconds * nanosPerSecond) cache.maximumTtl := by
  unfold Cache.ttlFor at h
  dsimp only at h
  split_ifs at h with _ _ hrcode
  · cases h
  · cases h
  · obtain ⟨lifetime, hlifetime, h⟩ := of_bind h
    cases lifetime with
    | none => cases h
    | some seconds =>
      dsimp only at h
      split_ifs at h with hzero
      · cases h
      · rw [not_or] at hzero
        cases h
        refine ⟨?_, hrcode, hzero.1, seconds, hlifetime, rfl⟩
        rintro (hcapacity | hmaximum)
        · exact hzero.2 hcapacity
        · exact hzero.1 (by rw [hmaximum]; exact Nat.min_zero _)
  · cases h

/-- What an operation does to the shards is nothing, or an operation of theirs; and a cache that
stores nothing is not inserted into. -/
theorem step_cases (cache : Cache τ) {operation : CacheOperation τ} :
    (step cache operation).capacity = cache.capacity ∧
    (step cache operation).maximumTtl = cache.maximumTtl ∧
    ((step cache operation).global = cache.global ∨
      ∃ shardOperation, (step cache operation).global = apply cache.global shardOperation ∧
        ((∃ staleWindow, shardOperation = .setStaleWindow staleWindow) ∨ shardOperation = .flush ∨
          ¬StoresNothing cache)) := by
  cases operation with
  | insertScoped order key response sourceIfindex tag now =>
    unfold step
    dsimp only
    split
    · rename_i stored cache' hinsert
      obtain ⟨header, -, hinsert⟩ := of_bind hinsert
      obtain ⟨ttl, httl, hinsert⟩ := of_bind hinsert
      cases ttl with
      | none =>
        cases hinsert
        exact ⟨rfl, rfl, Or.inl rfl⟩
      | some ttl =>
        obtain ⟨packet, -, hinsert⟩ := of_bind hinsert
        cases hinsert
        refine ⟨rfl, rfl, Or.inr ⟨.insertWithScope order key header.responseCode packet ttl
          sourceIfindex tag now, rfl, Or.inr (Or.inr (ttlFor_eq_some httl).1)⟩⟩
    · exact ⟨rfl, rfl, Or.inl rfl⟩
  | getScoped key id allowStale now => exact ⟨rfl, rfl, Or.inl rfl⟩
  | setStaleRetention staleRetention =>
    exact ⟨rfl, rfl, Or.inr ⟨.setStaleWindow staleRetention, rfl, Or.inl ⟨_, rfl⟩⟩⟩
  | flush => exact ⟨rfl, rfl, Or.inr ⟨.flush, rfl, Or.inr (Or.inl rfl)⟩⟩

/-- What holds of a cache at any time. -/
structure Kept (asked longest : Nat) (cache : Cache τ) : Prop where
  capacity : cache.capacity = asked
  maximumTtl : cache.maximumTtl = longest
  maxPerShard : cache.global.maxPerShard = max (asked / 16) 1
  bounded : Bounded cache.global
  empty : StoresNothing cache → size cache.global = 0

section
variable {asked longest : Nat} {cache : Cache τ}

theorem size_eq_zero_iff {cache : GlobalCache τ} :
    size cache = 0 ↔ ∀ place, (cache.shards place).keys.length = 0 := by
  simp [size, Finset.sum_eq_zero_iff]

theorem Kept.new (asked longest staleRetention : Nat) (storeNegative : Bool) :
    Kept asked longest (.new asked longest staleRetention storeNegative : Cache τ) where
  capacity := rfl
  maximumTtl := rfl
  maxPerShard := rfl
  bounded := ⟨by simp [Cache.new, GlobalCache.new], fun _ => Nat.zero_le _⟩
  empty := fun _ => size_eq_zero_iff.mpr fun _ => rfl

theorem Kept.step (h : Kept asked longest cache) (operation : CacheOperation τ) :
    Kept asked longest (step cache operation) := by
  obtain ⟨hcapacity, hmaximum, hglobal⟩ := step_cases cache
  have hnothing : StoresNothing (Capacity.step cache operation) ↔ StoresNothing cache := by
    unfold StoresNothing
    rw [hcapacity, hmaximum]
  obtain hsame | ⟨shardOperation, happly, hkind⟩ := hglobal
  · refine ⟨hcapacity.trans h.capacity, hmaximum.trans h.maximumTtl, ?_, ?_, ?_⟩
    · rw [hsame, h.maxPerShard]
    · rw [hsame]
      exact h.bounded
    · rw [hsame, hnothing]
      exact h.empty
  · refine ⟨hcapacity.trans h.capacity, hmaximum.trans h.maximumTtl, ?_, ?_, ?_⟩
    · rw [happly, ← h.maxPerShard]
      cases shardOperation <;> rfl
    · rw [happly]
      exact h.bounded.apply shardOperation
    · rw [happly, hnothing]
      intro hstores
      rw [size_eq_zero_iff]
      intro place
      obtain ⟨staleWindow, rfl⟩ | rfl | hnot := hkind
      · exact length_keys_setStaleWindow.trans (size_eq_zero_iff.mp (h.empty hstores) place)
      · rfl
      · exact absurd hstores hnot

end

/-! ### Filling the shards -/

/-- An answer to a query for the root with a lifetime of a minute. -/
def sampleResponse : Bytes :=
  [0, 7, 0x81, 0x80, 0, 1, 0, 1, 0, 0, 0, 0, 0, 0, 1, 0, 1, 0, 0, 1, 0, 1, 0, 0, 0,
    60, 0, 4, 192, 0, 2, 1]

def store (key : CacheKey) : CacheOperation Unit :=
  .insertScoped .asListed key sampleResponse none () 0

theorem step_store {cache : Cache Unit} (h : ¬StoresNothing cache) {key : CacheKey} :
    ∃ rcode packet ttl, step cache (store key) = { cache with
      global := cache.global.insertWithScope HashOrder.asListed.arrange key rcode packet ttl none ()
        0 } := by
  unfold StoresNothing at h
  rw [not_or] at h
  obtain ⟨header, hheader⟩ : ∃ header, Header.parse sampleResponse = .ok header := ⟨_, rfl⟩
  obtain ⟨packet, hpacket⟩ : ∃ packet, rewriteId sampleResponse 0 = .ok packet := ⟨_, rfl⟩
  have hlifetime : cacheLifetime sampleResponse = .ok (some 60) := by decide +kernel
  have hplain : (!header.isResponse || header.truncated) = false ∧ header.responseCode = 0 ∧
      header.answerCount = 1 := by
    cases hheader
    decide
  have hpositive : ¬(min (60 * nanosPerSecond) cache.maximumTtl = 0 ∨ cache.capacity = 0) := by
    have hnanos : 0 < 60 * nanosPerSecond := by decide
    omega
  have httl : cache.ttlFor header sampleResponse =
      .ok (some (min (60 * nanosPerSecond) cache.maximumTtl)) := by
    unfold Cache.ttlFor
    rw [if_neg (by rw [hplain.1]; decide), if_neg (by simp [hplain.2]), if_pos (Or.inl hplain.2.1),
      hlifetime]
    exact congrArg Except.ok (if_neg hpositive)
  refine ⟨header.responseCode, packet, min (60 * nanosPerSecond) cache.maximumTtl, ?_⟩
  simp only [step, store, Cache.insertScoped_eq_ok.mpr ⟨header, _, packet, hheader, httl,
    hpacket, rfl⟩]

/-- **A key whose shard is empty always finds room.** -/
theorem size_fill : ∀ (keys : List CacheKey) (cache : Cache Unit), ¬StoresNothing cache →
    (keys.map shardIdx).Nodup →
    (∀ key ∈ keys, (cache.global.shards (shardIdx key)).keys.length = 0) →
    size (run step cache (keys.map store)).global = size cache.global + keys.length
  | [], _, _, _, _ => (Nat.add_zero _).symm
  | key :: keys, cache, hstores, hnodup, hempty => by
    obtain ⟨rcode, packet, ttl, hstep⟩ := step_store hstores
    obtain ⟨global, hglobal, -, hother, new, hnew, hlength, -, hone⟩ :=
      insertWithScope_counts .asListed cache.global key rcode packet ttl none () 0
    have hkey := hempty key (by simp)
    have hsize := sum_add_of_ne (f := fun place => (cache.global.shards place).keys.length)
      (g := fun place => (global.shards place).keys.length) (shardIdx key)
      fun other hne => by rw [(hother other hne).1]
    rw [map_cons, nodup_cons] at hnodup
    have hnext : step cache (store key) = { cache with global } := by
      rw [hstep, hglobal]
    have ih := size_fill keys { cache with global } hstores hnodup.2 ?_
    · have hone := hone hkey
      have hgrown : size global = size cache.global + 1 := by
        unfold size
        omega
      rw [map_cons, run_cons, hnext, ih, length_cons, hgrown]
      omega
    · intro other hmem
      have hne : shardIdx other ≠ shardIdx key := fun heq =>
        hnodup.1 (mem_map.mpr ⟨other, hmem, heq⟩)
      rw [(hother _ hne).1]
      exact hempty other (by simp [hmem])

def shardKeys : List CacheKey := (List.range 16).map fun rrClass => ⟨[0], 1, rrClass, false, 0⟩

/-- **The entries stay within the capacity exactly if it is nothing, or one for each shard at
least.** A cache that was made with a smaller capacity keeps sixteen entries, unless nothing is
stored because the maximum TTL is zero. -/
theorem size_le_capacity (capacity maximumTtl staleRetention : Nat) (storeNegative : Bool) :
    (∀ operations : List (CacheOperation Unit),
      size (run step (.new capacity maximumTtl staleRetention storeNegative) operations).global ≤
        capacity) ↔ capacity = 0 ∨ 16 ≤ capacity ∨ maximumTtl = 0 := by
  constructor
  · intro hall
    by_contra hnot
    have hfill := size_fill shardKeys
      (.new capacity maximumTtl staleRetention storeNegative) ?_ (by decide) (fun _ _ => rfl)
    · have hle := hall (shardKeys.map store)
      have hlength : shardKeys.length = 16 := rfl
      omega
    · rintro (hcapacity | hmaximum)
      · exact hnot (Or.inl hcapacity)
      · exact hnot (Or.inr (Or.inr hmaximum))
  · intro hcondition operations
    have hkept := run_preserves (Kept (τ := Unit) capacity maximumTtl)
      (fun _ operation h => h.step operation) operations _ (.new _ _ staleRetention storeNegative)
    have hempty : capacity = 0 ∨ maximumTtl = 0 → _ := fun h => hkept.empty (by
      unfold StoresNothing
      rw [hkept.capacity, hkept.maximumTtl]
      exact h)
    rcases hcondition with hzero | hmany | hzero
    · rw [hempty (Or.inl hzero)]
      exact Nat.zero_le _
    · have hsize := hkept.bounded.size_le
      rw [hkept.maxPerShard] at hsize
      omega
    · rw [hempty (Or.inr hzero)]
      exact Nat.zero_le _

/-- A cache of capacity one with two entries. -/
theorem capacity_exceeded :
    size (run step (.new 1 nanosPerSecond 0 true) ((shardKeys.take 2).map store)).global = 2 := by
  decide

end RustdResolved.Query.Capacity
