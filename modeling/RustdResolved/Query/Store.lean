import Mathlib.Algebra.BigOperators.Fin
import RustdResolved.Dnssec.Canonical
import RustdResolved.Lib.Maps
import RustdResolved.Wire.Packet

/-! # The cache of responses

A sharded cache under keys of question, checking mode and route. An entry is fresh until it expires
and may then be served stale for a while; a full shard makes room before it takes a new entry. Times
and durations are nanoseconds of the monotonic clock.

Each entry has a tag that nothing reads, which says where its response came from. -/

namespace RustdResolved.Query.Store

open Lib Result Maps Wire Octets PacketHeader Packet
open Dnssec.Canonical (nanosPerSecond)

variable {id now : Nat} {sourceIfindex : Option Int}

structure CacheKey where
  name : Bytes
  rrType : Nat
  rrClass : Nat
  checkingDisabled : Bool
  route : UInt64
  deriving DecidableEq, Repr

structure CacheEntry (τ : Type) where
  answer : Bytes
  inserted : Nat
  expiresAt : Nat
  staleUntil : Nat
  sourceIfindex : Option Int
  insertGen : Nat
  tag : τ
  deriving DecidableEq, Repr

variable {τ : Type}

def CacheEntry.isFresh (entry : CacheEntry τ) (now : Nat) : Bool := decide (now < entry.expiresAt)

def CacheEntry.isServableStale (entry : CacheEntry τ) (now : Nat) : Bool :=
  decide (entry.expiresAt ≤ now) && decide (now < entry.staleUntil)

/-! ### Shards -/

def fnvPrime : UInt64 := 0x100000001b3

/-- `h ^= value; h = h.wrapping_mul(PRIME)`. -/
def mix (h value : UInt64) : UInt64 := (h ^^^ value) * fnvPrime

/-- The final mixing of a hash. -/
def avalanche (h : UInt64) : UInt64 :=
  let x := (h ^^^ (h >>> 32)) * 0xe7037ed1a0b428db
  x ^^^ (x >>> 32)

/-- The loop over the labels of a name. Each round takes an octet at least. -/
def hashLabels : Nat → UInt64 → Bytes → UInt64
  | 0, h, _ | _, h, [] => avalanche h
  | fuel + 1, h, length :: rest =>
    if length = 0 then avalanche (mix h 0xff)
    else if 63 < length.toNat ∨ rest.length < length.toNat then h ^^^ 0xDEADBEEFCAFEBABE
    else
      let label := (rest.take length.toNat).map fun byte => (toAsciiLowercase byte).toUInt64
      hashLabels fuel (mix (label.foldl mix h) 0x2e) (rest.drop length.toNat)

def dnsNameHash (wire : Bytes) : UInt64 := hashLabels wire.length 0xcbf29ce484222325 wire

/-- The cache is made with four shard bits. -/
def shardCount : Nat := 16

instance : NeZero shardCount := ⟨by decide⟩

abbrev Shard (τ : Type) := FiniteMap CacheKey (CacheEntry τ)

/-- The shards, each with the counter that `len` adds up. -/
structure GlobalCache (τ : Type) where
  shards : Fin shardCount → Shard τ
  live : Fin shardCount → Nat
  maxPerShard : Nat
  staleWindow : Nat
  gen : Nat

def GlobalCache.new (maxPerShard staleWindow : Nat) : GlobalCache τ :=
  ⟨fun _ => ∅, fun _ => 0, maxPerShard, staleWindow, 1⟩

def shardIdx (key : CacheKey) : Fin shardCount :=
  Fin.ofNat shardCount
    (dnsNameHash key.name ^^^ (UInt64.ofNat key.rrType <<< 16) ^^^ UInt64.ofNat key.rrClass).toNat

inductive Lookup (τ : Type)
  | fresh (entry : CacheEntry τ)
  | stale (entry : CacheEntry τ)
  | miss

section
variable (cache : GlobalCache τ)

/-- What is stored under a key, whatever its age. -/
def GlobalCache.stored (key : CacheKey) : Option (CacheEntry τ) :=
  (cache.shards (shardIdx key)).lookup key

def GlobalCache.lookup (key : CacheKey) (now : Nat) : Lookup τ :=
  match cache.stored key with
  | some entry =>
    if entry.isFresh now then .fresh entry
    else if entry.isServableStale now then .stale entry
    else .miss
  | none => .miss

def clampTtl (ttl rcode : Nat) : Nat :=
  let maximum :=
    if rcode = 3 ∨ rcode = 0 then (if rcode = 3 then 1800 else 3600) * nanosPerSecond
    else 86400 * nanosPerSecond
  max nanosPerSecond (min ttl maximum)

/-- An entry that may neither be served fresh nor stale. -/
def expiredKey (shard : Shard τ) (now : Nat) (key : CacheKey) : Bool :=
  match shard.lookup key with
  | some entry => !entry.isFresh now && !entry.isServableStale now
  | none => false

def keyGen (shard : Shard τ) (key : CacheKey) : Nat :=
  match shard.lookup key with
  | some entry => entry.insertGen
  | none => 0

/-- Removes at most `budget` entries: expired ones in the order of the hash map, then the oldest. -/
def evictExpiredOrOldest (order : List CacheKey → List CacheKey) (shard : Shard τ)
    (now budget : Nat) : Shard τ :=
  let expired := ((order shard.keys).filter (expiredKey shard now)).take budget
  let remaining := eraseAll expired shard
  if budget ≤ expired.length then remaining
  else
    let byAge := (order remaining.keys).insertionSort fun a b =>
      keyGen remaining a ≤ keyGen remaining b
    eraseAll (byAge.take (budget - expired.length)) remaining

def GlobalCache.setShard (place : Fin shardCount) (shard : Shard τ) (live : Nat) : GlobalCache τ :=
  { cache with
    shards := fun other => if other = place then shard else cache.shards other
    live := fun other => if other = place then live else cache.live other }

end

def GlobalCache.insertWithScope (order : List CacheKey → List CacheKey) (cache : GlobalCache τ)
    (key : CacheKey) (rcode : Nat) (answer : Bytes) (ttl : Nat) (sourceIfindex : Option Int)
    (tag : τ) (now : Nat) : GlobalCache τ :=
  let ttl := clampTtl ttl rcode
  let entry : CacheEntry τ :=
    { answer, inserted := now, expiresAt := now + ttl, staleUntil := now + ttl + cache.staleWindow,
      sourceIfindex, insertGen := cache.gen, tag }
  let place := shardIdx key
  let shard := cache.shards place
  let shard :=
    if cache.maxPerShard ≤ shard.keys.length then
      evictExpiredOrOldest order shard now (cache.maxPerShard / 16 + 1)
    else shard
  let live := if key ∈ shard then cache.live place else cache.live place + 1
  { cache.setShard place (shard.insert key entry) live with gen := cache.gen + 1 }

section
variable (cache : GlobalCache τ)

def GlobalCache.setStaleWindow (staleWindow : Nat) : GlobalCache τ :=
  { cache with
    staleWindow := staleWindow
    shards := fun place => mapValues
      (fun entry => { entry with staleUntil := entry.expiresAt + staleWindow })
        (cache.shards place) }

def GlobalCache.flush : GlobalCache τ :=
  { cache with shards := fun _ => ∅, live := fun _ => 0 }

/-- The source's `len`, which trusts the counters. -/
def GlobalCache.len : Nat := ∑ place, cache.live place

end

/-! ### The cache -/

structure Cache (τ : Type) where
  global : GlobalCache τ
  capacity : Nat
  maximumTtl : Nat
  storeNegative : Bool

def Cache.new (capacity maximumTtl staleRetention : Nat) (storeNegative : Bool) : Cache τ :=
  ⟨.new (max (capacity / 16) 1) staleRetention, capacity, maximumTtl, storeNegative⟩

/-- A response from the cache, with the link it once came from and its tag. -/
structure Hit (τ : Type) where
  packet : Bytes
  ifindex : Option Int
  tag : τ
  deriving DecidableEq, Repr

/-- The response of an entry as it is at a time, for a query with the given identifier. -/
def CacheEntry.serve (entry : CacheEntry τ) (id now : Nat) : Option (Hit τ) :=
  let isStale := decide (entry.expiresAt ≤ now)
  let elapsed := min ((now - entry.inserted) / nanosPerSecond) 0xffffffff
  match (do ageTtls (← rewriteId entry.answer id) elapsed isStale) with
  | .ok packet => some ⟨packet, entry.sourceIfindex, entry.tag⟩
  | .error _ => none

def Cache.getScoped (cache : Cache τ) (key : CacheKey) (id : Nat) (allowStale : Bool) (now : Nat) :
    Option (Hit τ) :=
  match cache.global.lookup key now with
  | .fresh entry => entry.serve id now
  | .stale entry => if allowStale then entry.serve id now else none
  | .miss => none

/-- The time a response may be kept: nothing for one that is not cached. -/
def Cache.ttlFor (cache : Cache τ) (header : Header) (response : Bytes) :
    Except WireError (Option Nat) :=
  let rcode := header.responseCode
  if !header.isResponse || header.truncated then .ok none
  else if (rcode != 0 || header.answerCount == 0) && !cache.storeNegative then .ok none
  else if rcode = 0 ∨ rcode = 3 then do
    match ← cacheLifetime response with
    | none => .ok none
    | some seconds =>
      let ttl := min (seconds * nanosPerSecond) cache.maximumTtl
      .ok (if ttl = 0 ∨ cache.capacity = 0 then none else some ttl)
  else .ok none

/-- Stores a response, and says whether it did. -/
def Cache.insertScoped (order : List CacheKey → List CacheKey) (cache : Cache τ) (key : CacheKey)
    (response : Bytes) (sourceIfindex : Option Int) (tag : τ) (now : Nat) :
    Except WireError (Bool × Cache τ) := do
  let header ← Header.parse response
  match ← cache.ttlFor header response with
  | none => .ok (false, cache)
  | some ttl => do
    let packet ← rewriteId response 0
    .ok (true, { cache with
      global := cache.global.insertWithScope order key header.responseCode packet ttl sourceIfindex
        tag now })

def Cache.flush (cache : Cache τ) : Cache τ := { cache with global := cache.global.flush }

def Cache.setStaleRetention (cache : Cache τ) (staleRetention : Nat) : Cache τ :=
  { cache with global := cache.global.setStaleWindow staleRetention }

variable {key : CacheKey} {order : List CacheKey → List CacheKey}

theorem Cache.insertScoped_eq_ok {cache cache' : Cache τ} {response : Bytes} {tag : τ} :
    cache.insertScoped order key response sourceIfindex tag now = .ok (true, cache') ↔
      ∃ header ttl packet, Header.parse response = .ok header ∧
        cache.ttlFor header response = .ok (some ttl) ∧ rewriteId response 0 = .ok packet ∧
        cache' = { cache with
          global :=
            cache.global.insertWithScope order key header.responseCode packet ttl sourceIfindex
            tag now } := by
  constructor
  · intro h
    obtain ⟨header, hheader, h⟩ := of_bind h
    obtain ⟨ttl, httl, h⟩ := of_bind h
    cases ttl with
    | none => cases h
    | some ttl =>
      obtain ⟨packet, hpacket, h⟩ := of_bind h
      cases h
      exact ⟨header, ttl, packet, hheader, httl, hpacket, rfl⟩
  · rintro ⟨header, ttl, packet, hheader, httl, hpacket, rfl⟩
    unfold Cache.insertScoped
    rw [hheader, ok_bind, httl, ok_bind]
    rw [hpacket]
    rfl

/-! ### What is stored -/

def GlobalCache.entryFor (cache : GlobalCache τ) (rcode : Nat) (answer : Bytes) (ttl : Nat)
    (sourceIfindex : Option Int) (tag : τ) (now : Nat) : CacheEntry τ :=
  ⟨answer, now, now + clampTtl ttl rcode, now + clampTtl ttl rcode + cache.staleWindow,
    sourceIfindex, cache.gen, tag⟩

/-- **What an insertion stores**: after it there is the new entry and what was there before. -/
theorem GlobalCache.stored_insertWithScope
    {cache : GlobalCache τ} {other : CacheKey} {rcode ttl : Nat} {answer : Bytes}
    {tag : τ} {entry : CacheEntry τ}
    (h : (cache.insertWithScope order key rcode answer ttl sourceIfindex tag now).stored other =
      some entry) :
    (other = key ∧ entry = cache.entryFor rcode answer ttl sourceIfindex tag now) ∨
      cache.stored other = some entry := by
  unfold GlobalCache.stored at h
  by_cases hplace : shardIdx other = shardIdx key
  · simp only [GlobalCache.insertWithScope, GlobalCache.setShard, hplace, if_true] at h
    rcases lookup_insert_cases h with hnew | hbefore
    · exact Or.inl hnew
    · refine Or.inr ?_
      unfold GlobalCache.stored
      rw [hplace]
      split_ifs at hbefore
      · simp only [evictExpiredOrOldest] at hbefore
        split_ifs at hbefore
        · rw [lookup_eraseAll] at hbefore
          split_ifs at hbefore
          exact hbefore
        · rw [lookup_eraseAll, lookup_eraseAll] at hbefore
          split_ifs at hbefore
          exact hbefore
      · exact hbefore
  · simp only [GlobalCache.insertWithScope, GlobalCache.setShard, hplace, if_false] at h
    exact Or.inr h

theorem GlobalCache.lookup_eq_fresh {cache : GlobalCache τ} {entry : CacheEntry τ} :
    cache.lookup key now = .fresh entry ↔ cache.stored key = some entry ∧
      now < entry.expiresAt := by
  unfold GlobalCache.lookup CacheEntry.isFresh
  cases cache.stored key with
  | none => simp
  | some other =>
    dsimp only
    split_ifs with hfresh
    · rw [decide_eq_true_eq] at hfresh
      simp only [Lookup.fresh.injEq, Option.some.injEq]
      exact ⟨fun h => ⟨h, h ▸ hfresh⟩, fun h => h.1⟩
    all_goals
      refine iff_of_false (by simp) fun h => hfresh (decide_eq_true ?_)
      rw [Option.some.inj h.1]
      exact h.2

/-- Everything in the cache fits its key, with its tag. -/
def Cache.Holds (fits : CacheKey → Bytes → τ → Prop) (cache : Cache τ) : Prop :=
  ∀ key entry, cache.global.stored key = some entry → fits key entry.answer entry.tag

section
variable {fits : CacheKey → Bytes → τ → Prop} {cache : Cache τ}

theorem Cache.holds_flush : cache.flush.Holds fits := by
  intro key entry h
  cases h

theorem Cache.Holds.setStaleRetention (h : cache.Holds fits) (staleRetention : Nat) :
    (cache.setStaleRetention staleRetention).Holds fits := by
  intro key entry hstored
  obtain ⟨before, hbefore, rfl⟩ := lookup_mapValues.mp hstored
  exact h key before hbefore

/-- An insertion stores a response with the identifier zero. -/
theorem Cache.Holds.insertScoped {response : Bytes} {tag : τ}
    {result : Bool × Cache τ} (h : cache.Holds fits)
    (hfits : ∀ packet, rewriteId response 0 = .ok packet → fits key packet tag)
    (hinsert : cache.insertScoped order key response sourceIfindex tag now = .ok result) :
    result.2.Holds fits := by
  obtain ⟨header, -, hinsert⟩ := of_bind hinsert
  obtain ⟨ttl, -, hinsert⟩ := of_bind hinsert
  cases ttl with
  | none =>
    cases hinsert
    exact h
  | some ttl =>
    obtain ⟨packet, hpacket, hinsert⟩ := of_bind hinsert
    cases hinsert
    intro other entry hstored
    rcases GlobalCache.stored_insertWithScope hstored with ⟨rfl, rfl⟩ | hbefore
    · exact hfits packet hpacket
    · exact h other entry hbefore

/-- **A hit is what fits the key it was asked for**, with another identifier and aged TTLs. -/
theorem Cache.Holds.getScoped {allowStale : Bool} {hit : Hit τ}
    (h : cache.Holds fits) (hget : cache.getScoped key id allowStale now = some hit) :
    ∃ answer packet elapsed stale, fits key answer hit.tag ∧ rewriteId answer id = .ok packet ∧
      ageTtls packet elapsed stale = .ok hit.packet := by
  have hserved : ∃ entry, cache.global.stored key = some entry ∧ entry.serve id now = some hit := by
    unfold Cache.getScoped at hget
    split at hget
    · exact ⟨_, (GlobalCache.lookup_eq_fresh.mp ‹_›).1, hget⟩
    · rename_i entry hstale
      split_ifs at hget
      unfold GlobalCache.lookup at hstale
      split at hstale
      · split_ifs at hstale
        cases hstale
        exact ⟨_, ‹_›, hget⟩
      · cases hstale
    · cases hget
  obtain ⟨entry, hstored, hserve⟩ := hserved
  simp only [CacheEntry.serve] at hserve
  split at hserve
  · rename_i aged haged
    cases hserve
    obtain ⟨packet, hpacket, haged⟩ := of_bind haged
    exact ⟨entry.answer, packet, _, _, h key entry hstored, hpacket, haged⟩
  · cases hserve

end

end RustdResolved.Query.Store
