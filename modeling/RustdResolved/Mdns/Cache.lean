import Mathlib.Data.List.MinMax
import Mathlib.Data.List.Sort
import Mathlib.Data.Prod.Lex
import Mathlib.Algebra.Order.BigOperators.Group.List
import RustdResolved.Lib.Maps
import RustdResolved.Lib.Runs
import RustdResolved.Wire.Octets

/-! # The cache of multicast records

The cache of `mdns_full.rs`: for each key (interface, owner, type and class) the records received,
with the times they were received at and expire at. `insertBounded` drops whole keys, those of the
records that expire first, until the number of records is within the capacity. Times are natural
numbers, in nanoseconds, and a time plus a duration does not overflow. -/

namespace RustdResolved.Mdns.Cache

open List Lib Maps Runs Wire.Octets

def seconds (n : Nat) : Nat := n * 1000000000

inductive MdnsAddressFamily
  | ipv4
  | ipv6
  deriving DecidableEq, Repr

structure MdnsInterface where
  ifindex : Nat
  family : MdnsAddressFamily
  deriving DecidableEq, Repr

structure MdnsRecordKey where
  interface : MdnsInterface
  owner : Bytes
  rrType : Nat
  cls : Nat
  deriving DecidableEq, Repr

def MdnsAddressFamily.index : MdnsAddressFamily → Nat
  | .ipv4 => 0
  | .ipv6 => 1

/-- The derived order of keys goes through the fields. -/
def MdnsRecordKey.sortKey (key : MdnsRecordKey) : Nat ×ₗ Nat ×ₗ Bytes ×ₗ Nat ×ₗ Nat :=
  toLex (key.interface.ifindex, toLex (key.interface.family.index,
    toLex (key.owner, toLex (key.rrType, key.cls))))

structure MdnsCacheRecord where
  rdata : Bytes
  cacheFlush : Bool
  receivedAt : Nat
  expiresAt : Nat
  deriving DecidableEq, Repr

structure MdnsCache where
  records : FiniteMap MdnsRecordKey (List MdnsCacheRecord)
  hits : Nat
  misses : Nat

/-- A record that is put into the cache. -/
structure Insertion where
  key : MdnsRecordKey
  rdata : Bytes
  ttl : Nat
  cacheFlush : Bool
  now : Nat
  deriving DecidableEq, Repr

def mdnsCacheFlushGrace : Nat := seconds 1

/-! ### The records of one key -/

/-- A goodbye takes the records with its data out a second later. -/
def sayGoodbye (rdata : Bytes) (now : Nat) (record : MdnsCacheRecord) : MdnsCacheRecord :=
  if record.rdata = rdata ∧ now + mdnsCacheFlushGrace < record.expiresAt then
    { record with expiresAt := now + mdnsCacheFlushGrace }
  else record

/-- The cache-flush bit takes the other records out a second later, unless they came just now. -/
def flushOther (rdata : Bytes) (now : Nat) (record : MdnsCacheRecord) : MdnsCacheRecord :=
  let recentlyReceived : Bool :=
    now < record.receivedAt ∨ now - record.receivedAt < mdnsCacheFlushGrace
  if record.rdata ≠ rdata ∧ recentlyReceived = false ∧
      now + mdnsCacheFlushGrace < record.expiresAt then
    { record with expiresAt := now + mdnsCacheFlushGrace }
  else record

/-- The first record with the same data is renewed, and without one the record is added. -/
def renew (fresh : MdnsCacheRecord) : List MdnsCacheRecord → List MdnsCacheRecord
  | [] => [fresh]
  | record :: records =>
    if record.rdata = fresh.rdata then fresh :: records else record :: renew fresh records

def updateRecords (insertion : Insertion) (records : List MdnsCacheRecord) : List MdnsCacheRecord :=
  let records := records.filter fun record => insertion.now < record.expiresAt
  if insertion.ttl = 0 then records.map (sayGoodbye insertion.rdata insertion.now)
  else
    let records :=
      if insertion.cacheFlush then records.map (flushOther insertion.rdata insertion.now)
      else records
    let expiresAt := insertion.now + seconds insertion.ttl
    renew ⟨insertion.rdata, insertion.cacheFlush, insertion.now, expiresAt⟩ records

/-! ### The cache -/

variable {cache : MdnsCache} {insertion : Insertion}

namespace MdnsCache

variable {capacity : Nat}

/-- The `Default` of the source. -/
def empty : MdnsCache := ⟨∅, 0, 0⟩

def insert (cache : MdnsCache) (insertion : Insertion) : MdnsCache :=
  let records := (cache.records.lookup insertion.key).getD []
  { cache with records := cache.records.insert insertion.key (updateRecords insertion records) }

/-- The number of records. -/
def len (cache : MdnsCache) : Nat := ((values cache.records).map List.length).sum

/-- The key with the record that expires first, the first of several in the order of the keys. -/
def oldestKey (records : FiniteMap MdnsRecordKey (List MdnsCacheRecord)) : Option MdnsRecordKey :=
  let ordered := records.entries.insertionSort fun left right => left.1.sortKey ≤ right.1.sortKey
  let expiries := ordered.filterMap fun entry =>
    (entry.2.map (·.expiresAt)).min?.map fun expiry => (entry.1, expiry)
  (expiries.argmin Prod.snd).map Prod.fst

/-- The loop that drops keys. Every round drops one, so there are no more rounds than keys. -/
def evict (capacity : Nat) : Nat → MdnsCache → MdnsCache
  | 0, cache => cache
  | rounds + 1, cache =>
    if capacity < cache.len then
      match oldestKey cache.records with
      | some key => evict capacity rounds { cache with records := cache.records.erase key }
      | none => cache
    else cache

def insertBounded (capacity : Nat) (cache : MdnsCache) (insertion : Insertion) : MdnsCache :=
  if capacity = 0 then cache
  else
    let cache := cache.insert insertion
    evict capacity cache.records.keys.length cache

def statistics (cache : MdnsCache) : Nat × Nat × Nat :=
  (cache.records.keys.length, cache.hits, cache.misses)

/-- The records of a key that have not expired. The others are dropped. -/
def lookup (cache : MdnsCache) (key : MdnsRecordKey) (now : Nat) :
    List MdnsCacheRecord × MdnsCache :=
  match cache.records.lookup key with
  | none => ([], { cache with misses := min (cache.misses + 1) (2 ^ 64 - 1) })
  | some records =>
    let output := records.filter fun record => now < record.expiresAt
    if output.isEmpty then
      (output, { cache with
        records := cache.records.erase key
        misses := min (cache.misses + 1) (2 ^ 64 - 1) })
    else
      (output, { cache with
        records := cache.records.insert key output
        hits := min (cache.hits + 1) (2 ^ 64 - 1) })

/-! ### The bound on the records -/

theorem len_eq (cache : MdnsCache) :
    cache.len = (cache.records.entries.map fun entry => entry.2.length).sum := by
  simp [len, values, Function.comp_def]

theorem mem_of_oldestKey {records : FiniteMap MdnsRecordKey (List MdnsCacheRecord)}
    {key : MdnsRecordKey} (h : oldestKey records = some key) : key ∈ records := by
  obtain ⟨⟨key', expiry⟩, hargmin, rfl⟩ := Option.map_eq_some_iff.mp h
  obtain ⟨entry, hentry, hfound⟩ := mem_filterMap.mp (argmin_mem hargmin)
  obtain ⟨_, _, hpair⟩ := Option.map_eq_some_iff.mp hfound
  have hkey : entry.1 = key' := congrArg Prod.fst hpair
  have hmem : entry.1 ∈ records.keys := mem_keys_of_mem ((mem_insertionSort _).mp hentry)
  exact AList.mem_keys.mp (hkey ▸ hmem)

/-- Without a key to drop there is no record. -/
theorem len_of_oldestKey_eq_none (h : oldestKey cache.records = none) : cache.len = 0 := by
  rw [oldestKey, Option.map_eq_none_iff, argmin_eq_none, filterMap_eq_nil_iff] at h
  rw [len_eq]
  refine sum_eq_zero fun count hcount => ?_
  obtain ⟨entry, hentry, rfl⟩ := mem_map.mp hcount
  have hnone := h entry ((mem_insertionSort _).mpr hentry)
  rw [Option.map_eq_none_iff, min?_eq_none_iff, map_eq_nil_iff] at hnone
  rw [hnone]
  rfl

/-- **The loop ends within the capacity**, with a round for every key. -/
theorem len_evict_le (rounds : Nat) (cache : MdnsCache)
    (hkeys : cache.records.keys.length ≤ rounds) :
    (evict capacity rounds cache).len ≤ capacity := by
  induction rounds generalizing cache with
  | zero =>
    have hnil : cache.records.entries = [] := by
      have hlength : cache.records.entries.length = 0 := by
        simpa [AList.keys, keys] using hkeys
      exact length_eq_zero_iff.mp hlength
    have hzero : cache.len = 0 := by rw [len_eq, hnil]; rfl
    exact hzero.trans_le (Nat.zero_le capacity)
  | succ rounds ih =>
    rw [evict]
    split_ifs with hfull
    · cases holdest : oldestKey cache.records with
      | none => exact (len_of_oldestKey_eq_none holdest).trans_le (Nat.zero_le capacity)
      | some key =>
        refine ih _ ?_
        have hmem : key ∈ cache.records.keys := AList.mem_keys.mpr (mem_of_oldestKey holdest)
        rw [AList.keys_erase, length_erase_of_mem hmem]
        omega
    · exact not_lt.mp hfull

theorem len_insertBounded_le (h : cache.len ≤ capacity) :
    (insertBounded capacity cache insertion).len ≤ capacity := by
  unfold insertBounded
  split_ifs
  · exact h
  · exact len_evict_le _ _ (le_refl _)

/-! ### The bound on the keys -/

/-- Every key has a record. -/
def Filled (cache : MdnsCache) : Prop :=
  ∀ key records, cache.records.lookup key = some records → records ≠ []

theorem Filled.keys_le_len (h : cache.Filled) : cache.records.keys.length ≤ cache.len := by
  have hlength : cache.records.keys.length =
      (cache.records.entries.map fun entry => entry.2.length).length := by
    simp [AList.keys, keys]
  rw [hlength, len_eq]
  refine length_le_sum_of_one_le _ fun count hcount => ?_
  obtain ⟨⟨key, records⟩, hentry, rfl⟩ := mem_map.mp hcount
  exact length_pos_iff.mpr (h key records (AList.mem_lookup_iff.mpr hentry))

/-- A goodbye is for a key with a record that has not expired. -/
def GoodbyeKnown (cache : MdnsCache) (insertion : Insertion) : Prop :=
  insertion.ttl = 0 →
    ∃ record ∈ (cache.records.lookup insertion.key).getD [], insertion.now < record.expiresAt

theorem renew_ne_nil {fresh : MdnsCacheRecord} {records : List MdnsCacheRecord} :
    renew fresh records ≠ [] := by
  cases records with
  | nil => simp [renew]
  | cons record records =>
    rw [renew]
    split_ifs <;> simp

theorem Filled.insert (h : cache.Filled) (hgoodbye : cache.GoodbyeKnown insertion) :
    (cache.insert insertion).Filled := by
  intro key records hlookup
  rcases lookup_insert_cases hlookup with ⟨-, rfl⟩ | hbefore
  · simp only [updateRecords]
    split_ifs with hzero
    · obtain ⟨record, hrecord, hlive⟩ := hgoodbye hzero
      refine ne_nil_of_mem (mem_map_of_mem (mem_filter.mpr ⟨hrecord, ?_⟩))
      exact decide_eq_true hlive
    · exact renew_ne_nil
    · exact renew_ne_nil
  · exact h key records hbefore

theorem Filled.evict (capacity rounds : Nat) {cache : MdnsCache} (h : cache.Filled) :
    (evict capacity rounds cache).Filled := by
  induction rounds generalizing cache with
  | zero => exact h
  | succ rounds ih =>
    rw [MdnsCache.evict]
    split_ifs
    · cases oldestKey cache.records with
      | none => exact h
      | some oldest =>
        refine ih fun key records hlookup => h key records ?_
        by_cases hkey : key = oldest
        · subst hkey
          simp at hlookup
        · rwa [AList.lookup_erase_ne hkey] at hlookup
    · exact h

theorem Filled.insertBounded (h : cache.Filled) (hgoodbye : cache.GoodbyeKnown insertion) :
    (insertBounded capacity cache insertion).Filled := by
  unfold MdnsCache.insertBounded
  split_ifs
  · exact h
  · exact (h.insert hgoodbye).evict capacity _

end MdnsCache

open MdnsCache

/-- **The cache holds at most as many records as its capacity after any insertions, and at most as
many keys** as long as every goodbye is for a key with a live record. -/
theorem cache_within_capacity (capacity : Nat) (insertions : List Insertion) :
    (∀ history, history <+: insertions →
      (run (insertBounded capacity) .empty history).len ≤ capacity) ∧
    (AllSteps (insertBounded capacity) GoodbyeKnown .empty insertions →
      ∀ history, history <+: insertions →
        (run (insertBounded capacity) .empty history).statistics.1 ≤ capacity) := by
  have hrecords : ∀ history : List Insertion,
      (run (insertBounded capacity) .empty history).len ≤ capacity := fun history =>
    run_preserves (fun cache : MdnsCache => cache.len ≤ capacity)
      (fun _ insertion h => len_insertBounded_le h) history .empty (Nat.zero_le capacity)
  refine ⟨fun history _ => hrecords history, ?_⟩
  rintro hsteps history ⟨rest, rfl⟩
  have hfilled := run_invariant Filled (fun _ _ h hgoodbye => h.insertBounded hgoodbye) history
    .empty (by simp [Filled, MdnsCache.empty]) (allSteps_append.mp hsteps).1
  exact hfilled.keys_le_len.trans (hrecords history)

/-- A record comes, is renewed and says goodbye. -/
theorem cache_within_capacity_goodbye :
    let key : MdnsRecordKey := ⟨⟨1, .ipv4⟩, [1, 97, 0], 1, 1⟩
    (run (insertBounded 1) .empty
      [⟨key, [192, 0, 2, 1], 120, true, 0⟩, ⟨key, [192, 0, 2, 1], 0, true, 7⟩]).statistics.1 ≤
        1 := by
  refine (cache_within_capacity 1 _).2 ?_ _ (prefix_refl _)
  refine ⟨fun hbad => absurd hbad (by decide), fun _ => ?_, trivial⟩
  exact ⟨⟨[192, 0, 2, 1], true, 0, seconds 120⟩, by decide, by decide⟩

/-- Two goodbyes for keys the cache does not know, with room for one: both keys are there. -/
theorem goodbyes_exceed_capacity :
    (run (insertBounded 1) .empty
      [⟨⟨⟨1, .ipv4⟩, [1, 97, 0], 1, 1⟩, [192, 0, 2, 1], 0, false, 0⟩,
        ⟨⟨⟨1, .ipv4⟩, [1, 98, 0], 1, 1⟩, [192, 0, 2, 1], 0, false, 0⟩]).statistics.1 = 2 := by
  decide

/-! ### What a lookup finds -/

section
variable {rdata : Bytes} {since now : Nat} {records : List MdnsCacheRecord}
  {history : List Insertion}

section
variable (insertion : Insertion) (rdata : Bytes)

def Insertion.Announces : Prop :=
  insertion.rdata = rdata ∧ insertion.ttl ≠ 0

/-- A later insertion leaves what was announced: it is not a goodbye of a second ago, nor a cache
flush of a second ago by other data, unless that came within a second. -/
def Insertion.Spares (since now : Nat) : Prop :=
  insertion.now + seconds 1 ≤ now →
    (insertion.rdata = rdata → insertion.ttl ≠ 0) ∧
    (insertion.rdata ≠ rdata → insertion.ttl ≠ 0 → insertion.cacheFlush = true →
      insertion.now - since < seconds 1)

/-- The data was last announced at a time, with a TTL that has not passed, and nothing has ended it
since. -/
def Lives (since now : Nat) (history : List Insertion) : Prop :=
  ∃ announcement after, announcement :: after <:+ history ∧ announcement.Announces rdata ∧
    announcement.now = since ∧ now < since + seconds announcement.ttl ∧
    ∀ later ∈ after, ¬later.Announces rdata ∧ later.Spares rdata since now

/-- One of the records has the data, came at the time and has not expired. -/
def Found (since now : Nat) (records : List MdnsCacheRecord) : Prop :=
  ∃ record ∈ records, record.rdata = rdata ∧ record.receivedAt = since ∧ now < record.expiresAt

/-- What one more insertion makes of either of them. -/
def Insertion.Next (since now : Nat) (before : Prop) : Prop :=
  insertion.Announces rdata ∧ insertion.now = since ∧ now < since + seconds insertion.ttl ∨
    ¬insertion.Announces rdata ∧ insertion.Spares rdata since now ∧ before

end

theorem lives_concat : Lives rdata since now (history ++ [insertion]) ↔
    insertion.Next rdata since now (Lives rdata since now history) := by
  constructor
  · rintro ⟨announcement, after, hsuffix, hannounces, hsince, hlive, hafter⟩
    rcases suffix_concat_iff.mp hsuffix with hnil | ⟨before, heq, hbefore⟩
    · cases hnil
    · cases before with
      | nil =>
        cases heq
        exact .inl ⟨hannounces, hsince, hlive⟩
      | cons first before =>
        cases heq
        obtain ⟨hbetween, hlast⟩ := forall_mem_append.mp hafter
        obtain ⟨hnot, hspares⟩ := forall_mem_singleton.mp hlast
        exact .inr ⟨hnot, hspares, announcement, before, hbefore, hannounces, hsince,
          hlive, hbetween⟩
  · rintro (⟨hannounces, hsince, hlive⟩ |
      ⟨hnot, hspares, announcement, after, ⟨before, rfl⟩, hlives⟩)
    · exact ⟨insertion, [], ⟨history, rfl⟩, hannounces, hsince, hlive, by simp⟩
    · obtain ⟨hannounces, hsince, hlive, hafter⟩ := hlives
      refine ⟨announcement, after ++ [insertion], ⟨before, by simp⟩, hannounces, hsince, hlive, ?_⟩
      rw [forall_mem_append, forall_mem_singleton]
      exact ⟨hafter, hnot, hspares⟩

/-- No two records have the same data. -/
def Apart (records : List MdnsCacheRecord) : Prop := records.Pairwise (·.rdata ≠ ·.rdata)

/-- Some records expire earlier. What was found is still found where it is spared. -/
theorem Apart.map (h : Apart records) (change : MdnsCacheRecord → MdnsCacheRecord) (P : Prop)
    (hrdata : ∀ record, (change record).rdata = record.rdata)
    (hreceived : ∀ record, (change record).receivedAt = record.receivedAt)
    (hexpiry : ∀ record, record.rdata = rdata → record.receivedAt = since →
      (now < (change record).expiresAt ↔ P ∧ now < record.expiresAt)) :
    Apart (records.map change) ∧
      (Found rdata since now (records.map change) ↔ P ∧ Found rdata since now records) := by
  refine ⟨List.Pairwise.map change (fun first second hne => ?_) h, by grind [Found]⟩
  rwa [hrdata, hrdata]

theorem Apart.renew (fresh : MdnsCacheRecord) (h : Apart records) :
    Apart (renew fresh records) ∧ (Found rdata since now (renew fresh records) ↔
      fresh.rdata = rdata ∧ fresh.receivedAt = since ∧ now < fresh.expiresAt ∨
      fresh.rdata ≠ rdata ∧ Found rdata since now records) := by
  have hrenewed : Apart (Cache.renew fresh records) ∧ ∀ record, record ∈ Cache.renew fresh records ↔
      record = fresh ∨ record ∈ records ∧ record.rdata ≠ fresh.rdata := by
    induction records with
    | nil => simp [Cache.renew, Apart]
    | cons first records ih => grind [Cache.renew, Apart, pairwise_cons]
  exact ⟨hrenewed.1, by grind [Found]⟩

/-- A life that is cut short, at the earliest at a time. -/
theorem lt_shortened {cut : Prop} [Decidable cut] {deadline expiresAt : Nat} :
    (now < if cut ∧ deadline < expiresAt then deadline else expiresAt) ↔
      (cut → now < deadline) ∧ now < expiresAt := by
  by_cases hcut : cut
  · split_ifs <;> simp_all <;> omega
  · simp [hcut]

theorem spares_goodbye (hgoodbye : insertion.ttl = 0) : insertion.Spares rdata since now ↔
    (rdata = insertion.rdata → now < insertion.now + mdnsCacheFlushGrace) := by
  constructor
  · intro hspares hrdata
    by_contra hlate
    exact (hspares (not_lt.mp hlate)).1 hrdata.symm hgoodbye
  · intro hearly hlate
    refine ⟨fun hrdata => ?_, fun _ hannounces => absurd hgoodbye hannounces⟩
    exact absurd (hearly hrdata.symm) (not_lt.mpr hlate)

/-- With the cache-flush bit, data that came just now is spared, and that of the insertion is. -/
theorem spares_flush (httl : insertion.ttl ≠ 0) (hflush : insertion.cacheFlush = true) :
    (insertion.rdata = rdata ∨ insertion.Spares rdata since now) ↔
      ((rdata ≠ insertion.rdata ∧ mdnsCacheFlushGrace ≤ insertion.now - since) →
        now < insertion.now + mdnsCacheFlushGrace) := by
  constructor
  · rintro (hrdata | hspares) ⟨hother, hold⟩
    · exact absurd hrdata.symm hother
    · by_contra hlate
      exact absurd ((hspares (not_lt.mp hlate)).2 hother.symm httl hflush) (not_lt.mpr hold)
  · intro hearly
    refine or_iff_not_imp_left.mpr fun hother hlate => ⟨fun _ => httl, fun _ _ _ => ?_⟩
    by_contra hold
    exact absurd (hearly ⟨Ne.symm hother, not_lt.mp hold⟩) (not_lt.mpr hlate)

/-- An announcement renews its own data. -/
theorem next_of_announcement (httl : insertion.ttl ≠ 0) {before : Prop} :
    insertion.Next rdata since now before ↔
      insertion.rdata = rdata ∧ insertion.now = since ∧
      now < insertion.now + seconds insertion.ttl ∨
      insertion.rdata ≠ rdata ∧ insertion.Spares rdata since now ∧ before := by
  by_cases hrdata : insertion.rdata = rdata
  · simp only [Insertion.Next, Insertion.Announces, hrdata, httl, ne_eq,
      not_false_eq_true, and_self, true_and, not_true_eq_false, false_and, or_false]
    refine and_congr_right fun hsince => ?_
    rw [hsince]
  · simp only [Insertion.Next, Insertion.Announces, hrdata, false_and, false_or, not_false_eq_true,
      true_and, ne_eq]

/-- **One insertion**: what is found then is what it announces, or what it leaves of what was found
before. -/
theorem found_updateRecords (h : Apart records) (hnow : insertion.now ≤ now) :
    Apart (updateRecords insertion records) ∧
    (Found rdata since now (updateRecords insertion records) ↔
      insertion.Next rdata since now (Found rdata since now records)) := by
  have hlive : Apart (records.filter fun record => insertion.now < record.expiresAt) := h.filter _
  have hfound :
      Found rdata since now (records.filter fun record => insertion.now < record.expiresAt) ↔
      Found rdata since now records := by
    constructor
    · rintro ⟨record, hrecord, hfound⟩
      exact ⟨record, (mem_filter.mp hrecord).1, hfound⟩
    · rintro ⟨record, hrecord, hrdata, hsince, hexpiry⟩
      exact ⟨record, mem_filter.mpr ⟨hrecord, by simpa using hnow.trans_lt hexpiry⟩, hrdata, hsince,
        hexpiry⟩
  unfold updateRecords
  dsimp only
  rw [← hfound]
  generalize records.filter (fun record => insertion.now < record.expiresAt) = live at hlive ⊢
  by_cases hgoodbye : insertion.ttl = 0
  · obtain ⟨hapart, hspared⟩ := @Apart.map rdata since now _ hlive
      (sayGoodbye insertion.rdata insertion.now) (insertion.Spares rdata since now)
      (fun record => by unfold sayGoodbye; split_ifs <;> rfl)
      (fun record => by unfold sayGoodbye; split_ifs <;> rfl)
      (fun record hrdata _ => by
        rw [sayGoodbye, apply_ite MdnsCacheRecord.expiresAt, lt_shortened, hrdata,
          spares_goodbye hgoodbye])
    rw [if_pos hgoodbye]
    refine ⟨hapart, hspared.trans ?_⟩
    simp [Insertion.Next, Insertion.Announces, hgoodbye]
  rw [if_neg hgoodbye, next_of_announcement hgoodbye]
  by_cases hflush : insertion.cacheFlush = true
  · obtain ⟨hapart, hspared⟩ := @Apart.map rdata since now _ hlive
      (flushOther insertion.rdata insertion.now)
      (insertion.rdata = rdata ∨ insertion.Spares rdata since now)
      (fun record => by simp only [flushOther]; split_ifs <;> rfl)
      (fun record => by simp only [flushOther]; split_ifs <;> rfl)
      (fun record hrdata hsince => by
        have hrecent : decide (insertion.now < record.receivedAt ∨
              insertion.now - record.receivedAt < mdnsCacheFlushGrace) = false ↔
            mdnsCacheFlushGrace ≤ insertion.now - since := by
          rw [decide_eq_false_iff_not, hsince]
          simp only [mdnsCacheFlushGrace, seconds]
          omega
        simp only [flushOther, ← and_assoc]
        rw [apply_ite MdnsCacheRecord.expiresAt, lt_shortened, hrecent, hrdata,
          spares_flush hgoodbye hflush])
    rw [if_pos hflush]
    obtain ⟨hapart, hrenewed⟩ :=
      @Apart.renew rdata since now _ ⟨insertion.rdata, insertion.cacheFlush, insertion.now,
        insertion.now + seconds insertion.ttl⟩ hapart
    refine ⟨hapart, hrenewed.trans (or_congr_right (and_congr_right fun hother => ?_))⟩
    rw [hspared, or_iff_right hother]
  · have hspares : insertion.Spares rdata since now := fun _ =>
      ⟨fun _ => hgoodbye, fun _ _ hset => absurd hset hflush⟩
    rw [if_neg hflush]
    obtain ⟨hapart, hrenewed⟩ :=
      @Apart.renew rdata since now _ ⟨insertion.rdata, insertion.cacheFlush, insertion.now,
        insertion.now + seconds insertion.ttl⟩ hlive
    refine ⟨hapart, hrenewed.trans (or_congr_right (and_congr_right fun _ => ?_))⟩
    exact (and_iff_right hspares).symm

/-- **What is found after the insertions of one key is what lives in them.** -/
theorem found_run (hnow : ∀ insertion ∈ history, insertion.now ≤ now) :
    let records := run (fun records insertion => updateRecords insertion records) [] history
    Apart records ∧ (Found rdata since now records ↔ Lives rdata since now history) := by
  induction history using reverseRecOn with
  | nil => exact ⟨.nil, by simp [run, Found, Lives]⟩
  | append_singleton history insertion ih =>
    rw [forall_mem_append, forall_mem_singleton] at hnow
    obtain ⟨hapart, hfound⟩ := ih hnow.1
    rw [run_concat, lives_concat, ← hfound]
    exact found_updateRecords hapart hnow.2

variable {key : MdnsRecordKey}

/-- The records of a key come from its own insertions. -/
theorem records_run (history : List Insertion) :
    ((run insert .empty history).records.lookup key).getD [] =
      run (fun records insertion => updateRecords insertion records) []
        (history.filter (·.key = key)) := by
  induction history using reverseRecOn with
  | nil => simp [MdnsCache.empty, run]
  | append_singleton history insertion ih =>
    rw [run_concat, filter_append]
    by_cases hkey : insertion.key = key
    · subst hkey
      simp [MdnsCache.insert, run_concat, ih]
    · simp [MdnsCache.insert, hkey, AList.lookup_insert_ne (Ne.symm hkey), ih]

theorem lookup_eq : (cache.lookup key now).1 =
    ((cache.records.lookup key).getD []).filter (now < ·.expiresAt) := by
  unfold MdnsCache.lookup
  cases cache.records.lookup key with
  | none => rfl
  | some records => dsimp only; split_ifs <;> rfl

end

/-- **A lookup finds the data that its key's insertions leave alive**, each once, whatever was
inserted under other keys. -/
theorem lookup_exact (key : MdnsRecordKey) (now : Nat) (history : List Insertion)
    (hnow : ∀ insertion ∈ history, insertion.now ≤ now) :
    let found := ((run insert .empty history).lookup key now).1
    (found.map (·.rdata)).Nodup ∧
    (∀ rdata, rdata ∈ found.map (·.rdata) ↔
      ∃ since, Lives rdata since now (history.filter (·.key = key))) ∧
    found = ((run insert .empty (history.filter (·.key = key))).lookup key now).1 := by
  intro found
  have hown := fun rdata since => @found_run rdata since now
    (history.filter (·.key = key)) fun insertion h => hnow insertion (mem_of_mem_filter h)
  have hfound : found = _ := lookup_eq.trans (congrArg _ (records_run history))
  refine ⟨?_, fun rdata => ?_, ?_⟩
  · rw [hfound, List.Nodup, pairwise_map]
    exact (hown [] 0).1.filter _
  · simp only [← (hown _ _).2, hfound, Found]
    grind
  · rw [hfound, lookup_eq, records_run, filter_filter]
    simp

/-- A record says goodbye five seconds after it came: a second later it does not live. -/
theorem lookup_exact_goodbye :
    let key : MdnsRecordKey := ⟨⟨1, .ipv4⟩, [1, 97, 0], 1, 1⟩
    ¬∃ since, Lives [192, 0, 2, 1] since (seconds 6)
      ([⟨key, [192, 0, 2, 1], 120, true, 0⟩, ⟨key, [192, 0, 2, 1], 0, true, seconds 5⟩].filter
        (·.key = key)) := by
  intro key
  rw [← (lookup_exact key (seconds 6) _ (by decide)).2.1]
  decide

end RustdResolved.Mdns.Cache
