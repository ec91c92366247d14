import RustdResolved.Query.Ageing
import RustdResolved.Query.Capacity

/-! # How long a response is fresh

The lifetime of a response is the least TTL of its answer section, but for a name error and for an
empty answer section it is what the SOA records of the authority section allow. The cache cuts it to
its own bounds. -/

namespace RustdResolved.Query.Lifetimes

open Lib Result Runs Wire Octets Name PacketHeader Record Packet RelocatePacket
open Dnssec.Canonical (nanosPerSecond)
open Store Ageing Capacity

variable {τ : Type} {cache cache' : Cache τ} {key : CacheKey} {response : Bytes}
  {sections : Sections}
  {sourceIfindex : Option Int} {tag : τ} {now : Nat}

def answerRecords (sections : Sections) : List ResourceRecord :=
  (sections.records.take sections.header.answerCount).filter (·.rrType != typeOpt)

/-- What the SOA records of the authority section allow, in seconds. -/
def negativeTtls (packet : Bytes) (sections : Sections) : List Nat :=
  ((sections.records.drop sections.header.answerCount).take
    sections.header.authorityCount).filterMap (negativeTtl packet)

/-- A name error, or an answer without a record of the type that was asked for. -/
def IsNegative (sections : Sections) : Prop :=
  sections.header.responseCode = 3 ∨ ∀ question ∈ sections.questions,
    question.rrType ≠ typeAny ∧ ∀ record ∈ answerRecords sections, record.rrType ≠ question.rrType

/-- The TTLs that a response is to be forgotten after. -/
def Limits (packet : Bytes) (sections : Sections) (ttl : Nat) : Prop :=
  (∃ record ∈ answerRecords sections, record.ttl = ttl) ∨
    IsNegative sections ∧ ttl ∈ negativeTtls packet sections

/-- The TTLs that the lifetime of a response is the least of. -/
def lifetimeTtls (packet : Bytes) (sections : Sections) : List Nat :=
  if sections.header.responseCode = 3 ∨ sections.header.answerCount = 0 then
    negativeTtls packet sections
  else (answerRecords sections).map (·.ttl)

/-- The longest time that the cache keeps a response for. -/
def longestLifetime (cache : Cache τ) (rcode : Nat) : Nat :=
  max nanosPerSecond
    (min cache.maximumTtl ((if rcode = 3 then 1800 else 3600) * nanosPerSecond))

theorem le_of_min?_iff {values : List Nat} {least bound : Nat} (h : values.min? = some least) :
    least ≤ bound ↔ ∃ value ∈ values, value ≤ bound := by
  obtain ⟨hmem, hle⟩ := List.min?_eq_some_iff.mp h
  exact ⟨fun hbound => ⟨least, hmem, hbound⟩, fun ⟨value, hvalue, hbound⟩ =>
    (hle value hvalue).trans hbound⟩

theorem cacheLifetime_eq_some {seconds : Nat} (hparse : parseSections response = .ok sections)
    (h : cacheLifetime response = .ok (some seconds)) :
    (lifetimeTtls response sections).min? = some seconds := by
  unfold cacheLifetime at h
  unfold lifetimeTtls
  rw [hparse, ok_bind] at h
  dsimp only at h
  split_ifs at h with hdirection htsig hnegative
  · cases h
  · rw [if_pos hnegative]
    exact Except.ok.inj h
  · -- no record is a TSIG record, so only the OPT records are left out
    have hanswers : answerRecords sections =
        (sections.records.take sections.header.answerCount).filter
        fun record => record.rrType != typeOpt && record.rrType != typeTsig := by
      refine List.filter_congr fun record hrecord => ?_
      have hne : record.rrType ≠ typeTsig := fun heq =>
        htsig (List.any_eq_true.mpr ⟨record, List.mem_of_mem_take hrecord, by simp [heq]⟩)
      simp [hne]
    rw [if_neg hnegative, hanswers]
    exact Except.ok.inj h

theorem clampTtl_le_iff {ttl bound : Nat} (hparse : parseSections response = .ok sections)
    (httl : cache.ttlFor sections.header response = .ok (some ttl)) :
    clampTtl ttl sections.header.responseCode ≤ bound * nanosPerSecond ↔
      (∃ value ∈ lifetimeTtls response sections, value ≤ bound) ∨
        longestLifetime cache sections.header.responseCode ≤ bound * nanosPerSecond := by
  obtain ⟨-, hrcode, hpositive, seconds, hlifetime, rfl⟩ := ttlFor_eq_some httl
  have hone : nanosPerSecond ≤ seconds * nanosPerSecond :=
    Nat.le_mul_of_pos_left _ (Nat.pos_of_ne_zero fun hzero => hpositive (by simp [hzero]))
  have hclamp : clampTtl (min (seconds * nanosPerSecond) cache.maximumTtl)
      sections.header.responseCode =
      min (seconds * nanosPerSecond) (longestLifetime cache sections.header.responseCode) := by
    simp only [clampTtl, longestLifetime, if_pos hrcode.symm]
    rw [min_assoc, max_min_distrib_left, max_eq_right hone]
  rw [hclamp, min_le_iff, Nat.mul_le_mul_right_iff (by decide : 0 < nanosPerSecond),
    le_of_min?_iff (cacheLifetime_eq_some hparse hlifetime)]

/-! ### Runs -/

/-- Every entry of the insertion with the number `gen` expires at the given time. -/
structure Expires (key : CacheKey) (gen expiresAt : Nat) (cache : Cache τ) : Prop where
  later : gen < cache.global.gen
  stored : ∀ entry, cache.global.stored key = some entry → entry.insertGen = gen →
    entry.expiresAt = expiresAt

theorem Expires.step {gen expiresAt : Nat} (h : Expires key gen expiresAt cache)
    (operation : CacheOperation τ) : Expires key gen expiresAt (step cache operation) := by
  obtain ⟨-, -, hsame | ⟨shardOperation, hglobal, -⟩⟩ := step_cases cache
  · exact ⟨hsame ▸ h.later, hsame ▸ h.stored⟩
  have hlater := h.later
  suffices gen < (apply cache.global shardOperation).gen ∧ ∀ entry,
      (apply cache.global shardOperation).stored key = some entry → entry.insertGen = gen →
        entry.expiresAt = expiresAt from ⟨hglobal ▸ this.1, hglobal ▸ this.2⟩
  cases shardOperation with
  | insertWithScope order other rcode answer ttl sourceIfindex tag now =>
    refine ⟨hlater.trans (Nat.lt_succ_self _), fun entry hstored hgen => ?_⟩
    rcases GlobalCache.stored_insertWithScope hstored with ⟨-, rfl⟩ | hbefore
    · exact absurd hgen hlater.ne'
    · exact h.stored entry hbefore hgen
  | lookup other now => exact ⟨hlater, h.stored⟩
  | setStaleWindow staleWindow =>
    refine ⟨hlater, fun entry hstored hgen => ?_⟩
    obtain ⟨before, hbefore, rfl⟩ := Lib.Maps.lookup_mapValues.mp hstored
    exact h.stored before hbefore hgen
  | flush => exact ⟨hlater, fun entry hstored => by cases hstored⟩

/-- **A response is used no longer than its records may be**, in every run after it was stored,
exactly if the TTLs that its lifetime does not come from allow it. -/
theorem fresh_within_ttls_iff (order : HashOrder) (hparse : parseSections response = .ok sections)
    (hinsert : cache.insertScoped order.arrange key response sourceIfindex tag now =
      .ok (true, cache')) :
    (∀ operations entry later,
      (run Capacity.step cache' operations).global.lookup key later = .fresh entry →
        entry.insertGen = cache.global.gen →
        ∀ ttl, Limits response sections ttl → later < now + ttl * nanosPerSecond) ↔
      ∀ ttl, Limits response sections ttl →
      (∃ value ∈ lifetimeTtls response sections, value ≤ ttl) ∨
        longestLifetime cache sections.header.responseCode ≤ ttl * nanosPerSecond := by
  obtain ⟨header, ttl, packet, hheader, httl, -, hcache'⟩ := Cache.insertScoped_eq_ok.mp hinsert
  obtain rfl := Except.ok.inj (hheader.symm.trans (parseSections_eq_ok.mp hparse).1)
  have hstored : cache'.global.stored key = some (cache.global.entryFor sections.header.responseCode
      packet ttl sourceIfindex tag now) := by
    simp [hcache', GlobalCache.stored, GlobalCache.insertWithScope, GlobalCache.setShard,
      GlobalCache.entryFor]
  simp only [← clampTtl_le_iff hparse httl]
  set lifetime := clampTtl ttl sections.header.responseCode with hlifetime
  constructor
  · intro h bound hbound
    have hpositive : 0 < lifetime := lt_of_lt_of_le (by decide) (le_max_left nanosPerSecond _)
    have hlast : now + lifetime - 1 < now + lifetime := by omega
    have := h [] _ _ (GlobalCache.lookup_eq_fresh.mpr ⟨hstored, hlast⟩) rfl bound hbound
    omega
  · intro h operations entry later hlookup hgen bound hbound
    have hstart : Expires key cache.global.gen (now + lifetime) cache' :=
      ⟨by rw [hcache']; exact Nat.lt_succ_self _, fun entry hentry _ => by
        rw [hstored] at hentry; cases hentry; rfl⟩
    have hexpires := run_preserves (Expires key cache.global.gen (now + lifetime))
      (fun _ operation h => h.step operation) operations cache' hstart
    obtain ⟨hentry, hlater⟩ := GlobalCache.lookup_eq_fresh.mp hlookup
    rw [hexpires.stored entry hentry hgen] at hlater
    have := h bound hbound
    omega

/-- A cache that keeps responses for an hour. -/
def hourCache : Cache Unit := .new 16 (3600 * nanosPerSecond) 0 true

theorem fresh_within_ttls_one_address : ∃ cache',
    hourCache.insertScoped HashOrder.asListed.arrange (checkedKey false) oneAddress none () 0 =
      .ok (true, cache') ∧
    ((∀ operations entry later,
      (run Capacity.step cache' operations).global.lookup (checkedKey false) later = .fresh entry →
        entry.insertGen = hourCache.global.gen →
        ∀ ttl, Limits oneAddress oneAddressSections ttl → later < 0 + ttl * nanosPerSecond) ↔
      ∀ ttl, Limits oneAddress oneAddressSections ttl →
        (∃ value ∈ lifetimeTtls oneAddress oneAddressSections, value ≤ ttl) ∨
        longestLifetime hourCache oneAddressSections.header.responseCode ≤
          ttl * nanosPerSecond) := by
  obtain ⟨cache', hinsert⟩ : ∃ cache', hourCache.insertScoped HashOrder.asListed.arrange
      (checkedKey false) oneAddress none () 0 = .ok (true, cache') :=
    ⟨_, Cache.insertScoped_eq_ok.mpr ⟨oneAddressSections.header, 300 * nanosPerSecond, oneAddress,
      by decide +kernel, by decide +kernel, by decide +kernel, rfl⟩⟩
  exact ⟨cache', hinsert, fresh_within_ttls_iff .asListed (by decide +kernel) hinsert⟩

/-- An alias with a TTL of one second, and an SOA record that allows a minute. -/
def shortAlias : Bytes :=
  responseWire 0x8183 [[97]] 1 [recordWire [[97]] typeCname 1 (wireName [[98]])]
    [recordWire [] typeSoa 60 (wireName [] ++ wireName [] ++ List.replicate 16 0 ++ [0, 0, 0, 60])]

/-- **A name error is fresh for a minute**, with an alias that is to be forgotten after a second. -/
theorem alias_outlived :
    (hourCache.insertScoped id (checkedKey false) shortAlias none () 0).map (fun (stored, cache) =>
        (stored, match cache.global.lookup (checkedKey false) (59 * nanosPerSecond) with
          | .fresh entry => some entry.inserted
          | _ => none)) = .ok (true, some 0) ∧
      (parseSections shortAlias).map (fun sections => (answerRecords sections).map (·.ttl)) =
        .ok [1] := by
  decide +kernel

end RustdResolved.Query.Lifetimes
