import AmneziaBox.Guarantees.CacheTransparency
import Mathlib.Data.List.Forall2

/-!
# Lifetimes of DNS records

`applyResponseOptions` writes one TTL into every record and stores the response under it. That
TTL is no longer than each record's own only if it is a lower bound of them all. Zero means "none
yet" to the loop of `computeTimeToLive`, so a record that must not be cached is passed over next to
one that may be; and without answers the first SOA record decides alone.
-/
namespace AmneziaBox.Guarantees.RecordLifetimes
open Source.Adapter Source.DNS CacheTransparency List

/-! ## Statement -/

/-- No record of the response, an OPT record apart, outlives the TTL with which it arrived:
neither in what is passed on nor in the cache. -/
structure LifetimesKept (question : Question) (response : Msg) (options : DNSQueryOptions) :
    Prop where
  passedOn : List.Forall₂ (fun arrived sent => arrived.rrtype ≠ typeOPT → sent.ttl ≤ arrived.ttl)
    response.records (applyResponseOptions question response options).1.records
  cached : ∀ record ∈ response.records, record.rrtype ≠ typeOPT →
    (applyResponseOptions question response options).2 ≤ record.ttl
  negative : response.answer = [] → ∀ soaTTL, extractNegativeTTL response = some soaTTL →
    (applyResponseOptions question response options).2 ≤ soaTTL
  uncached : (∃ record ∈ response.records, record.rrtype ≠ typeOPT ∧ record.ttl = 0) →
    ∀ wire config client key now, storeCache wire config client key
      (applyResponseOptions question response options).1
      (applyResponseOptions question response options).2 now = none

/-- The SOA record that decides has the lowest TTL, or TTLs of zero do not stand beside others. -/
def Bounded (response : Msg) : Prop :=
  match (if response.answer.isEmpty then extractNegativeTTL response else none) with
  | some soaTTL => ∀ record ∈ response.records, record.rrtype ≠ typeOPT → soaTTL ≤ record.ttl
  | none => (∃ record ∈ response.records, record.rrtype ≠ typeOPT ∧ record.ttl = 0) →
      ∀ record ∈ response.records, record.rrtype ≠ typeOPT → record.ttl = 0

/-! ## The loop of `computeTimeToLive` -/

variable {records : List Record} {response : Msg} {question : Question} {options : DNSQueryOptions}
  {timeToLive : BitVec 32}

/-- A round only comes to zero from zero, at a record of TTL zero. -/
theorem lowerTTL_eq_zero {record : Record} (zero : lowerTTL timeToLive record = 0) :
    timeToLive = 0 ∧ (record.rrtype ≠ typeOPT → record.ttl = 0) := by
  unfold lowerTTL at zero
  split at zero
  · next opt => exact ⟨zero, fun other => absurd opt other⟩
  · split at zero
    · next taken =>
      refine ⟨taken.resolve_right fun lower => ?_, fun _ => zero⟩
      rw [zero] at lower
      exact absurd lower.1 (by decide)
    · next kept => exact absurd (Or.inl zero) kept

theorem foldl_eq_zero (zero : records.foldl lowerTTL timeToLive = 0) :
    timeToLive = 0 ∧ ∀ record ∈ records, record.rrtype ≠ typeOPT → record.ttl = 0 := by
  induction records generalizing timeToLive with
  | nil => exact ⟨zero, nofun⟩
  | cons record rest ih =>
    obtain ⟨round, later⟩ := ih zero
    obtain ⟨start, here⟩ := lowerTTL_eq_zero round
    exact ⟨start, forall_mem_cons.mpr ⟨here, later⟩⟩

theorem foldl_of_zeros
    (zeros : ∀ record ∈ records, record.rrtype ≠ typeOPT → record.ttl = 0) :
    records.foldl lowerTTL 0 = 0 := by
  induction records with
  | nil => rfl
  | cons record rest ih =>
    obtain ⟨here, later⟩ := forall_mem_cons.mp zeros
    have round : lowerTTL 0 record = 0 := by
      unfold lowerTTL
      split
      · rfl
      · next other => simpa using here other
    rw [foldl_cons, round, ih later]

/-- Apart from zero, a round never comes above what it had, nor above the record. -/
theorem lowerTTL_le {record : Record} :
    (timeToLive ≠ 0 → lowerTTL timeToLive record ≤ timeToLive) ∧
      (record.rrtype ≠ typeOPT → record.ttl ≠ 0 → lowerTTL timeToLive record ≤ record.ttl) := by
  unfold lowerTTL
  split
  · next opt => exact ⟨fun _ => BitVec.le_refl _, fun other => absurd opt other⟩
  · split
    · next taken =>
      refine ⟨fun some_ => ?_, fun _ _ => BitVec.le_refl _⟩
      exact BitVec.le_of_lt (taken.resolve_left some_).2
    · next kept =>
      refine ⟨fun _ => BitVec.le_refl _, fun _ positive => ?_⟩
      have some_ : 0 < record.ttl := by bv_omega
      have above : ¬ record.ttl < timeToLive := fun lower => kept (.inr ⟨some_, lower⟩)
      exact BitVec.not_lt.mp above

theorem foldl_le :
    (timeToLive ≠ 0 → records.foldl lowerTTL timeToLive ≤ timeToLive) ∧
      ∀ record ∈ records, record.rrtype ≠ typeOPT → record.ttl ≠ 0 →
        records.foldl lowerTTL timeToLive ≤ record.ttl := by
  induction records generalizing timeToLive with
  | nil => exact ⟨fun _ => BitVec.le_refl _, nofun⟩
  | cons record rest ih =>
    -- the rest of the loop stays below what this round leaves, which is not zero
    have below : lowerTTL timeToLive record ≠ 0 →
        (record :: rest).foldl lowerTTL timeToLive ≤ lowerTTL timeToLive record := ih.1
    refine ⟨fun some_ => ?_, forall_mem_cons.mpr ⟨fun other positive => ?_, ih.2⟩⟩
    · exact BitVec.le_trans (below fun zero => some_ (lowerTTL_eq_zero zero).1)
        (lowerTTL_le.1 some_)
    · exact BitVec.le_trans (below fun zero => positive ((lowerTTL_eq_zero zero).2 other))
        (lowerTTL_le.2 other positive)

/-- The computed TTL is a lower bound of the records' TTLs. -/
theorem computeTimeToLive_le_iff : (∀ record ∈ response.records, record.rrtype ≠ typeOPT →
    computeTimeToLive response ≤ record.ttl) ↔ Bounded response := by
  unfold computeTimeToLive Bounded
  generalize (if response.answer.isEmpty then extractNegativeTTL response else none) = decisive
  cases decisive with
  | some soaTTL => rfl
  | none =>
    constructor
    · rintro below ⟨record, mem, other, zero⟩
      have least : response.records.foldl lowerTTL 0 ≤ record.ttl := below record mem other
      have zero_ : response.records.foldl lowerTTL 0 = 0 := by bv_omega
      exact (foldl_eq_zero zero_).2
    · intro alike record mem other
      by_cases zero : record.ttl = 0
      · have none_ : response.records.foldl lowerTTL 0 = 0 :=
          foldl_of_zeros (alike ⟨record, mem, other, zero⟩)
        simp only [none_, zero]
        exact BitVec.le_refl _
      · exact foldl_le.2 record mem other zero

/-! ## The response that is passed on -/

/-- The records that are passed on stand in their places, with the one TTL. -/
theorem applied_records :
    List.Forall₂ (fun arrived sent => arrived.rrtype ≠ typeOPT →
        sent.ttl = (applyResponseOptions question response options).2)
      response.records (applyResponseOptions question response options).1.records := by
  have types : List.Forall₂ (fun arrived sent : Record => arrived.rrtype = sent.rrtype)
      response.records (hinted question options.strategy response).records := by
    have same : response.records.map Record.rrtype =
        (hinted question options.strategy response).records.map Record.rrtype :=
      map_rrtype_hinted.symm
    rwa [← forall₂_eq_eq_eq, forall₂_map_left_iff, forall₂_map_right_iff] at same
  rw [applyResponseOptions_eq, normalizeTTL, records_mapRecords, forall₂_map_right_iff]
  exact types.imp fun arrived sent same other => ttl_withTTL (same ▸ other)

theorem lifetimesKept_iff (plain : options.rewriteTTL = none) :
    LifetimesKept question response options ↔ Bounded response := by
  have ttl : (applyResponseOptions question response options).2 = computeTimeToLive response := by
    -- without `rewrite_ttl` every record gets the computed TTL
    rw [applyResponseOptions_eq, ttlFor, plain, Option.getD_none]
  rw [← computeTimeToLive_le_iff, ← ttl]
  refine ⟨LifetimesKept.cached, fun below => ⟨?_, below, ?_, ?_⟩⟩
  · refine ((forall₂_and_left _ _).mpr ⟨below, applied_records⟩).imp ?_
    rintro arrived sent ⟨bound, same⟩ other
    rw [same other]
    exact bound other
  · intro empty soaTTL decisive
    rw [ttl, computeTimeToLive, empty, isEmpty_nil, if_pos rfl, decisive]
    exact BitVec.le_refl _
  · rintro ⟨record, mem, other, zero⟩ wire config client key now
    have least : (applyResponseOptions question response options).2 ≤ record.ttl :=
      below record mem other
    exact if_pos (by bv_omega)

/-- A name with two addresses that may both be kept for a while. -/
def evenAnswer : Msg where
  id := 7
  response := true
  answer := [⟨"example.", .a (.ipv4 1), 1, 60⟩, ⟨"example.", .a (.ipv4 2), 1, 300⟩]

theorem lifetimesKept_evenAnswer : ({} : DNSQueryOptions).rewriteTTL = none ∧
    LifetimesKept ⟨"example.", typeA, 1⟩ evenAnswer {} :=
  ⟨rfl, (lifetimesKept_iff rfl).mpr (by
    show (∃ record ∈ evenAnswer.records, record.rrtype ≠ typeOPT ∧ record.ttl = 0) → _
    decide)⟩

/-- The address that must not be kept arrives with one that may be kept for five minutes. -/
def zeroAnswer : Msg where
  id := 7
  response := true
  answer := [⟨"example.", .a (.ipv4 1), 1, 0⟩, ⟨"example.", .a (.ipv4 2), 1, 300⟩]

/-- It is passed on, and cached, with five minutes. -/
theorem zeroAnswer_extended :
    (applyResponseOptions ⟨"example.", typeA, 1⟩ zeroAnswer {}).1.answer.map Record.ttl =
        [300, 300] ∧
      ¬ LifetimesKept ⟨"example.", typeA, 1⟩ zeroAnswer {} := by
  refine ⟨by decide, fun kept => ?_⟩
  have bound : (300 : BitVec 32) ≤ 0 := kept.cached ⟨"example.", .a (.ipv4 1), 1, 0⟩
    (mem_cons_self) (by decide)
  exact absurd bound (by decide)

end AmneziaBox.Guarantees.RecordLifetimes
