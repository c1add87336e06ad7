import AmneziaBox.Library.History
import AmneziaBox.Source.DNS.Client

/-!
# Answers from the DNS cache

A response is stored as the options of its query have rewritten it, and it is found again by a
key that has neither the strategy nor the TTL of the options in it. So a query is answered from
the cache as its own options would have it if, for the response in question, the two queries
leave the same address hints and the first sets no longer TTL than the second. That is also
necessary: otherwise the answer is wrong right after the response was stored.
-/
namespace AmneziaBox.Guarantees.CacheTransparency
open Library Source.Adapter Source.DNS List

/-! ## Statement -/

/-- A message up to its identifier and its TTLs. -/
def bare (message : Msg) : Msg := { normalizeTTL message 0 with id := 0 }

/-- What the options make of the upstream response, with TTLs that may be lower. -/
structure Transparent (question : Question) (upstream : Msg) (options : DNSQueryOptions)
    (response : Msg) : Prop where
  same : bare response = bare (applyResponseOptions question upstream options).1
  ttl : ∀ record ∈ response.records, record.rrtype ≠ typeOPT →
    record.ttl ≤ (applyResponseOptions question upstream options).2

/-- The TTL that the options set. -/
def ttlFor (upstream : Msg) (options : DNSQueryOptions) : BitVec 32 :=
  options.rewriteTTL.getD (computeTimeToLive upstream)

/-- Some record carries a TTL. -/
def HasTTL (message : Msg) : Prop := ∃ record ∈ message.records, record.rrtype ≠ typeOPT

structure Agree (question : Question) (upstream : Msg) (first second : DNSQueryOptions) :
    Prop where
  hints : question.qtype = typeHTTPS → ∀ record ∈ upstream.answer, ∀ values,
    record.data = .https values →
      ∀ value ∈ values, keepsHint first.strategy value = keepsHint second.strategy value
  ttl : HasTTL upstream → ttlFor upstream first ≤ ttlFor upstream second

/-- A response that was put into a cache. -/
structure Stored where
  key : DNSCacheKey
  options : DNSQueryOptions
  upstream : Msg
  now : Nat

section Statement
variable (config : ClientOptions)

/-- Where a response is kept. -/
def slot (key : DNSCacheKey) : DNSCacheKey ⊕ SaveCacheKey :=
  if config.storeDNS then .inr key.saveKey else .inl key

/-- The latest response that was put there. -/
def lastStored (place : DNSCacheKey ⊕ SaveCacheKey) : List ClientObservation → Option Stored
  | [] => none
  | .stored key options upstream now :: past =>
    if slot config key = place then some ⟨key, options, upstream, now⟩
    else lastStored place past
  | _ :: past => lastStored place past

def Stored.message (stored : Stored) : Msg :=
  (applyResponseOptions stored.key.question stored.upstream stored.options).1

/-- The persistent cache counts in whole seconds. -/
def Stored.expireAt (stored : Stored) : Nat :=
  let expireAt := stored.now + 1000 *
    (applyResponseOptions stored.key.question stored.upstream stored.options).2.toNat
  if config.storeDNS then expireAt / 1000 * 1000 else expireAt

/-- What is served of it at some time. -/
def Stored.served (stored : Stored) (now : Nat) : Option Loaded :=
  serve config stored.message (stored.expireAt config) now

/-- An answer from the cache is the latest response stored under the key, and it is what the
options of the query would make of it if the two agree. -/
def AnsweredFrom : ClientObservation → List ClientObservation → Prop
  | .answered key options response stale now, past =>
    ∃ stored loaded, lastStored config (slot config key) past = some stored ∧
      stored.served config now = some loaded ∧ loaded.isStale = stale ∧
      response = { loaded.response with id := response.id } ∧
      (stale = false → stored.now ≤ now →
        Agree key.question stored.upstream stored.options options →
        Transparent key.question stored.upstream options response)
  | _, _ => True

end Statement

/-! ## Messages -/

section Messages
variable {message upstream response : Msg} {record : Record} {question : Question}
  {options first second : DNSQueryOptions} {strategy : DomainStrategy}

@[simp] theorem rrtype_withTTL (timeToLive : BitVec 32) (record : Record) :
    (record.withTTL timeToLive).rrtype = record.rrtype := by
  unfold Record.withTTL
  split <;> rfl

@[simp] theorem withTTL_withTTL (old new : BitVec 32) (record : Record) :
    (record.withTTL old).withTTL new = record.withTTL new := by
  by_cases opt : record.rrtype = typeOPT
  · rw [show record.withTTL old = record from if_pos opt]
  · have other : (record.withTTL old).rrtype ≠ typeOPT := by rwa [rrtype_withTTL]
    rw [show (record.withTTL old).withTTL new = { record.withTTL old with ttl := new } from
      if_neg other, show record.withTTL old = { record with ttl := old } from if_neg opt,
      show record.withTTL new = { record with ttl := new } from if_neg opt]

variable {timeToLive : BitVec 32}

theorem ttl_withTTL (other : record.rrtype ≠ typeOPT) :
    (record.withTTL timeToLive).ttl = timeToLive := by
  rw [show record.withTTL timeToLive = { record with ttl := timeToLive } from if_neg other]

theorem records_mapRecords (f : Record → Record) (message : Msg) :
    (message.mapRecords f).records = message.records.map f := by
  simp [Msg.records, Msg.mapRecords]

@[simp] theorem bare_normalizeTTL (message : Msg) (timeToLive : BitVec 32) :
    bare (normalizeTTL message timeToLive) = bare message := by
  simp [bare, normalizeTTL, Msg.mapRecords]

/-- Every record of a message with one TTL has it. -/
theorem ttl_of_normalizeTTL (mem : record ∈ (normalizeTTL message timeToLive).records)
    (other : record.rrtype ≠ typeOPT) : record.ttl = timeToLive := by
  rw [normalizeTTL, records_mapRecords] at mem
  obtain ⟨before, _, rfl⟩ := mem_map.mp mem
  rw [rrtype_withTTL] at other
  exact ttl_withTTL other

/-! ## Address hints -/

@[simp] theorem rrtype_filterHints (strategy : DomainStrategy) (record : Record) :
    (filterHints strategy record).rrtype = record.rrtype := by
  unfold filterHints
  split
  · next data => simp [Record.rrtype, data]
  · rfl

@[simp] theorem ttl_filterHints (strategy : DomainStrategy) (record : Record) :
    (filterHints strategy record).ttl = record.ttl := by
  unfold filterHints
  split <;> rfl

/-- A strategy that is not for one family leaves every value. -/
theorem filterHints_of_both (both : strategy ≠ .ipv4Only ∧ strategy ≠ .ipv6Only)
    (record : Record) : filterHints strategy record = record := by
  have keeps : keepsHint strategy = fun _ => true := by
    funext value
    cases strategy <;> first | rfl | exact absurd rfl both.1 | exact absurd rfl both.2
  unfold filterHints
  split
  · next values data =>
    rw [keeps, filter_true, ← data]
  · rfl

/-- The response with the address hints that the strategy leaves. -/
def hinted (question : Question) (strategy : DomainStrategy) (upstream : Msg) : Msg :=
  if question.qtype = typeHTTPS then
    { upstream with answer := upstream.answer.map (filterHints strategy) }
  else upstream

theorem computeTimeToLive_hinted :
    computeTimeToLive (hinted question strategy upstream) = computeTimeToLive upstream := by
  unfold hinted
  split
  · have lower : ∀ ttl record, lowerTTL ttl (filterHints strategy record) = lowerTTL ttl record := by
      intro ttl record
      simp [lowerTTL]
    simp [computeTimeToLive, extractNegativeTTL, Msg.records, foldl_map, lower]
  · rfl

theorem applyResponseOptions_eq (question : Question) (upstream : Msg) (options : DNSQueryOptions) :
    applyResponseOptions question upstream options =
      (normalizeTTL (hinted question options.strategy upstream) (ttlFor upstream options),
        ttlFor upstream options) := by
  have response : (if question.qtype = typeHTTPS ∧
      (options.strategy = .ipv4Only ∨ options.strategy = .ipv6Only)
      then { upstream with answer := upstream.answer.map (filterHints options.strategy) }
      else upstream) = hinted question options.strategy upstream := by
    unfold hinted
    by_cases https : question.qtype = typeHTTPS
    · by_cases one : options.strategy = .ipv4Only ∨ options.strategy = .ipv6Only
      · rw [if_pos ⟨https, one⟩, if_pos https]
      · have same : upstream.answer.map (filterHints options.strategy) = upstream.answer := by
          rw [show filterHints options.strategy = id from
            funext (filterHints_of_both (not_or.mp one)), map_id]
        rw [if_neg fun both => one both.2, if_pos https, same]
    · rw [if_neg fun both => https both.1, if_neg https]
  unfold applyResponseOptions
  rw [response]
  dsimp only
  rw [computeTimeToLive_hinted]
  rfl

/-- Two filters leave the same values of a list if they judge each alike. -/
theorem filter_eq_iff {α : Type} {p q : α → Bool} {values : List α} :
    values.filter p = values.filter q ↔ ∀ value ∈ values, p value = q value := by
  constructor
  · intro same value mem
    have member : value ∈ values.filter p ↔ value ∈ values.filter q := by rw [same]
    rw [mem_filter, mem_filter] at member
    exact Bool.eq_iff_iff.mpr ⟨fun h => (member.mp ⟨mem, h⟩).2, fun h => (member.mpr ⟨mem, h⟩).2⟩
  · exact filter_congr

theorem bare_record_iff : (filterHints first.strategy record).withTTL 0 =
    (filterHints second.strategy record).withTTL 0 ↔ ∀ values, record.data = .https values →
      ∀ value ∈ values, keepsHint first.strategy value = keepsHint second.strategy value := by
  cases data : record.data with
  | https values =>
    have left : ∀ strategy, (filterHints strategy record).withTTL 0 =
        { record with data := .https (values.filter (keepsHint strategy)), ttl := 0 } := by
      intro strategy
      unfold filterHints Record.withTTL
      rw [data]
      exact if_neg (by simp [Record.rrtype, typeHTTPS, typeOPT])
    rw [left, left]
    simp only [Record.mk.injEq, RecordData.https.injEq, true_and, and_true, filter_eq_iff]
    exact ⟨fun alike _ same => same ▸ alike, fun alike => alike values rfl⟩
  | a | aaaa | soa | opt | other =>
    have same : ∀ strategy, filterHints strategy record = record := by
      intro strategy
      unfold filterHints
      rw [data]
    simp only [same, true_iff]
    exact nofun

theorem bare_hinted_iff : bare (hinted question first.strategy upstream) =
    bare (hinted question second.strategy upstream) ↔
      (question.qtype = typeHTTPS → ∀ record ∈ upstream.answer, ∀ values,
        record.data = .https values → ∀ value ∈ values,
          keepsHint first.strategy value = keepsHint second.strategy value) := by
  unfold hinted
  by_cases https : question.qtype = typeHTTPS
  · rw [if_pos https, if_pos https]
    simp only [bare, normalizeTTL, Msg.mapRecords, Msg.mk.injEq, map_map, map_inj_left,
      Function.comp_apply, true_and, and_true, bare_record_iff]
    exact ⟨fun alike _ => alike, fun alike => alike https⟩
  · rw [if_neg https, if_neg https]
    exact ⟨fun _ absurd_ => absurd absurd_ https, fun _ => rfl⟩

/-- Filtering leaves every record its type. -/
theorem map_rrtype_hinted : (hinted question strategy upstream).records.map Record.rrtype =
    upstream.records.map Record.rrtype := by
  unfold hinted
  split
  · simp [Msg.records]
  · rfl

theorem hasTTL_iff : HasTTL message ↔ ∃ rrtype ∈ message.records.map Record.rrtype,
    rrtype ≠ typeOPT := by
  simp [HasTTL]

theorem hasTTL_hinted : HasTTL (hinted question strategy upstream) ↔ HasTTL upstream := by
  rw [hasTTL_iff, hasTTL_iff, map_rrtype_hinted]

theorem Agree.transparent (agree : Agree question upstream first second)
    (low : timeToLive ≤ ttlFor upstream first) :
    Transparent question upstream second
      (normalizeTTL (hinted question first.strategy upstream) timeToLive) := by
  constructor
  · rw [applyResponseOptions_eq, bare_normalizeTTL, bare_normalizeTTL]
    exact bare_hinted_iff.mpr agree.hints
  · intro record mem other
    rw [applyResponseOptions_eq, ttl_of_normalizeTTL mem other]
    rw [normalizeTTL, records_mapRecords] at mem
    obtain ⟨before, member, rfl⟩ := mem_map.mp mem
    rw [rrtype_withTTL] at other
    exact BitVec.le_trans low (agree.ttl (hasTTL_hinted.mp ⟨before, member, other⟩))

/-- The response as it was stored, with its full TTL, shows whether the queries agree. -/
theorem Agree.of_transparent (transparent : Transparent question upstream second
    (normalizeTTL (hinted question first.strategy upstream) (ttlFor upstream first))) :
    Agree question upstream first second := by
  constructor
  · have same := transparent.same
    rw [applyResponseOptions_eq, bare_normalizeTTL, bare_normalizeTTL] at same
    exact bare_hinted_iff.mp same
  · intro bears
    obtain ⟨record, mem, other⟩ := hasTTL_hinted.mpr bears
    have low := transparent.ttl (record.withTTL (ttlFor upstream first))
      (by rw [normalizeTTL, records_mapRecords]; exact mem_map_of_mem mem)
      (by rwa [rrtype_withTTL])
    rwa [applyResponseOptions_eq, ttl_withTTL other] at low

end Messages

/-! ## Serving -/

section Serving
variable {config : ClientOptions} {stored : Stored} {now : Nat} {loaded : Loaded}
  {question : Question} {upstream : Msg} {first second : DNSQueryOptions}

theorem Stored.message_eq (stored : Stored) : stored.message =
    normalizeTTL (hinted stored.key.question stored.options.strategy stored.upstream)
      (ttlFor stored.upstream stored.options) := by
  rw [Stored.message, applyResponseOptions_eq]

theorem normalizeTTL_message (stored : Stored) (timeToLive : BitVec 32) :
    normalizeTTL stored.message timeToLive =
      normalizeTTL (hinted stored.key.question stored.options.strategy stored.upstream)
        timeToLive := by
  rw [stored.message_eq]
  simp [normalizeTTL, Msg.mapRecords]

theorem Stored.expireAt_le (config : ClientOptions) (stored : Stored) : stored.expireAt config ≤
    stored.now + 1000 * (ttlFor stored.upstream stored.options).toNat := by
  rw [Stored.expireAt, applyResponseOptions_eq]
  split
  · exact Nat.div_mul_le_self ..
  · exact Nat.le_refl _

/-- A response that is not stale has at most the TTL it was stored with. -/
theorem Stored.served_fresh (later : stored.now ≤ now)
    (served : stored.served config now = some loaded) (fresh : loaded.isStale = false) :
    ∃ timeToLive ≤ ttlFor stored.upstream stored.options, loaded.response =
      normalizeTTL (hinted stored.key.question stored.options.strategy stored.upstream)
        timeToLive := by
  unfold Stored.served serve at served
  split at served
  · cases served
    exact ⟨_, BitVec.le_refl _, stored.message_eq⟩
  · split at served
    · split at served
      · cases served
        cases fresh
      · cases served
    · cases served
      refine ⟨_, ?_, normalizeTTL_message stored _⟩
      have bound := stored.expireAt_le config
      rw [BitVec.le_def]
      have quotient : (stored.expireAt config - now) / 1000 ≤
          (ttlFor stored.upstream stored.options).toNat :=
        Nat.div_le_of_le_mul (by omega)
      exact Nat.le_trans (Nat.mod_le ..) quotient

/-- Right after it was stored, a response has its full TTL. -/
theorem served_at_once (key : DNSCacheKey) :
    (Stored.mk key first upstream 0).served config 0 = some
      ⟨normalizeTTL (hinted key.question first.strategy upstream) (ttlFor upstream first),
        if config.disableExpire then 0 else (ttlFor upstream first).toNat, false⟩ := by
  have expire : (Stored.mk key first upstream 0).expireAt config =
      1000 * (ttlFor upstream first).toNat := by
    rw [Stored.expireAt, applyResponseOptions_eq]
    split
    · rw [Nat.zero_add, Nat.mul_div_cancel_left _ (by decide), Nat.mul_comm]
    · exact Nat.zero_add _
  unfold Stored.served serve
  split
  · rw [Stored.message_eq]
  · dsimp only
    rw [if_neg (Nat.not_lt_zero _), expire, Nat.sub_zero,
      Nat.mul_div_cancel_left _ (by decide), normalizeTTL_message, BitVec.ofNat_toNat,
      BitVec.setWidth_eq]

/-- The two queries agree on a response exactly if at every time of its life what is served
of it is what the options of the second make of it. -/
theorem agree_iff (config : ClientOptions) (key : DNSCacheKey) :
    (∀ stored now loaded, stored ≤ now →
      (Stored.mk key first upstream stored).served config now = some loaded →
      loaded.isStale = false → Transparent key.question upstream second loaded.response) ↔
    Agree key.question upstream first second := by
  constructor
  · intro always
    exact .of_transparent (always 0 0 _ (Nat.le_refl 0) (served_at_once key) rfl)
  · intro agree stored now loaded later served fresh
    obtain ⟨timeToLive, low, response⟩ := Stored.served_fresh later served fresh
    rw [response]
    exact agree.transparent low

end Serving

/-! ## Runs -/

section Runs
variable {wire : Wire} {config : ClientOptions} {client next : Client} {key : DNSCacheKey}
  {place : DNSCacheKey ⊕ SaveCacheKey} {stored : Stored} {log : List ClientObservation}

/-- What is in a cache is the latest response that was put there. -/
structure Faithful (wire : Wire) (config : ClientOptions) (client : Client) : Prop where
  memory : config.storeDNS = false → ∀ key entry, client.cache key = some entry →
    ∃ stored, lastStored config (.inl key) client.log = some stored ∧
      entry.message = stored.message ∧ entry.expireAt = stored.expireAt config
  persistent : config.storeDNS = true → ∀ place entry, client.dnsCache place = some entry →
    ∃ stored, lastStored config (.inr place) client.log = some stored ∧
      wire.pack stored.message = some entry.rawMessage ∧ entry.expireAt = stored.expireAt config
  answers : Always (AnsweredFrom config) client.log

theorem lastStored_slot (found : lastStored config place log = some stored) :
    slot config stored.key = place := by
  induction log with
  | nil => cases found
  | cons observation past ih =>
    cases observation with
    | stored key options upstream now =>
      rw [lastStored] at found
      split at found
      · next here =>
        cases found
        exact here
      · exact ih found
    | answered | limited | refreshRefused => exact ih found

/-- The question type is part of every place. -/
theorem qtype_of_slot {first second : DNSCacheKey}
    (same : slot config first = slot config second) :
    first.question.qtype = second.question.qtype := by
  unfold slot at same
  split at same
  · exact congrArg SaveCacheKey.qType (Sum.inr.inj same)
  · exact congrArg (fun key => key.question.qtype) (Sum.inl.inj same)

/-- An observation that says nothing about the caches. -/
def Silent : ClientObservation → Prop
  | .limited _ _ => True
  | .refreshRefused _ => True
  | _ => False

/-- What is left of a map when one entry is removed. -/
theorem update_none_eq_some {κ ν : Type} [DecidableEq κ] {map : κ → Option ν} {key other : κ}
    {value : ν} (here : Function.update map key none other = some value) :
    other ≠ key ∧ map other = some value := by
  rw [Function.update_apply] at here
  split at here
  · cases here
  · next different => exact ⟨different, here⟩

section Faithful
variable (faithful : Faithful wire config client)
include faithful

/-- Entries go, but none comes or changes. -/
theorem Faithful.shrink
    (cache : ∀ key entry, next.cache key = some entry → client.cache key = some entry)
    (dnsCache : ∀ place entry, next.dnsCache place = some entry →
      client.dnsCache place = some entry)
    (log : next.log = client.log) : Faithful wire config next where
  memory on key entry here := log ▸ faithful.memory on key entry (cache key entry here)
  persistent on place entry here := log ▸ faithful.persistent on place entry (dnsCache place entry here)
  answers := log ▸ faithful.answers

theorem Faithful.same (cache : next.cache = client.cache)
    (dnsCache : next.dnsCache = client.dnsCache) (log : next.log = client.log) :
    Faithful wire config next :=
  faithful.shrink (fun _ _ here => cache ▸ here) (fun _ _ here => dnsCache ▸ here) log

theorem Faithful.observe {observation : ClientObservation} (silent : Silent observation) :
    Faithful wire config (client.observe observation) := by
  have kept : ∀ place, lastStored config place (observation :: client.log) =
      lastStored config place client.log := by
    intro place
    cases observation with
    | limited | refreshRefused => rfl
    | stored | answered => exact silent.elim
  have law : AnsweredFrom config observation client.log := by
    cases observation with
    | limited | refreshRefused => trivial
    | stored | answered => exact silent.elim
  exact
    { memory := fun on key entry here => kept _ ▸ faithful.memory on key entry here
      persistent := fun on place entry here => kept _ ▸ faithful.persistent on place entry here
      answers := ⟨law, faithful.answers⟩ }

variable {now : Nat}

/-- A loaded response is one that was stored, and loading changes nothing. -/
theorem loadResponse_some {loaded : Loaded} (load : loadResponse wire config client key now =
    (some loaded, next)) :
    next = client ∧ ∃ stored, lastStored config (slot config key) client.log =
      some stored ∧ stored.served config now = some loaded := by
  unfold loadResponse at load
  unfold slot
  split at load
  · next on =>
    obtain ⟨found, rfl⟩ := Prod.mk.inj load
    obtain ⟨entry, here, found⟩ := Option.bind_eq_some_iff.mp found
    obtain ⟨message, unpacked, served⟩ := Option.bind_eq_some_iff.mp found
    obtain ⟨stored, last, packed, expire⟩ := faithful.persistent on _ entry here
    rw [wire.unpack_pack _ _ packed] at unpacked
    cases unpacked
    rw [if_pos on]
    exact ⟨rfl, stored, last, by rw [Stored.served, ← expire]; exact served⟩
  · next off =>
    split at load
    · cases load
    · next entry here =>
      split at load
      · next served =>
        obtain ⟨found, rfl⟩ := Prod.mk.inj load
        cases found
        obtain ⟨stored, last, message, expire⟩ :=
          faithful.memory (Bool.eq_false_iff.mpr off) key entry here
        rw [if_neg off]
        exact ⟨rfl, stored, last, by rw [Stored.served, ← message, ← expire]; exact served⟩
      · cases load

theorem Faithful.load (key : DNSCacheKey) (now : Nat) :
    Faithful wire config (loadResponse wire config client key now).2 := by
  unfold loadResponse
  split
  · exact faithful
  · split
    · exact faithful
    · split
      · exact faithful
      · exact faithful.shrink (fun _ _ here => (update_none_eq_some here).2)
          (fun _ _ here => here) rfl

end Faithful

theorem hinted_congr {question other : Question} (same : question.qtype = other.qtype)
    (strategy : DomainStrategy) (upstream : Msg) :
    hinted question strategy upstream = hinted other strategy upstream := by
  unfold hinted
  rw [same]

variable {response : Msg} {options : DNSQueryOptions}

/-- A query is answered with what was loaded. -/
theorem Faithful.answer {loaded : Loaded} {id : BitVec 16} (faithful : Faithful wire config client)
    (last : lastStored config (slot config key) client.log = some stored)
    (served : stored.served config now = some loaded) :
    Faithful wire config (client.observe
      (.answered key options { loaded.response with id := id } loaded.isStale now)) := by
  have law : AnsweredFrom config
      (.answered key options { loaded.response with id := id } loaded.isStale now) client.log := by
    refine ⟨stored, loaded, last, served, rfl, rfl, fun fresh later agree => ?_⟩
    obtain ⟨timeToLive, low, response⟩ := Stored.served_fresh later served fresh
    have same := qtype_of_slot (lastStored_slot last)
    rw [hinted_congr same] at response
    have transparent := response ▸ agree.transparent low
    exact ⟨transparent.same, transparent.ttl⟩
  exact
    { memory := faithful.memory
      persistent := faithful.persistent
      answers := ⟨law, faithful.answers⟩ }

theorem Faithful.refresh (faithful : Faithful wire config client) (refresh : Refresh) :
    Faithful wire config (backgroundRefreshDNS client refresh) := by
  unfold backgroundRefreshDNS
  split
  · exact faithful
  · exact faithful.same rfl rfl rfl

theorem backgroundRefreshDNS_log (client : Client) (refresh : Refresh) :
    (backgroundRefreshDNS client refresh).log = client.log := by
  unfold backgroundRefreshDNS
  split <;> rfl

variable {transport : DNSTransport} {operation : ExchangeOperation}

section Exchanges
variable (faithful : Faithful wire config client)
include faithful

theorem Faithful.answerFromCache :
    Faithful wire config (answerFromCache wire config client now transport operation).2 := by
  unfold Source.DNS.answerFromCache
  have kept := faithful.load operation.cacheKey now
  split
  · next load => rw [load] at kept; exact kept
  · next loaded next load =>
    obtain ⟨rfl, stored, last, served⟩ := loadResponse_some faithful load
    split
    · exact faithful
    · dsimp only
      split
      · split
        · exact faithful.refresh _
        · exact faithful
      · split
        · refine (faithful.refresh _).answer ?_ served
          rw [backgroundRefreshDNS_log]
          exact last
        · exact faithful.answer last served

theorem Faithful.begin (moment : Moment)
    (query : ClientQuery) :
    Faithful wire config (beginExchange wire config client moment query).2 := by
  unfold beginExchange
  split
  · exact faithful
  · next question _ _ =>
    split
    · exact faithful
    · dsimp only
      have kept : Faithful wire config
          (if (operationFor config moment query question).disableCache then (none, client)
            else Source.DNS.answerFromCache wire config client moment.now query.transport
              (operationFor config moment query question)).2 := by
        split
        · exact faithful
        · exact faithful.answerFromCache
      split
      · next cached => rw [cached] at kept; exact kept
      · next missed => rw [missed] at kept; exact kept

/-- A response is stored, and it is then the latest one there. -/
theorem Faithful.store {upstream : Msg} (store : storeCache wire config client key
      (applyResponseOptions key.question upstream options).1
      (applyResponseOptions key.question upstream options).2 now = some next) :
    Faithful wire config (next.observe (.stored key options upstream now)) := by
  unfold storeCache at store
  split at store
  · cases store
  · split at store
    · next on =>
      obtain ⟨rawMessage, packed, rfl⟩ := Option.map_eq_some_iff.mp store
      refine ⟨fun off => absurd on (by simp [off]), fun _ place entry here => ?_,
        ⟨trivial, faithful.answers⟩⟩
      have place_eq : slot config key = .inr key.saveKey := if_pos on
      change Function.update client.dnsCache key.saveKey _ place = some entry at here
      rw [Function.update_apply] at here
      split at here
      · next same =>
        cases here
        exact ⟨⟨key, options, upstream, now⟩, if_pos (same ▸ place_eq), packed, (if_pos on).symm⟩
      · next other =>
        obtain ⟨stored, last, rest⟩ := faithful.persistent on place entry here
        refine ⟨stored, (if_neg ?_).trans last, rest⟩
        rw [place_eq]
        exact fun same => other (Sum.inr.inj same).symm
    · next off =>
      cases store
      refine ⟨fun _ other entry here => ?_, fun on => absurd on off, ⟨trivial, faithful.answers⟩⟩
      have place_eq : slot config key = .inl key := if_neg off
      change Function.update client.cache key _ other = some entry at here
      rw [Function.update_apply] at here
      split at here
      · next same =>
        cases here
        exact ⟨⟨key, options, upstream, now⟩, if_pos (same ▸ place_eq), rfl, (if_neg off).symm⟩
      · next different =>
        obtain ⟨stored, last, rest⟩ := faithful.memory (Bool.eq_false_iff.mpr off) other entry here
        refine ⟨stored, (if_neg ?_).trans last, rest⟩
        rw [place_eq]
        exact fun same => different (Sum.inl.inj same).symm

variable {moment : Moment}

theorem Faithful.storeResponse :
    Faithful wire config
    (storeResponse wire config client moment transport key options response) := by
  unfold Source.DNS.storeResponse
  split
  · exact faithful
  · next key _ =>
    dsimp only
    split
    · exact faithful
    · next after store =>
      exact faithful.store store

theorem Faithful.saveRDRC (key : SaveCacheKey) :
    Faithful wire config (saveRDRC config client key) := by
  unfold Source.DNS.saveRDRC
  split
  · exact faithful.same rfl rfl rfl
  · exact faithful

theorem Faithful.finish :
    Faithful wire config
      (finishExchange wire config client moment transport operation response).2 := by
  unfold finishExchange
  dsimp only
  split
  · split
    · exact faithful
    · exact faithful.saveRDRC _
  · split
    · exact faithful
    · exact faithful.storeResponse

variable {servers : Servers}

theorem Faithful.send {finish : Moment} :
    Faithful wire config
      (sendExchange wire config servers client finish transport operation).2 := by
  unfold sendExchange
  dsimp only
  have noted : ∀ verdict, Faithful wire config
      (if operation.limited then
        client.observe (.limited (rdrcKey transport operation.question) verdict)
      else client) := by
    intro verdict
    split
    · exact faithful.observe trivial
    · exact faithful
  split
  · exact noted _
  · exact (noted _).finish

theorem Faithful.exchange {start finish : Moment} {query : ClientQuery}
    :
    Faithful wire config (client.exchange wire config servers start finish query).2 := by
  unfold Client.exchange
  have begun := faithful.begin start query
  split
  · next done => rw [done] at begun; exact begun
  · next ready => rw [ready] at begun; exact begun.send

theorem Faithful.finishRefresh {refresh : Refresh} :
    Faithful wire config (finishRefresh wire config servers client moment refresh) := by
  unfold Source.DNS.finishRefresh
  have ended : Faithful wire config { client with
      backgroundRefresh := client.backgroundRefresh.filter (·.key != refresh.key) } :=
    faithful.same rfl rfl rfl
  split
  · exact ended
  · split
    · exact (ended.saveRDRC _).observe trivial
    · split
      · exact ended
      · exact ended.storeResponse

theorem faithful_step {event : ClientEvent}
    (stepped : clientStep wire config client event = some next) : Faithful wire config next := by
  cases event with
  | exchange servers start finish query =>
    cases stepped
    exact faithful.exchange
  | refreshed servers finish index =>
    obtain ⟨refresh, _, rfl⟩ := Option.map_eq_some_iff.mp stepped
    exact faithful.finishRefresh
  | evict key =>
    cases stepped
    refine faithful.shrink (fun other entry here => ?_) (fun _ _ here => here) rfl
    exact (update_none_eq_some here).2
  | cleanup key =>
    cases stepped
    refine faithful.shrink (fun _ _ here => here) (fun other entry here => ?_) rfl
    exact (update_none_eq_some here).2
  | clear =>
    cases stepped
    exact faithful.shrink nofun nofun rfl

end Exchanges

/-- In every run an answer from the cache is the latest response stored under its key, and it
is what the options of the query make of that response if the two queries agree on it. They
have to agree for that: if they do not, there is a time at which the answer is another. -/
theorem cached_answers_transparent {events : List ClientEvent}
    (ran : clientExec wire config events = some client) :
    Always (AnsweredFrom config) client.log ∧
    ∀ key upstream first second,
      ((∀ stored now loaded, stored ≤ now →
        (Stored.mk key first upstream stored).served config now = some loaded →
        loaded.isStale = false → Transparent key.question upstream second loaded.response) ↔
      Agree key.question upstream first second) := by
  have faithful : Faithful wire config client :=
    run_invariant (fun _ _ _ faithful => faithful_step faithful)
      (show Faithful wire config {} from ⟨nofun, nofun, trivial⟩) ran
  exact ⟨faithful.answers, fun key _ _ _ => agree_iff config key⟩

end Runs

/-! ## Two rules with one server -/

def upstreamResponse : Msg where
  id := 7
  response := true
  question := [⟨"example.org.", typeA, 1⟩]
  answer := [{ name := "example.org.", data := .a (.ipv4 0x0a000001), ttl := 3600 }]

def askedWith (id : BitVec 16) (options : DNSQueryOptions) : ClientQuery where
  transport := { tag := "server" }
  message := { id := id, question := [⟨"example.org.", typeA, 1⟩] }
  options := options
  responseChecker := none

def atTime (now : Nat) : Moment := ⟨now, fun _ => 0⟩

/-- The same question with and without `rewrite_ttl`. -/
def rewrittenLater (rewriteTTL : BitVec 32) : List ClientEvent :=
  [.exchange (fun _ _ => .response upstreamResponse) (atTime 0) (atTime 0) (askedWith 7 {}),
    .exchange (fun _ _ => .response upstreamResponse) (atTime 1000) (atTime 1000)
      (askedWith 8 { rewriteTTL := some rewriteTTL })]

/-- A rule that sets a TTL of one minute is answered with one of an hour, under the same key. -/
theorem longer_ttl_from_cache :
    let options : DNSQueryOptions := { rewriteTTL := some 60 }
    let key (options : DNSQueryOptions) := newCacheKey {} (atTime 0) { tag := "server" }
      ⟨"example.org.", typeA, 1⟩ (askedWith 7 options).message options
    key {} = key options ∧
    ∃ client response past, clientExec default {} (rewrittenLater 60) = some client ∧
      client.log = .answered (key options) options response false 1000 :: past ∧
      ¬ Transparent ⟨"example.org.", typeA, 1⟩ upstreamResponse options response := by
  refine ⟨rfl, _, _, _, rfl, rfl, fun transparent => ?_⟩
  exact absurd (transparent.ttl _ mem_cons_self (by decide)) (by decide)

/-- A rule that sets a longer TTL may be answered with the shorter one. -/
theorem shorter_ttl_from_cache :
    let options : DNSQueryOptions := { rewriteTTL := some 7200 }
    let key : DNSCacheKey := ⟨⟨"example.org.", typeA, 1⟩, "server", {}, 0⟩
    ∃ client response past, clientExec default {} (rewrittenLater 7200) = some client ∧
      client.log = .answered key options response false 1000 :: past ∧
      Always (AnsweredFrom {}) client.log ∧
      ∀ stored now loaded, stored ≤ now →
        (Stored.mk key {} upstreamResponse stored).served {} now = some loaded →
        loaded.isStale = false → Transparent key.question upstreamResponse options
          loaded.response := by
  intro options key
  obtain ⟨client, ran⟩ : ∃ client, clientExec default {} (rewrittenLater 7200) = some client :=
    ⟨_, rfl⟩
  have agree : Agree key.question upstreamResponse {} options :=
    ⟨fun https => absurd https (by decide), fun _ => by decide⟩
  obtain ⟨always, exactly⟩ := cached_answers_transparent ran
  have served := (exactly key upstreamResponse {} options).mpr agree
  cases ran
  exact ⟨_, _, _, rfl, rfl, always, served⟩

end AmneziaBox.Guarantees.CacheTransparency
