import AmneziaBox.Source.CacheFile.Pending
import Mathlib.Algebra.Ring.Nat

/-!
# The counters of the pending batch

The count is that of the entries. The size has the length of a question name in it once for each
time that the entry was written, since an overwrite adds it again.
-/
namespace AmneziaBox.Guarantees.PendingCounters
open Source.Adapter Source.DNS Source.FakeIP Source.CacheFile Pending List

inductive Change where
  | dnsCache (key : SaveCacheKey) (value : List (BitVec 8))
  | rdrc (key : SaveCacheKey)
  | fakeIP (oldDomain : Option String) (address : Addr) (domain : String)
  | metadata (metadata : FakeIPMetadata)
  | clearDNSCache
  | clearRDRC
  | fakeIPReset
  | flush

def change (pending : Pending) : Change → Pending
  | .dnsCache key value => pending.queueDNSCache key value
  | .rdrc key => pending.queueRDRC key
  | .fakeIP oldDomain address domain => pending.queueFakeIP oldDomain address domain
  | .metadata metadata => pending.saveMetadata metadata
  | .clearDNSCache => pending.clearDNSCache
  | .clearRDRC => pending.clearRDRC
  | .fakeIPReset => pending.fakeIPReset
  | .flush => pending.flush

/-! ## What is counted -/

section Sum
variable {α : Type} {β : α → Type} [DecidableEq α] (weight : Sigma β → Nat)

def sum (map : AList β) : Nat := (map.entries.map weight).sum

theorem sum_insert (map : AList β) (key : α) (value : β key) :
    sum weight (map.insert key value) +
        ((map.lookup key).elim 0 fun old => weight ⟨key, old⟩) =
      sum weight map + weight ⟨key, value⟩ := by
  have erased (entries : List (Sigma β)) : ((entries.kerase key).map weight).sum +
      ((entries.dlookup key).elim 0 fun old => weight ⟨key, old⟩) = (entries.map weight).sum := by
    induction entries with
    | nil => rfl
    | cons entry rest ih =>
      obtain ⟨first, old⟩ := entry
      by_cases same : key = first
      · subst same
        rw [show (_ :: rest).kerase key = rest from kerase_cons_eq rfl, dlookup_cons_eq]
        exact Nat.add_comm ..
      · rw [kerase_cons_ne same, dlookup_cons_ne _ _ same]
        simp only [map_cons, sum_cons]
        omega
  have := erased map.entries
  simp only [sum, AList.entries_insert, map_cons, sum_cons, AList.lookup]
  omega

omit [DecidableEq α] in
theorem sum_empty : sum weight (∅ : AList β) = 0 := rfl

end Sum

/-- The entries, and their sizes. -/
def entries (pending : Pending) : Nat :=
  sum (fun _ => 1) pending.dnsCache + sum (fun _ => 1) pending.rdrc +
    sum (fun _ => 1) pending.fakeIP.fakeIPDomain +
    if pending.fakeIP.fakeIPMetadata.isSome then 1 else 0

def dnsSize (entry : Sigma fun _ : SaveCacheKey => List (BitVec 8)) : Nat :=
  entry.1.questionName.utf8ByteSize + entry.2.length

def total (pending : Pending) : Nat :=
  sum dnsSize pending.dnsCache + sum (fun entry => entry.1.questionName.utf8ByteSize) pending.rdrc +
    sum (fun entry => entry.2.utf8ByteSize) pending.fakeIP.fakeIPDomain

/-- How many bytes of question names are counted more than once after the change. -/
def recount (pending : Pending) (before : Nat) : Change → Nat
  | .dnsCache key _ =>
    if (pending.dnsCache.lookup key).isSome then before + key.questionName.utf8ByteSize else before
  | .flush => if pending.count = 0 then before else 0
  | _ => before

structure Counted (pending : Pending) (again : Nat) : Prop where
  count : pending.count = entries pending
  size : pending.size = total pending + again

theorem foldl_counters {α : Type} (items : List α) (weight : α → Nat) (pending : Pending) :
    items.foldl (fun pending item =>
      { pending with count := pending.count - 1, size := pending.size - weight item }) pending =
    { pending with
      count := pending.count - ((items.map fun _ => 1).sum : Nat)
      size := pending.size - (items.map weight).sum } := by
  induction items generalizing pending with
  | nil => simp
  | cons item rest ih => simp [ih]; omega

theorem queueFakeIP_domain (pending : PendingWrites) (oldDomain : Option String) (address : Addr)
    (domain : String) :
    (CacheFile.queueFakeIP { pending := pending } oldDomain address domain).pending.fakeIPDomain =
      pending.fakeIPDomain.insert address domain ∧
    (CacheFile.queueFakeIP { pending := pending } oldDomain address domain).pending.fakeIPMetadata =
      pending.fakeIPMetadata := by
  unfold CacheFile.queueFakeIP
  split <;> split <;> exact ⟨rfl, rfl⟩

/-! ## One change -/

section Changes
variable {pending : Pending} {again : Nat} (counted : Counted pending again)
include counted

theorem Counted.dnsCache (key : SaveCacheKey) (value : List (BitVec 8)) :
    Counted (pending.queueDNSCache key value) (recount pending again (.dnsCache key value)) := by
  obtain ⟨count, size⟩ := counted
  have one := sum_insert (fun _ => 1) pending.dnsCache key value
  have all := sum_insert dnsSize pending.dnsCache key value
  unfold entries at count
  unfold total at size
  cases found : pending.dnsCache.lookup key with
  | none =>
    simp only [found, dnsSize, Option.elim_none] at one all
    constructor
    · simp only [queueDNSCache, enqueueLocked, entries, found, Option.isNone_none, if_true]
      omega
    · simp [queueDNSCache, enqueueLocked, total, recount, found]
      omega
  | some old =>
    simp only [found, dnsSize, Option.elim_some] at one all
    constructor
    · simp only [queueDNSCache, enqueueLocked, entries, found, Option.isNone_some,
        Bool.false_eq_true, if_false]
      omega
    · simp [queueDNSCache, enqueueLocked, total, recount, found]
      omega

theorem Counted.rdrc (key : SaveCacheKey) : Counted (pending.queueRDRC key) again := by
  unfold queueRDRC
  split
  · exact counted
  · next absent =>
    obtain ⟨count, size⟩ := counted
    have one := sum_insert (fun _ => 1) pending.rdrc key ()
    have all := sum_insert (fun entry => entry.1.questionName.utf8ByteSize) pending.rdrc key ()
    simp only [Option.not_isSome_iff_eq_none.mp absent, Option.elim_none] at one all
    unfold entries at count
    unfold total at size
    constructor
    · simp only [enqueueLocked, entries, if_true]
      omega
    · simp only [enqueueLocked, total]
      omega

theorem Counted.fakeIP (oldDomain : Option String) (address : Addr) (domain : String) :
    Counted (pending.queueFakeIP oldDomain address domain) again := by
  obtain ⟨count, size⟩ := counted
  have one := sum_insert (fun _ => 1) pending.fakeIP.fakeIPDomain address domain
  have all := sum_insert (fun entry => entry.2.utf8ByteSize) pending.fakeIP.fakeIPDomain address domain
  obtain ⟨domains, metadata⟩ := queueFakeIP_domain pending.fakeIP oldDomain address domain
  unfold entries at count
  unfold total at size
  cases found : pending.fakeIP.fakeIPDomain.lookup address with
  | none =>
    simp only [found, Option.elim_none] at one all
    constructor
    · simp only [queueFakeIP, enqueueLocked, entries, domains, metadata, found, Option.isNone_none,
        if_true]
      omega
    · simp [queueFakeIP, enqueueLocked, total, domains, found]
      omega
  | some old =>
    simp only [found, Option.elim_some] at one all
    constructor
    · simp only [queueFakeIP, enqueueLocked, entries, domains, metadata, found, Option.isNone_some,
        Bool.false_eq_true, if_false]
      omega
    · simp [queueFakeIP, enqueueLocked, total, domains, found]
      omega

theorem Counted.metadata (metadata : FakeIPMetadata) :
    Counted (pending.saveMetadata metadata) again := by
  obtain ⟨count, size⟩ := counted
  refine ⟨?_, by simpa [saveMetadata, enqueueLocked, total] using size⟩
  unfold entries at count
  cases found : pending.fakeIP.fakeIPMetadata with
  | none =>
    simp [found] at count
    simp [saveMetadata, enqueueLocked, entries, found, count]
  | some old =>
    simp [found] at count
    simp [saveMetadata, enqueueLocked, entries, found, count]

theorem Counted.clearDNSCache : Counted pending.clearDNSCache again := by
  obtain ⟨count, size⟩ := counted
  have cleared := foldl_counters pending.dnsCache.entries dnsSize { pending with dnsCache := ∅ }
  simp only [dnsSize] at cleared
  constructor
  · simp only [Pending.clearDNSCache, cleared, entries, sum_empty]
    simp only [entries, sum] at count ⊢
    omega
  · simp only [Pending.clearDNSCache, cleared, total, sum_empty]
    simp only [total, sum] at size ⊢
    omega

theorem Counted.clearRDRC : Counted pending.clearRDRC again := by
  obtain ⟨count, size⟩ := counted
  have cleared := foldl_counters pending.rdrc.entries
    (fun entry => entry.1.questionName.utf8ByteSize) { pending with rdrc := ∅ }
  constructor
  · simp only [Pending.clearRDRC, cleared, entries, sum_empty]
    simp only [entries, sum] at count ⊢
    omega
  · simp only [Pending.clearRDRC, cleared, total, sum_empty]
    simp only [total, sum] at size ⊢
    omega

theorem Counted.fakeIPReset : Counted pending.fakeIPReset again := by
  obtain ⟨count, size⟩ := counted
  have cleared := foldl_counters pending.fakeIP.fakeIPDomain.entries
    (fun entry => entry.2.utf8ByteSize) pending
  constructor
  · simp only [Pending.fakeIPReset, cleared, entries, sum_empty]
    simp only [entries, sum] at count ⊢
    cases found : pending.fakeIP.fakeIPMetadata with
    | none =>
      simp [found] at count ⊢
      omega
    | some old =>
      simp [found] at count ⊢
      omega
  · simp only [Pending.fakeIPReset, cleared, total, sum_empty]
    simp only [total, sum] at size ⊢
    omega

theorem Counted.change (event : Change) :
    Counted (change pending event) (recount pending again event) := by
  cases event with
  | dnsCache key value => exact counted.dnsCache key value
  | rdrc key => exact counted.rdrc key
  | fakeIP oldDomain address domain => exact counted.fakeIP oldDomain address domain
  | metadata metadata => exact counted.metadata metadata
  | clearDNSCache => exact counted.clearDNSCache
  | clearRDRC => exact counted.clearRDRC
  | fakeIPReset => exact counted.fakeIPReset
  | flush =>
    unfold PendingCounters.change recount flush
    split_ifs
    · exact counted
    · exact ⟨rfl, rfl⟩

end Changes

/-- The batch after the changes, and the bytes that are counted again in it. -/
def batch (changes : List Change) : Pending × Nat :=
  changes.foldl (fun s event => (change s.1 event, recount s.1 s.2 event)) ({}, 0)

theorem batch_counted (changes : List Change) : Counted (batch changes).1 (batch changes).2 :=
  foldlRecOn (motive := fun s : Pending × Nat => Counted s.1 s.2) changes _ ⟨rfl, rfl⟩
    fun _ counted event _ => counted.change event

/-- The count is exact, and a batch with entries is flushed. The size is exact as long as no entry
of the DNS cache with a name was overwritten in the batch. -/
theorem counters_exact_iff (changes : List Change) :
    (batch changes).1.count = entries (batch changes).1 ∧
    (entries (batch changes).1 ≠ 0 → (batch changes).1.flush = {}) ∧
    ((batch changes).1.size = total (batch changes).1 ↔ (batch changes).2 = 0) := by
  obtain ⟨count, size⟩ := batch_counted changes
  refine ⟨count, fun some => if_neg ?_, ?_⟩ <;> omega

theorem overwritten_name_recounted :
    let key : SaveCacheKey := ⟨"dns", "a.", 1⟩
    let pending := (batch [.dnsCache key [0], .dnsCache key [0], .clearDNSCache]).1
    pending.count = 0 ∧ entries pending = 0 ∧ pending.size = 2 := by
  decide

end AmneziaBox.Guarantees.PendingCounters
