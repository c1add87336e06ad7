import AmneziaBox.Source.DNS.Client
import AmneziaBox.Source.FakeIP.CacheFile

/-!
# The pending batch of the cache file

`experimental/cachefile`: `pending.go`, and what `dns_cache.go`, `rdrc.go` and `fakeip.go` do to
the batch under `pendingAccess`. The fields for FakeIP addresses are those of the FakeIP model.
A flush may start at any time here; the timer and the signal that start one are left out, and
with queries it is one step. The key
of an entry is never empty, since the type of the question is in it, and a bucket is created for
every name but the empty one. Times are in nanoseconds.
-/
namespace AmneziaBox.Source.CacheFile
open Adapter DNS FakeIP

structure Pending where
  dnsCache : AList fun _ : SaveCacheKey => List (BitVec 8) := ∅
  rdrc : AList fun _ : SaveCacheKey => Unit := ∅
  fakeIP : PendingWrites := {}
  count : Int := 0
  size : Int := 0

namespace Pending

def enqueueLocked (pending : Pending) (added : Bool) (sizeDelta : Int) : Pending :=
  { pending with
    count := if added then pending.count + 1 else pending.count
    size := pending.size + sizeDelta }

def queueDNSCache (pending : Pending) (key : SaveCacheKey) (value : List (BitVec 8)) : Pending :=
  let oldEntry := pending.dnsCache.lookup key
  { pending with dnsCache := pending.dnsCache.insert key value }.enqueueLocked oldEntry.isNone
    (key.questionName.utf8ByteSize + value.length - (oldEntry.getD []).length)

def queueRDRC (pending : Pending) (key : SaveCacheKey) : Pending :=
  if (pending.rdrc.lookup key).isSome then pending
  else { pending with rdrc := pending.rdrc.insert key () }.enqueueLocked true
    key.questionName.utf8ByteSize

/-- `queueFakeIP` after its load. -/
def queueFakeIP (pending : Pending) (oldDomain : Option String) (address : Addr)
    (domain : String) : Pending :=
  let pendingDomain := pending.fakeIP.fakeIPDomain.lookup address
  let file : FakeIP.CacheFile := { pending := pending.fakeIP }
  { pending with fakeIP := (file.queueFakeIP oldDomain address domain).pending }.enqueueLocked
    pendingDomain.isNone (domain.utf8ByteSize - (pendingDomain.getD "").utf8ByteSize)

/-- `FakeIPSaveMetadata` up to its flush. -/
def saveMetadata (pending : Pending) (metadata : FakeIPMetadata) : Pending :=
  { pending with fakeIP := { pending.fakeIP with fakeIPMetadata := some metadata } }.enqueueLocked
    pending.fakeIP.fakeIPMetadata.isNone 0

def clearDNSCache (pending : Pending) : Pending :=
  pending.dnsCache.entries.foldl
    (fun pending entry =>
      { pending with
        count := pending.count - 1
        size := pending.size - (entry.1.questionName.utf8ByteSize + entry.2.length : Nat) })
    { pending with dnsCache := ∅ }

def clearRDRC (pending : Pending) : Pending :=
  pending.rdrc.entries.foldl
    (fun pending entry =>
      { pending with
        count := pending.count - 1
        size := pending.size - entry.1.questionName.utf8ByteSize })
    { pending with rdrc := ∅ }

def fakeIPReset (pending : Pending) : Pending :=
  let pending := pending.fakeIP.fakeIPDomain.entries.foldl
    (fun pending entry =>
      { pending with
        count := pending.count - 1
        size := pending.size - entry.2.utf8ByteSize })
    pending
  { pending with
    fakeIP := {}
    count := if pending.fakeIP.fakeIPMetadata.isSome then pending.count - 1 else pending.count }

/-- `Flush` takes the batch, or leaves it alone if its count is zero. -/
def flush (pending : Pending) : Pending := if pending.count = 0 then pending else {}

end Pending

/-! ## The transaction of a flush -/

structure Tables where
  dnsCache : SaveCacheKey → Option (List (BitVec 8)) := fun _ => none
  rdrc : SaveCacheKey → Option Nat := fun _ => none
  fakeIP : Database := {}

/-- `putCacheEntry`; `none` is an error of the transaction. -/
def putCacheEntry {β : Type} (table : SaveCacheKey → Option β) (key : SaveCacheKey) (value : β) :
    Option (SaveCacheKey → Option β) :=
  if key.transportName = "" then none else some (Function.update table key (some value))

/-- `writePending`, which goes through each map in some order. -/
def writePending (dnsCache : List (Sigma fun _ : SaveCacheKey => List (BitVec 8)))
    (rdrc : List (Sigma fun _ : SaveCacheKey => Unit)) (expiresAt : Nat)
    (fakeIPDomain : List (Sigma fun _ : Addr => String)) (pending : Pending) (tables : Tables) :
    Option Tables := do
  let dnsCache ← dnsCache.foldlM (fun table entry => putCacheEntry table entry.1 entry.2)
    tables.dnsCache
  let rdrc ← rdrc.foldlM (fun table entry => putCacheEntry table entry.1 expiresAt) tables.rdrc
  let fakeIP ← FakeIP.writePending fakeIPDomain pending.fakeIP tables.fakeIP
  return ⟨dnsCache, rdrc, fakeIP⟩

/-- `FqdnToDomain`; a final dot that is escaped does not count. -/
def fqdnToDomain (fqdn : String) : String :=
  match fqdn.toList.reverse with
  | '.' :: rest =>
    if (rest.takeWhile (· == '\\')).length % 2 = 0 then String.ofList rest.reverse else fqdn
  | _ => fqdn

/-! ## Queries -/

/-- How a flush goes through the maps of its batch, and when the rejections expire. -/
structure FlushOrder where
  dnsCache : List (Sigma fun _ : SaveCacheKey => List (BitVec 8)) := []
  rdrc : List (Sigma fun _ : SaveCacheKey => Unit) := []
  fakeIPDomain : List (Sigma fun _ : Addr => String) := []
  expiresAt : Nat := 0

def FlushOrder.Lists (order : FlushOrder) (pending : Pending) : Prop :=
  order.dnsCache.Perm pending.dnsCache.entries ∧ order.rdrc.Perm pending.rdrc.entries ∧
    order.fakeIPDomain.Perm pending.fakeIP.fakeIPDomain.entries

instance (order : FlushOrder) (pending : Pending) : Decidable (order.Lists pending) :=
  inferInstanceAs (Decidable (_ ∧ _ ∧ _))

/-- The cache file and the FakeIP store over it, between the calls. -/
structure QueryState where
  allocation : Allocation
  pending : Pending := {}
  tables : Tables := {}

namespace QueryState

def fakeIPFile (s : QueryState) : FakeIP.CacheFile :=
  { pending := s.pending.fakeIP, database := s.tables.fakeIP }

/-- `writePending` of the batch. -/
def written (s : QueryState) (order : FlushOrder) : Option Tables :=
  writePending order.dnsCache order.rdrc order.expiresAt order.fakeIPDomain s.pending s.tables

/-- `Flush`: a batch that cannot be written is lost. -/
def flush (s : QueryState) (order : FlushOrder) : QueryState :=
  if s.pending.count = 0 then s
  else { s with pending := {}, tables := (s.written order).getD s.tables }

/-- `FakeIPSaveMetadata`, if there is something to save. -/
def saveMetadata (s : QueryState) (order : FlushOrder) : Option FakeIPMetadata → QueryState
  | none => s
  | some metadata => { s with pending := s.pending.saveMetadata metadata }.flush order

/-- `Store.Create`. -/
def create (store : Store) (s : QueryState) (domain : String) (isIPv6 : Bool)
    (order : FlushOrder) : QueryState :=
  if (s.fakeIPFile.fakeIPLoadDomain domain isIPv6).isSome then s
  else if !(s.allocation.current isIPv6).isValid then s
  else
    let (metadata, reserved) := reserve store s.allocation
    let s := s.saveMetadata order metadata
    let (address, allocation) := advance store isIPv6 reserved
    { s with
      allocation := allocation
      pending := s.pending.queueFakeIP (s.fakeIPFile.fakeIPLoad address) address domain }

/-- `Transport.Exchange` of FakeIP, as far as it reaches the store. -/
def exchange (store : Store) (s : QueryState) (name : String) (isIPv6 : Bool)
    (order : FlushOrder) : QueryState :=
  let domain := fqdnToDomain name
  if domain.utf8ByteSize > 255 then s else s.create store domain isIPv6 order

end QueryState

inductive QueryEvent where
  | respond (key : SaveCacheKey) (value : List (BitVec 8))
  | reject (key : SaveCacheKey)
  | exchange (name : String) (isIPv6 : Bool) (order : FlushOrder)
  | flush (order : FlushOrder)

def queryStep (store : Store) (s : QueryState) : QueryEvent → Option QueryState
  | .respond key value => some { s with pending := s.pending.queueDNSCache key value }
  | .reject key => some { s with pending := s.pending.queueRDRC key }
  | .exchange name isIPv6 order =>
    if order.Lists s.pending then some (s.exchange store name isIPv6 order) else none
  | .flush order => if order.Lists s.pending then some (s.flush order) else none

/-! ## Rejected responses -/

/-- The cache file as far as it keeps rejected responses. -/
structure RDRC where
  pending : Pending := {}
  writing : Option Pending := none
  /-- The transaction of the running flush is committed. -/
  flushed : Bool := false
  /-- When the entries of the database expire. -/
  database : SaveCacheKey → Option Nat := fun _ => none
  now : Nat := 0
  /-- The rejections so far and their times. -/
  recorded : List (SaveCacheKey × Nat) := []

inductive RDRCEvent where
  | queue (key : SaveCacheKey)
  /-- `Flush` takes the batch. -/
  | swap
  | write
  /-- `Flush` ends; a transaction that has failed was not committed. -/
  | complete
  | wait (duration : Nat)

def loadRDRC (s : RDRC) (key : SaveCacheKey) : Bool :=
  (s.pending.rdrc.lookup key).isSome ||
    (s.writing.bind fun writing => writing.rdrc.lookup key).isSome ||
    (s.database key).any fun expiresAt => s.now < expiresAt

/-- `time.Time.Unix`, in nanoseconds. -/
def wholeSeconds (time : Nat) : Nat := time / 1000000000 * 1000000000

def rdrcStep (rdrcTimeout : Nat) (s : RDRC) : RDRCEvent → Option RDRC
  | .queue key =>
    some { s with pending := s.pending.queueRDRC key, recorded := (key, s.now) :: s.recorded }
  | .swap =>
    if s.writing.isNone ∧ s.pending.count ≠ 0 then
      some { s with pending := {}, writing := some s.pending, flushed := false }
    else none
  | .write =>
    match s.writing with
    | some writing =>
      if s.flushed then none
      else some { s with
        flushed := true
        database := fun key =>
          if (writing.rdrc.lookup key).isSome then some (wholeSeconds (s.now + rdrcTimeout))
          else s.database key }
    | none => none
  | .complete => if s.writing.isSome then some { s with writing := none } else none
  | .wait duration => some { s with now := s.now + duration }

end AmneziaBox.Source.CacheFile
