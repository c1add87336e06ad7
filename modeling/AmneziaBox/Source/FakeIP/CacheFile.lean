import AmneziaBox.Source.FakeIP.Store
import Mathlib.Data.List.AList

/-!
# FakeIP addresses in the cache file

`experimental/cachefile/fakeip.go` and the flush of `pending.go`. A store goes to the
pending batch; a flush makes that the batch being written, writes it to the database in
one transaction and forgets it. A load looks at the two batches in one critical section
and at the database in a later one.

Carried are the fields for FakeIP addresses. The counters of a batch decide when a flush
starts, which may be at any time here; that a flush is already running keeps another
one out (`flushAccess`). The keys of a bucket are addresses and domains instead of their
bytes; a put under an empty key fails, as it does in `bbolt`.
-/
namespace AmneziaBox.Source.FakeIP
open Adapter Function

/-- `pendingWrites`. The invalid address stands for a domain that lost its address. -/
structure PendingWrites where
  fakeIPDomain : AList fun _ : Addr => String := ∅
  fakeIPAddress4 : String → Option Addr := fun _ => none
  fakeIPAddress6 : String → Option Addr := fun _ => none
  fakeIPMetadata : Option FakeIPMetadata := none

def PendingWrites.fakeIPAddress (pending : PendingWrites) (domain : String) (isIPv6 : Bool) :
    Option Addr :=
  if isIPv6 then pending.fakeIPAddress6 domain else pending.fakeIPAddress4 domain

/-- The buckets `fakeip_address`, `fakeip_domain4` and `fakeip_domain6`. -/
structure Database where
  address : Addr → Option String := fun _ => none
  domain4 : String → Option Addr := fun _ => none
  domain6 : String → Option Addr := fun _ => none
  metadata : Option FakeIPMetadata := none

def Database.domain (database : Database) (isIPv6 : Bool) : String → Option Addr :=
  if isIPv6 then database.domain6 else database.domain4

structure CacheFile where
  pending : PendingWrites := {}
  writing : Option PendingWrites := none
  database : Database := {}

namespace CacheFile

/-! ## Loads -/

/-- `FakeIPLoad` in the two batches. -/
def peekAddress (file : CacheFile) (address : Addr) : Option String :=
  (file.pending.fakeIPDomain.lookup address).or
    (file.writing.bind fun writing => writing.fakeIPDomain.lookup address)

/-- `FakeIPLoad` in the database. -/
def viewAddress (file : CacheFile) (address : Addr) : Option String :=
  match file.database.address address with
  | some domain => if domain ≠ "" then some domain else none
  | none => none

def fakeIPLoad (file : CacheFile) (address : Addr) : Option String :=
  (file.peekAddress address).or (file.viewAddress address)

/-- An address that was found counts only if it is valid. -/
def loaded (address : Addr) : Option Addr := if address.isValid then some address else none

/-- `FakeIPLoadDomain` in the two batches. -/
def peekDomain (file : CacheFile) (domain : String) (isIPv6 : Bool) : Option Addr :=
  (file.pending.fakeIPAddress domain isIPv6).or
    (file.writing.bind fun writing => writing.fakeIPAddress domain isIPv6)

/-- `FakeIPLoadDomain` in the database. -/
def viewDomain (file : CacheFile) (domain : String) (isIPv6 : Bool) : Option Addr :=
  (file.database.domain isIPv6 domain).bind loaded

def fakeIPLoadDomain (file : CacheFile) (domain : String) (isIPv6 : Bool) : Option Addr :=
  match file.peekDomain domain isIPv6 with
  | some address => loaded address
  | none => file.viewDomain domain isIPv6

/-! ## Stores -/

/-- The critical section of `queueFakeIP`; `oldDomain` was loaded before it. -/
def queueFakeIP (file : CacheFile) (oldDomain : Option String) (address : Addr)
    (domain : String) : CacheFile :=
  let pending := file.pending
  let pending :=
    match oldDomain with
    | some oldDomain =>
      if address.is4 then
        { pending with
          fakeIPAddress4 := update pending.fakeIPAddress4 oldDomain (some .invalid) }
      else
        { pending with
          fakeIPAddress6 := update pending.fakeIPAddress6 oldDomain (some .invalid) }
    | none => pending
  let pending := { pending with fakeIPDomain := pending.fakeIPDomain.insert address domain }
  let pending :=
    if address.is4 then
      { pending with
        fakeIPAddress4 := update pending.fakeIPAddress4 domain (some address) }
    else
      { pending with
        fakeIPAddress6 := update pending.fakeIPAddress6 domain (some address) }
  { file with pending := pending }

/-- `FakeIPSaveMetadata` up to its flush. -/
def saveMetadata (file : CacheFile) (metadata : Option FakeIPMetadata) : CacheFile :=
  match metadata with
  | some metadata => { file with pending := { file.pending with fakeIPMetadata := some metadata } }
  | none => file

end CacheFile

/-! ## Flushes -/

/-- The domain bucket after `address` goes from `oldDomain` to `domain`. -/
def putDomain (bucket : String → Option Addr) (oldDomain : Option String) (address : Addr)
    (domain : String) : String → Option Addr :=
  match oldDomain with
  | some old =>
    if bucket old = some address then
      update (update bucket old none) domain (some address)
    else update bucket domain (some address)
  | none => update bucket domain (some address)

/-- `putFakeIP`; `none` is an error of the transaction. -/
def putFakeIP (database : Database) (address : Addr) (domain : String) : Option Database :=
  let oldDomain := database.address address
  if !address.isValid || domain = "" then none
  else
    let database :=
      { database with address := update database.address address (some domain) }
    if address.is4 then
      some { database with domain4 := putDomain database.domain4 oldDomain address domain }
    else some { database with domain6 := putDomain database.domain6 oldDomain address domain }

/-- The entries of a batch in the order of the list. -/
def putAll : List (Sigma fun _ : Addr => String) → Database → Option Database
  | [], database => some database
  | ⟨address, domain⟩ :: rest, database => (putFakeIP database address domain).bind (putAll rest)

/-- `writePending` with the entries in a given order. -/
def writePending (order : List (Sigma fun _ : Addr => String)) (pending : PendingWrites)
    (database : Database) : Option Database :=
  (putAll order database).map fun database =>
    match pending.fakeIPMetadata with
    | some metadata => { database with metadata := some metadata }
    | none => database

/-! ## `Create` calls and flushes -/

/-- Where the call of `Create` is; `locked` tells the second lookup from the first. -/
inductive FilePhase where
  | idle
  | checking (locked : Bool) (domain : String) (isIPv6 : Bool)
  | viewing (locked : Bool) (domain : String) (isIPv6 : Bool)
  | missed (domain : String) (isIPv6 : Bool)
  | loading (domain : String) (isIPv6 : Bool) (address : Addr)
  | reading (domain : String) (isIPv6 : Bool) (address : Addr)
  | queueing (domain : String) (isIPv6 : Bool) (address : Addr) (oldDomain : Option String)

structure FileState where
  file : CacheFile := {}
  allocation : Allocation
  phase : FilePhase := .idle
  /-- The transaction of the running flush is committed. -/
  flushed : Bool := false
  /-- The pairs stored so far, the latest first. -/
  stores : List (Addr × String) := []

inductive FileEvent where
  | create (domain : String) (isIPv6 : Bool)
  /-- A look at the two batches. -/
  | peek
  /-- A look at the database. -/
  | view
  | allocate
  | queue
  | swap
  | write (order : List (Sigma fun _ : Addr => String))
  | complete

/-- The lookup for the domain ends: the call returns, or goes on. -/
def checked (found : Option Addr) (locked : Bool) (domain : String) (isIPv6 : Bool) : FilePhase :=
  match found with
  | some _ => .idle
  | none => if locked then .missed domain isIPv6 else .checking true domain isIPv6

def fileStep (store : Store) (s : FileState) : FileEvent → Option FileState
  | .create domain isIPv6 =>
    match s.phase with
    | .idle => some { s with phase := .checking false domain isIPv6 }
    | _ => none
  | .peek =>
    match s.phase with
    | .checking locked domain isIPv6 =>
      match s.file.peekDomain domain isIPv6 with
      | some address =>
        some { s with phase := checked (CacheFile.loaded address) locked domain isIPv6 }
      | none => some { s with phase := .viewing locked domain isIPv6 }
    | .loading domain isIPv6 address =>
      match s.file.peekAddress address with
      | some oldDomain => some { s with phase := .queueing domain isIPv6 address (some oldDomain) }
      | none => some { s with phase := .reading domain isIPv6 address }
    | _ => none
  | .view =>
    match s.phase with
    | .viewing locked domain isIPv6 =>
      some { s with
        phase := checked (s.file.viewDomain domain isIPv6) locked domain isIPv6 }
    | .reading domain isIPv6 address =>
      some { s with phase := .queueing domain isIPv6 address (s.file.viewAddress address) }
    | _ => none
  | .allocate =>
    match s.phase with
    | .missed domain isIPv6 =>
      if !(s.allocation.current isIPv6).isValid then some { s with phase := .idle }
      else
        let (metadata, reserved) := reserve store s.allocation
        let (address, allocation) := advance store isIPv6 reserved
        some { s with
          file := s.file.saveMetadata metadata
          allocation := allocation
          phase := .loading domain isIPv6 address }
    | _ => none
  | .queue =>
    match s.phase with
    | .queueing domain _ address oldDomain =>
      some { s with
        file := s.file.queueFakeIP oldDomain address domain
        phase := .idle
        stores := (address, domain) :: s.stores }
    | _ => none
  | .swap =>
    match s.file.writing with
    | none =>
      some { s with
        file := { s.file with pending := {}, writing := some s.file.pending }
        flushed := false }
    | some _ => none
  | .write order =>
    match s.file.writing with
    | some writing =>
      if !s.flushed ∧ order.Perm writing.fakeIPDomain.entries then
        -- a transaction that fails is not a step
        (writePending order writing s.file.database).map fun database =>
          { s with file := { s.file with database := database }, flushed := true }
      else none
    | none => none
  | .complete =>
    match s.file.writing with
    | some _ => if s.flushed then some { s with file := { s.file with writing := none } } else none
    | none => none

def fileInitial (store : Store) : FileState := { allocation := start store }

def fileExec (store : Store) (events : List FileEvent) : Option FileState :=
  Library.run (fileStep store) (fileInitial store) events

end AmneziaBox.Source.FakeIP
