import AmneziaBox.Library.Machine
import AmneziaBox.Source.DNS.RuleAction
import Mathlib.Logic.Function.Iterate

/-!
# The FakeIP store

`dns/transport/fakeip/store.go` and `memory.go`. `Store.Create` gives a domain an
address of the configured range. It looks the domain up, takes `addressAccess`, looks
again, advances the current address and stores the pair. Each of these is a step of its
own here, so that other calls, lookups and resets can happen in between; a step is what
one critical section of the storage makes atomic. A Go map is a function to `Option`.

`netip.Addr{}.Next()` is an invalid address other than the zero one; no run asks for it,
and it is the invalid address here.
-/
namespace AmneziaBox.Source.Adapter

def Addr.is4 : Addr → Bool
  | .ipv4 _ => true
  | _ => false

/-- `netip.Addr.Next`: no address follows the last one. -/
def Addr.next : Addr → Addr
  | .invalid => .invalid
  | .ipv4 value => if value + 1 = 0 then .invalid else .ipv4 (value + 1)
  | .ipv6 value => if value + 1 = 0 then .invalid else .ipv6 (value + 1)

/-- The addresses that a query for the family may be given. -/
def Addr.ofFamily (isIPv6 : Bool) : Addr → Bool
  | .invalid => false
  | .ipv4 _ => !isIPv6
  | .ipv6 _ => isIPv6

end AmneziaBox.Source.Adapter

namespace AmneziaBox.Source.FakeIP
open Adapter DNS Function

/-- `netip.Prefix.Contains`; an address of the other family is never contained. -/
def contains (range : Option Prefix) (address : Addr) : Bool :=
  match range with
  | none => false
  | some range =>
    match range.addr, address with
    | .ipv4 base, .ipv4 value => (value ^^^ base) >>> (32 - range.bits) == 0
    | .ipv6 base, .ipv6 value => (value ^^^ base) >>> (128 - range.bits) == 0
    | _, _ => false

/-- `netip.Prefix.Addr`. -/
def rangeAddr (range : Option Prefix) : Addr := (range.map Prefix.addr).getD .invalid

/-- `broadcastAddress`: the last address of the range. -/
def broadcastAddress (range : Prefix) : Addr :=
  match range.addr with
  | .invalid => .invalid
  | .ipv4 base => .ipv4 (base ||| BitVec.allOnes 32 >>> range.bits)
  | .ipv6 base => .ipv6 (base ||| BitVec.allOnes 128 >>> range.bits)

def nextAddress (addressRange : Option Prefix) (last current : Addr) : Addr :=
  let address := current.next
  if address = last || !contains addressRange address then (rangeAddr addressRange).next.next
  else address

/-- The ranges of a `Store`. -/
structure Store where
  inet4Range : Option Prefix := none
  inet6Range : Option Prefix := none

namespace Store

def inet4Last (store : Store) : Addr := (store.inet4Range.map broadcastAddress).getD .invalid
def inet6Last (store : Store) : Addr := (store.inet6Range.map broadcastAddress).getD .invalid

end Store

/-- `adapter.FakeIPMetadata`. -/
structure FakeIPMetadata where
  inet4Range : Option Prefix
  inet6Range : Option Prefix
  inet4Current : Addr
  inet6Current : Addr
  deriving DecidableEq

/-- The fields of a `Store` that `addressAccess` guards. -/
structure Allocation where
  inet4Current : Addr
  inet6Current : Addr
  reservedCount : Nat := 0
  deriving DecidableEq

def reservedAddressCount : Nat := 1024

/-- `Store.Start` over a storage without metadata. -/
def start (store : Store) : Allocation where
  inet4Current := (rangeAddr store.inet4Range).next
  inet6Current := (rangeAddr store.inet6Range).next

/-- One round of the loop that looks for the address to reserve up to. -/
def skip (store : Store) (metadata : FakeIPMetadata) : FakeIPMetadata :=
  { metadata with
    inet4Current :=
      if metadata.inet4Current.isValid then
        nextAddress store.inet4Range store.inet4Last metadata.inet4Current
      else metadata.inet4Current
    inet6Current :=
      if metadata.inet6Current.isValid then
        nextAddress store.inet6Range store.inet6Last metadata.inet6Current
      else metadata.inet6Current }

/-- The reservation in `Create`: the metadata to save, and the allocation after it. -/
def reserve (store : Store) (allocation : Allocation) : Option FakeIPMetadata × Allocation :=
  if allocation.reservedCount = 0 then
    (some ((skip store)^[reservedAddressCount]
        ⟨store.inet4Range, store.inet6Range, allocation.inet4Current, allocation.inet6Current⟩),
      { allocation with reservedCount := reservedAddressCount - 1 })
  else (none, { allocation with reservedCount := allocation.reservedCount - 1 })

def Allocation.current (allocation : Allocation) (isIPv6 : Bool) : Addr :=
  if isIPv6 then allocation.inet6Current else allocation.inet4Current

/-- The next address of the family. -/
def advance (store : Store) (isIPv6 : Bool) (allocation : Allocation) : Addr × Allocation :=
  if isIPv6 then
    let address := nextAddress store.inet6Range store.inet6Last allocation.inet6Current
    (address, { allocation with inet6Current := address })
  else
    let address := nextAddress store.inet4Range store.inet4Last allocation.inet4Current
    (address, { allocation with inet4Current := address })

def missingRange (isIPv6 : Bool) : String :=
  if isIPv6 then "missing IPv6 fakeip address range" else "missing IPv4 fakeip address range"

/-! ## Memory storage -/

structure MemoryStorage where
  addressCache : Addr → Option String := fun _ => none
  domainCache4 : String → Option Addr := fun _ => none
  domainCache6 : String → Option Addr := fun _ => none

namespace MemoryStorage

def fakeIPStore (storage : MemoryStorage) (address : Addr) (domain : String) : MemoryStorage :=
  let storage :=
    match storage.addressCache address with
    | some oldDomain =>
      if address.is4 then
        { storage with domainCache4 := update storage.domainCache4 oldDomain none }
      else { storage with domainCache6 := update storage.domainCache6 oldDomain none }
    | none => storage
  let storage :=
    { storage with addressCache := update storage.addressCache address (some domain) }
  if address.is4 then
    { storage with domainCache4 := update storage.domainCache4 domain (some address) }
  else { storage with domainCache6 := update storage.domainCache6 domain (some address) }

def fakeIPLoad (storage : MemoryStorage) (address : Addr) : Option String :=
  storage.addressCache address

def fakeIPLoadDomain (storage : MemoryStorage) (domain : String) (isIPv6 : Bool) : Option Addr :=
  if !isIPv6 then storage.domainCache4 domain else storage.domainCache6 domain

end MemoryStorage

/-! ## Calls on a store with memory storage -/

/-- Where a call of `Create` is. -/
inductive Phase where
  | idle
  | waiting (domain : String) (isIPv6 : Bool)
  | locked (domain : String) (isIPv6 : Bool)
  | missed (domain : String) (isIPv6 : Bool)
  | allocated (domain : String) (isIPv6 : Bool) (address : Addr)
  deriving DecidableEq

/-- What a call returned. -/
inductive Observation where
  | found (domain : String) (isIPv6 : Bool) (address : Addr)
  | stored (domain : String) (isIPv6 : Bool) (address : Addr)
  | failed (domain : String) (isIPv6 : Bool) (text : String)
  | looked (address : Addr) (domain : Option String)
  | reset
  deriving DecidableEq

structure State where
  storage : MemoryStorage := {}
  allocation : Allocation
  /-- The goroutine that holds `addressAccess`. -/
  holder : Option Nat := none
  phase : Nat → Phase := fun _ => .idle
  /-- The returns so far, the latest first. -/
  observed : List Observation := []

inductive Event where
  | create (thread : Nat) (domain : String) (isIPv6 : Bool)
  | lock (thread : Nat)
  | check (thread : Nat)
  | allocate (thread : Nat)
  | store (thread : Nat)
  | lookup (address : Addr)
  | reset

/-- A call ends: its goroutine is idle, and what it returned is observed. -/
def State.finish (s : State) (thread : Nat) (observation : Observation) : State :=
  { s with
    phase := update s.phase thread .idle
    observed := observation :: s.observed }

def State.move (s : State) (thread : Nat) (phase : Phase) : State :=
  { s with phase := update s.phase thread phase }

def step (store : Store) (s : State) : Event → Option State
  | .create thread domain isIPv6 =>
    match s.phase thread with
    | .idle =>
      match s.storage.fakeIPLoadDomain domain isIPv6 with
      | some address => some (s.finish thread (.found domain isIPv6 address))
      | none => some (s.move thread (.waiting domain isIPv6))
    | _ => none
  | .lock thread =>
    match s.phase thread, s.holder with
    | .waiting domain isIPv6, none =>
      some { s.move thread (.locked domain isIPv6) with holder := some thread }
    | _, _ => none
  | .check thread =>
    match s.phase thread with
    | .locked domain isIPv6 =>
      match s.storage.fakeIPLoadDomain domain isIPv6 with
      | some address =>
        some { s.finish thread (.found domain isIPv6 address) with holder := none }
      | none => some (s.move thread (.missed domain isIPv6))
    | _ => none
  | .allocate thread =>
    match s.phase thread with
    | .missed domain isIPv6 =>
      if !(s.allocation.current isIPv6).isValid then
        some { s.finish thread (.failed domain isIPv6 (missingRange isIPv6)) with holder := none }
      else
        -- `FakeIPSaveMetadata` of the memory storage does nothing
        let (address, allocation) := advance store isIPv6 (reserve store s.allocation).2
        some { s.move thread (.allocated domain isIPv6 address) with allocation := allocation }
    | _ => none
  | .store thread =>
    match s.phase thread with
    | .allocated domain isIPv6 address =>
      some { s.finish thread (.stored domain isIPv6 address) with
        storage := s.storage.fakeIPStore address domain
        holder := none }
    | _ => none
  | .lookup address =>
    some { s with observed := .looked address (s.storage.fakeIPLoad address) :: s.observed }
  | .reset => some { s with storage := {}, observed := .reset :: s.observed }

/-- A store after `Start`. -/
def initial (store : Store) : State := { allocation := start store }

def exec (store : Store) (events : List Event) : Option State :=
  Library.run (step store) (initial store) events

end AmneziaBox.Source.FakeIP
