import AmneziaBox.Guarantees.FakeIPPairing
import AmneziaBox.Source.FakeIP.CacheFile

/-!
# The cache file answers like the memory storage

A batch laid over the maps below it gives the maps that its stores would have given. Of
the three layers (database, batch being written, pending batch) every lower part is
again a pair of inverse maps, and that is enough: inverse maps are determined by the
addresses, so the order in which a transaction writes its entries does not matter, and
the domain buckets come out right although no tombstone is ever written.
-/
namespace AmneziaBox.Guarantees.FakeIPWriteBehind
open Library Source.Adapter Source.FakeIP Function CacheFile Option List
open Source.FakeIP.CacheFile (loaded)
open FakeIPPairing

/-! ## Layers -/

/-- The two maps that a storage answers from. -/
@[ext] structure Maps where
  address : Addr → Option String
  domain : Bool → String → Option Addr

def Maps.Inverse (maps : Maps) : Prop :=
  ∀ isIPv6, Paired (inFamily isIPv6 maps.address) (maps.domain isIPv6)

def ofMemory (storage : MemoryStorage) : Maps where
  address := storage.fakeIPLoad
  domain isIPv6 domain := storage.fakeIPLoadDomain domain isIPv6

def ofDatabase (database : Database) : Maps := ⟨database.address, database.domain⟩

/-- The maps below, with the entries of the batch in front of them. -/
def atop (batch : PendingWrites) (below : Maps) : Maps where
  address address := (batch.fakeIPDomain.lookup address).or (below.address address)
  domain isIPv6 domain :=
    match batch.fakeIPAddress domain isIPv6 with
    | some address => loaded address
    | none => below.domain isIPv6 domain

/-- Everything below the pending batch. -/
def beneath (file : CacheFile) : Maps :=
  match file.writing with
  | some writing => atop writing (ofDatabase file.database)
  | none => ofDatabase file.database

def whole (file : CacheFile) : Maps := atop file.pending (beneath file)

theorem over_empty (below : Maps) : atop {} below = below := by
  ext : 1
  · funext address
    rfl
  · funext isIPv6 domain
    cases isIPv6 <;> rfl

theorem over_over (batch : PendingWrites) (below : Maps) :
    atop batch (atop batch below) = atop batch below := by
  ext : 1
  · funext address
    dsimp only [atop]
    cases batch.fakeIPDomain.lookup address <;> rfl
  · funext isIPv6 domain
    dsimp only [atop]
    cases batch.fakeIPAddress domain isIPv6 <;> rfl

/-- An address map has one inverse, so equal addresses make equal maps. -/
theorem Maps.Inverse.ext {first second : Maps} (one : first.Inverse) (other : second.Inverse)
    (same : first.address = second.address) : first = second := by
  refine Maps.ext same (funext fun isIPv6 => (one isIPv6).unique ?_)
  rw [same]
  exact other isIPv6

/-- The database holds no empty domain. -/
def Named (database : Database) : Prop := ∀ address, database.address address ≠ some ""

variable {database : Database} {isIPv6 : Bool} {domain : String}

/-- The addresses of a domain bucket are valid. -/
theorem loaded_of_inverse (inverse : (ofDatabase database).Inverse) :
    (database.domain isIPv6 domain).bind loaded = database.domain isIPv6 domain := by
  cases found : database.domain isIPv6 domain with
  | none => rfl
  | some address =>
    have owned := (inFamily_eq_some.mp ((inverse isIPv6 address domain).mpr found)).2
    rw [bind_some, loaded, if_pos (isValid_of_ofFamily owned)]

section Loads
variable {file : CacheFile}

theorem viewAddress_eq (named : Named file.database) (address : Addr) :
    file.viewAddress address = file.database.address address := by
  unfold viewAddress
  cases found : file.database.address address with
  | none => rfl
  | some domain =>
    have nonempty : domain ≠ "" := fun empty => named address (by rw [found, empty])
    exact if_pos nonempty

theorem fakeIPLoad_eq (named : Named file.database) (address : Addr) :
    file.fakeIPLoad address = (whole file).address address := by
  rw [fakeIPLoad, peekAddress, viewAddress_eq named, Option.or_assoc, whole,
    beneath]
  cases file.writing <;> rfl

theorem fakeIPLoadDomain_eq (inverse : (ofDatabase file.database).Inverse) (domain : String)
    (isIPv6 : Bool) :
    file.fakeIPLoadDomain domain isIPv6 = (whole file).domain isIPv6 domain := by
  rw [fakeIPLoadDomain, peekDomain, viewDomain,
    loaded_of_inverse inverse, whole, atop]
  dsimp only
  cases file.pending.fakeIPAddress domain isIPv6 with
  | some address => rfl
  | none =>
    rw [beneath]
    cases file.writing with
    | none => rfl
    | some writing =>
      cases writing.fakeIPAddress domain isIPv6 <;> rfl

end Loads

/-! ## Stores -/

/-- The maps that the memory storage has after the stores, the latest first. -/
def replay : List (Addr × String) → MemoryStorage
  | [] => {}
  | (address, domain) :: earlier => (replay earlier).fakeIPStore address domain

section Queue
variable (file : CacheFile) (oldDomain : Option String) (address : Addr) (domain : String)

theorem queueFakeIP_domain :
    (file.queueFakeIP oldDomain address domain).pending.fakeIPDomain =
      file.pending.fakeIPDomain.insert address domain := by
  unfold queueFakeIP
  repeat' split
  all_goals rfl

theorem queueFakeIP_address (other : String) (isIPv6 : Bool) :
    (file.queueFakeIP oldDomain address domain).pending.fakeIPAddress other isIPv6 =
      if address.is4 = !isIPv6 then
        if other = domain then some address
        else if oldDomain = some other then some .invalid
        else file.pending.fakeIPAddress other isIPv6
      else file.pending.fakeIPAddress other isIPv6 := by
  unfold queueFakeIP
  cases oldDomain with
  | none =>
    cases address.is4 <;> cases isIPv6 <;>
      simp [PendingWrites.fakeIPAddress, update_apply]
  | some old =>
    cases address.is4 <;> cases isIPv6 <;>
      simp [PendingWrites.fakeIPAddress, update_apply, eq_comm (a := old)]

theorem queueFakeIP_beneath :
    beneath (file.queueFakeIP oldDomain address domain) = beneath file := rfl

end Queue

variable {storage : MemoryStorage} {file : CacheFile} {address : Addr}

theorem queue_whole (same : whole file = ofMemory storage) (valid : address.isValid = true) :
    whole (file.queueFakeIP (storage.fakeIPLoad address) address domain) =
      ofMemory (storage.fakeIPStore address domain) := by
  ext : 1
  · funext other
    have before : (whole file).address other = storage.fakeIPLoad other := by rw [same]; rfl
    dsimp only [whole, atop, ofMemory] at before ⊢
    rw [queueFakeIP_domain, queueFakeIP_beneath, fakeIPStore_load, update_apply]
    by_cases here : other = address
    · subst here
      rw [AList.lookup_insert, if_pos rfl]
      rfl
    · rw [AList.lookup_insert_ne here, if_neg here, before]
  · funext isIPv6 other
    have before : (whole file).domain isIPv6 other = storage.fakeIPLoadDomain other isIPv6 := by
      rw [same]; rfl
    dsimp only [whole, atop, ofMemory] at before ⊢
    rw [queueFakeIP_address, fakeIPStore_loadDomain]
    by_cases family : address.is4 = !isIPv6
    · rw [if_pos family, if_pos family]
      by_cases here : other = domain
      · rw [if_pos here, if_pos here]
        exact if_pos valid
      · rw [if_neg here, if_neg here]
        by_cases lost : storage.fakeIPLoad address = some other
        · rw [if_pos lost, if_pos lost]
          rfl
        · rw [if_neg lost, if_neg lost]
          exact before
    · rw [if_neg family, if_neg family]
      exact before

/-! ## Flushes -/

theorem putDomain_eq (cache : Addr → Option String) (bucket : String → Option Addr)
    (address : Addr) (domain : String) :
    putDomain bucket (cache address) address domain = replace cache bucket address domain := by
  unfold putDomain Library.replace
  cases cache address <;> rfl

variable {after : Database}

theorem putFakeIP_some (put : putFakeIP database address domain = some after) :
    address.isValid = true ∧ domain ≠ "" ∧
      after.address = update database.address address (some domain) ∧
      ∀ isIPv6, after.domain isIPv6 =
        if address.is4 = !isIPv6 then
          replace database.address (database.domain isIPv6) address domain
        else database.domain isIPv6 := by
  simp only [putFakeIP] at put
  split at put
  · cases put
  · next guard =>
    simp only [Bool.or_eq_true, Bool.not_eq_true', decide_eq_true_eq, not_or,
      Bool.not_eq_false] at guard
    refine ⟨guard.1, guard.2, ?_⟩
    split at put <;> cases put
    · next family =>
      refine ⟨rfl, fun isIPv6 => ?_⟩
      cases isIPv6 <;> simp [family, Database.domain, putDomain_eq database.address]
    · next family =>
      refine ⟨rfl, fun isIPv6 => ?_⟩
      cases isIPv6 <;> simp [family, Database.domain, putDomain_eq database.address]

/-- `replace` looks at the forward map only where it writes. -/
theorem replace_inFamily {cache : Addr → Option String} {bucket : String → Option Addr}
    (family : address.ofFamily isIPv6 = true) :
    replace (inFamily isIPv6 cache) bucket address domain =
      replace cache bucket address domain := by
  have here : inFamily isIPv6 cache address = cache address := if_pos family
  unfold Library.replace
  rw [here]

variable {order : List (Sigma fun _ : Addr => String)}

theorem putAll_address (nodup : order.NodupKeys) (put : putAll order database = some after)
    (address : Addr) :
    after.address address = (order.dlookup address).or (database.address address) := by
  induction order generalizing database with
  | nil =>
    cases put
    rfl
  | cons entry rest ih =>
    obtain ⟨key, domain⟩ := entry
    obtain ⟨next, one, others⟩ := bind_eq_some_iff.mp put
    obtain ⟨fresh, distinct⟩ := nodupKeys_cons.mp nodup
    rw [ih distinct others, (putFakeIP_some one).2.2.1, update_apply]
    by_cases here : address = key
    · subst here
      rw [dlookup_eq_none.mpr fresh, if_pos rfl, dlookup_cons_eq]
      rfl
    · rw [if_neg here, dlookup_cons_ne _ _ here]

theorem putAll_named (named : Named database) (put : putAll order database = some after) :
    Named after := by
  induction order generalizing database with
  | nil =>
    cases put
    exact named
  | cons entry rest ih =>
    obtain ⟨next, one, others⟩ := bind_eq_some_iff.mp put
    obtain ⟨-, nonempty, addresses, -⟩ := putFakeIP_some one
    refine ih (fun address => ?_) others
    rw [addresses, update_apply]
    split
    · simpa using nonempty
    · exact named address

/-- The writes of one family. `target` is the address map that the batch leads to. -/
theorem putAll_pairedAfter {target : Addr → Option String}
    (injective : ∀ a x b, target a = some b → target x = some b → a = x) {written : List Addr}
    (nodup : order.NodupKeys) (fresh : ∀ a ∈ written, a ∉ order.keys)
    (entries : ∀ entry ∈ order, entry.1.ofFamily isIPv6 = true → target entry.1 = some entry.2)
    (done : ∀ a ∈ written, inFamily isIPv6 database.address a = target a)
    (paired : PairedAfter written (inFamily isIPv6 database.address) (database.domain isIPv6))
    (put : putAll order database = some after) :
    ∃ all, PairedAfter all (inFamily isIPv6 after.address) (after.domain isIPv6) := by
  induction order generalizing database written with
  | nil =>
    cases put
    exact ⟨written, paired⟩
  | cons entry rest ih =>
    obtain ⟨key, domain⟩ := entry
    obtain ⟨next, one, others⟩ := bind_eq_some_iff.mp put
    obtain ⟨unique, distinct⟩ := nodupKeys_cons.mp nodup
    obtain ⟨valid, -, addresses, domains⟩ := putFakeIP_some one
    have restFresh : ∀ a ∈ written, a ∉ rest.keys := fun a member inRest =>
      fresh a member (by simp [inRest])
    have restEntries : ∀ entry ∈ rest, entry.1.ofFamily isIPv6 = true →
        target entry.1 = some entry.2 := fun entry member => entries entry (by simp [member])
    cases family : key.ofFamily isIPv6 with
    | true =>
      have here : target key = some domain := entries ⟨key, domain⟩ (by simp) family
      have new : key ∉ written := fun member => fresh key member (by simp)
      have unowned : ∀ x ∈ written, inFamily isIPv6 database.address x ≠ some domain := by
        intro x member owned
        rw [done x member] at owned
        exact new (injective x key domain owned here ▸ member)
      have step := paired.replace new unowned
      rw [replace_inFamily family, ← inFamily_update family, ← addresses] at step
      have bucket : next.domain isIPv6 =
          replace database.address (database.domain isIPv6) key domain := by
        rw [domains, if_pos (is4_of_ofFamily family)]
      rw [← bucket] at step
      refine ih distinct ?_ restEntries ?_ step others
      · rintro a member inRest
        rcases mem_cons.mp member with rfl | belongs
        · exact unique inRest
        · exact restFresh a belongs inRest
      · rintro a member
        rw [addresses, inFamily_update family, update_apply]
        split
        · next equal => rw [equal, here]
        · next different => exact done a (by simpa [different] using member)
    | false =>
      -- an entry of the other family touches neither map
      have foreign : key.is4 ≠ !isIPv6 := by
        cases key <;> cases isIPv6 <;> simp_all [Addr.is4, Addr.ofFamily, Addr.isValid]
      have same : inFamily isIPv6 next.address = inFamily isIPv6 database.address := by
        rw [addresses, inFamily_update_other family]
      refine ih distinct restFresh restEntries ?_ ?_ others
      · rw [same]
        exact done
      · rw [same, domains, if_neg foreign]
        exact paired

/-- A transaction in any order puts the batch over the database. -/
theorem writePending_over {batch : PendingWrites} (perm : order.Perm batch.fakeIPDomain.entries)
    (inverse : (ofDatabase database).Inverse) (target : (atop batch (ofDatabase database)).Inverse)
    (wrote : writePending order batch database = some after) :
    ofDatabase after = atop batch (ofDatabase database) := by
  obtain ⟨final, put, rfl⟩ := map_eq_some_iff.mp wrote
  have nodup : order.NodupKeys := (perm_nodupKeys perm).mpr batch.fakeIPDomain.nodupKeys
  have address : final.address = (atop batch (ofDatabase database)).address := by
    funext a
    rw [putAll_address nodup put, perm_dlookup a nodup perm]
    rfl
  have paired : (ofDatabase final).Inverse := by
    intro isIPv6
    have injective : ∀ a x b, inFamily isIPv6 (atop batch (ofDatabase database)).address a = some b →
        inFamily isIPv6 (atop batch (ofDatabase database)).address x = some b → a = x :=
      fun a x b => (target isIPv6).forward_injective
    have entries : ∀ entry ∈ order, entry.1.ofFamily isIPv6 = true →
        inFamily isIPv6 (atop batch (ofDatabase database)).address entry.1 = some entry.2 := by
      intro entry member family
      have found : batch.fakeIPDomain.lookup entry.1 = some entry.2 :=
        mem_dlookup batch.fakeIPDomain.nodupKeys (perm.mem_iff.mp member)
      refine inFamily_eq_some.mpr ⟨?_, family⟩
      dsimp only [atop]
      rw [found]
      rfl
    obtain ⟨all, after⟩ := putAll_pairedAfter injective nodup (by simp) entries (by simp)
      (inverse isIPv6).pairedAfter put
    refine after.paired ?_
    rw [address]
    exact injective
  have equal := paired.ext target address
  cases batch.fakeIPMetadata <;> exact equal

/-! ## Runs -/

/-- What the call of `Create` has found out so far. -/
def PhaseSound (file : CacheFile) (storage : MemoryStorage) : FilePhase → Prop
  | .idle => True
  | .checking .. => True
  | .viewing _ domain isIPv6 => file.peekDomain domain isIPv6 = none
  | .missed domain isIPv6 => storage.fakeIPLoadDomain domain isIPv6 = none
  | .loading domain isIPv6 address =>
    storage.fakeIPLoadDomain domain isIPv6 = none ∧ address.ofFamily isIPv6 = true
  | .reading domain isIPv6 address =>
    (storage.fakeIPLoadDomain domain isIPv6 = none ∧ address.ofFamily isIPv6 = true) ∧
      file.peekAddress address = none
  | .queueing domain isIPv6 address oldDomain =>
    (storage.fakeIPLoadDomain domain isIPv6 = none ∧ address.ofFamily isIPv6 = true) ∧
      oldDomain = storage.fakeIPLoad address

/-- What is in neither batch stays out of them while no store is queued. -/
theorem PhaseSound.mono {later : CacheFile} {phase : FilePhase}
    (sound : PhaseSound file storage phase)
    (domains : ∀ domain isIPv6, file.peekDomain domain isIPv6 = none →
      later.peekDomain domain isIPv6 = none)
    (addresses : ∀ address, file.peekAddress address = none → later.peekAddress address = none) :
    PhaseSound later storage phase := by
  cases phase with
  | viewing locked domain isIPv6 => exact domains domain isIPv6 sound
  | reading domain isIPv6 address => exact ⟨sound.1, addresses address sound.2⟩
  | _ => exact sound

theorem checked_sound {found : Option Addr} {locked : Bool}
    (same : found = storage.fakeIPLoadDomain domain isIPv6) :
    PhaseSound file storage (checked found locked domain isIPv6) := by
  cases found with
  | some address => trivial
  | none =>
    cases locked with
    | false => trivial
    | true => exact same.symm

structure Layered (store : Store) (s : FileState) : Prop where
  memory : (ofMemory (replay s.stores)).Inverse
  database : (ofDatabase s.file.database).Inverse
  named : Named s.file.database
  beneath : (beneath s.file).Inverse
  whole : whole s.file = ofMemory (replay s.stores)
  flushed : s.flushed = true → FakeIPWriteBehind.beneath s.file = ofDatabase s.file.database
  advancing : Advancing store s.allocation
  phase : PhaseSound s.file (replay s.stores) s.phase

namespace Layered
variable {store : Store} {s : FileState} (layered : Layered store s)
include layered

theorem load (address : Addr) :
    s.file.fakeIPLoad address = (replay s.stores).fakeIPLoad address := by
  rw [fakeIPLoad_eq layered.named, layered.whole]
  rfl

theorem loadDomain (domain : String) (isIPv6 : Bool) :
    s.file.fakeIPLoadDomain domain isIPv6 = (replay s.stores).fakeIPLoadDomain domain isIPv6 := by
  rw [fakeIPLoadDomain_eq layered.database, layered.whole]
  rfl

/-- The call goes on without touching the file. -/
theorem move {phase : FilePhase}
    (sound : PhaseSound s.file (replay s.stores) phase) :
    Layered store { s with phase := phase } :=
  { layered with phase := sound }

theorem allocate {domain : String} {isIPv6 : Bool}
    (phase : s.phase = .missed domain isIPv6)
    (valid : (s.allocation.current isIPv6).isValid = true) :
    Layered store { s with
      file := s.file.saveMetadata (reserve store s.allocation).1
      allocation := (advance store isIPv6 (reserve store s.allocation).2).2
      phase := .loading domain isIPv6 (advance store isIPv6 (reserve store s.allocation).2).1 } := by
  have advancing : Advancing store (reserve store s.allocation).2 := by
    intro other
    rw [reserve_current]
    exact layered.advancing other
  have current : ((reserve store s.allocation).2.current isIPv6).isValid = true := by
    rw [reserve_current]
    exact valid
  have missed : PhaseSound s.file (replay s.stores) (.missed domain isIPv6) := phase ▸ layered.phase
  have kept : ∀ metadata, Layered store { s with
      file := s.file.saveMetadata metadata
      allocation := (advance store isIPv6 (reserve store s.allocation).2).2
      phase := .loading domain isIPv6
        (advance store isIPv6 (reserve store s.allocation).2).1 } := by
    intro metadata
    cases metadata <;> exact
      { layered with
        advancing := advance_advancing advancing current
        phase := ⟨missed, advance_address advancing current⟩ }
  exact kept _

theorem queue {domain : String} {isIPv6 : Bool} {address : Addr}
    {oldDomain : Option String} (phase : s.phase = .queueing domain isIPv6 address oldDomain) :
    Layered store { s with
      file := s.file.queueFakeIP oldDomain address domain
      phase := .idle
      stores := (address, domain) :: s.stores } := by
  have sound := layered.phase
  rw [phase] at sound
  obtain ⟨⟨free, family⟩, rfl⟩ := sound
  have memory : MapsPaired (replay s.stores) := layered.memory
  exact
    { layered with
      memory := memory.fakeIPStore family free
      whole := queue_whole layered.whole (isValid_of_ofFamily family)
      phase := trivial }

theorem swap (idle : s.file.writing = none) :
    Layered store { s with
      file := { s.file with pending := {}, writing := some s.file.pending }
      flushed := false } := by
  have under : FakeIPWriteBehind.beneath s.file = ofDatabase s.file.database := by
    rw [FakeIPWriteBehind.beneath, idle]
  have same : atop s.file.pending (ofDatabase s.file.database) = ofMemory (replay s.stores) := by
    rw [← under]
    exact layered.whole
  refine
    { layered with
      beneath := ?_
      whole := (over_empty _).trans same
      flushed := fun flushed => by cases flushed
      phase := layered.phase.mono ?_ ?_ }
  · show (atop s.file.pending (ofDatabase s.file.database)).Inverse
    rw [same]
    exact layered.memory
  · intro domain isIPv6 absent
    rw [peekDomain, idle, bind_none, or_none] at absent
    cases isIPv6 <;> exact absent
  · intro address absent
    rw [peekAddress, idle, bind_none, or_none] at absent
    exact absent

section
variable {writing : PendingWrites} (running : s.file.writing = some writing)
include running

theorem written (perm : order.Perm writing.fakeIPDomain.entries)
    (wrote : writePending order writing s.file.database = some database) :
    ofDatabase database = atop writing (ofDatabase s.file.database) := by
  have target := layered.beneath
  rw [FakeIPWriteBehind.beneath, running] at target
  exact writePending_over perm layered.database target wrote

theorem write (perm : order.Perm writing.fakeIPDomain.entries)
    (wrote : writePending order writing s.file.database = some database) :
    Layered store { s with
      file := { s.file with database := database }
      flushed := true } := by
  have under : FakeIPWriteBehind.beneath s.file = atop writing (ofDatabase s.file.database) := by
    rw [FakeIPWriteBehind.beneath, running]
  have written := layered.written running perm wrote
  have same : FakeIPWriteBehind.beneath { s.file with database := database } =
      FakeIPWriteBehind.beneath s.file := by
    rw [under, FakeIPWriteBehind.beneath]
    rw [running]
    dsimp only
    rw [written, over_over]
  obtain ⟨final, put, named⟩ := map_eq_some_iff.mp wrote
  refine
    { layered with
      database := ?_
      named := ?_
      beneath := ?_
      whole := ?_
      flushed := fun _ => same.trans (under.trans written.symm) }
  · rw [written, ← under]
    exact layered.beneath
  · have kept := putAll_named layered.named put
    rw [← named]
    cases writing.fakeIPMetadata <;> exact kept
  · rw [same]
    exact layered.beneath
  · show atop s.file.pending (FakeIPWriteBehind.beneath _) = _
    rw [same]
    exact layered.whole

end

theorem complete (flushed : s.flushed = true) :
    Layered store { s with file := { s.file with writing := none } } := by
  have under := layered.flushed flushed
  refine
    { layered with
      beneath := layered.database
      whole := ?_
      flushed := fun _ => rfl
      phase := layered.phase.mono ?_ ?_ }
  · show atop s.file.pending (ofDatabase s.file.database) = _
    rw [← under]
    exact layered.whole
  · intro domain isIPv6 absent
    rw [peekDomain, or_eq_none_iff] at absent
    show (s.file.pending.fakeIPAddress domain isIPv6).or none = none
    rw [absent.1]
    rfl
  · intro address absent
    rw [peekAddress, or_eq_none_iff] at absent
    show (s.file.pending.fakeIPDomain.lookup address).or none = none
    rw [absent.1]
    rfl

end Layered

variable {store : Store}

theorem fileStep_layered {s t : FileState} {event : FileEvent} (layered : Layered store s)
    (stepped : fileStep store s event = some t) : Layered store t := by
  cases event with
  | create domain isIPv6 =>
    simp only [fileStep] at stepped
    split at stepped
    · cases stepped
      exact layered.move trivial
    · cases stepped
  | peek =>
    simp only [fileStep] at stepped
    split at stepped
    · next locked domain isIPv6 phase =>
      split at stepped
      · next address found =>
        cases stepped
        refine layered.move (checked_sound ?_)
        rw [← layered.loadDomain, fakeIPLoadDomain, found]
      · next absent =>
        cases stepped
        exact layered.move absent
    · next domain isIPv6 address phase =>
      have sound := layered.phase
      rw [phase] at sound
      split at stepped
      · next oldDomain found =>
        cases stepped
        refine layered.move ⟨sound, ?_⟩
        rw [← layered.load, fakeIPLoad, found]
        rfl
      · next absent =>
        cases stepped
        exact layered.move ⟨sound, absent⟩
    · cases stepped
  | view =>
    simp only [fileStep] at stepped
    split at stepped
    · next locked domain isIPv6 phase =>
      have absent := layered.phase
      rw [phase] at absent
      cases stepped
      refine layered.move (checked_sound ?_)
      rw [← layered.loadDomain, fakeIPLoadDomain]
      rw [show s.file.peekDomain domain isIPv6 = none from absent]
    · next domain isIPv6 address phase =>
      have sound := layered.phase
      rw [phase] at sound
      cases stepped
      refine layered.move ⟨sound.1, ?_⟩
      rw [← layered.load, fakeIPLoad, sound.2]
      rfl
    · cases stepped
  | allocate =>
    simp only [fileStep] at stepped
    split at stepped
    · next domain isIPv6 phase =>
      split at stepped
      · cases stepped
        exact layered.move trivial
      · next valid =>
        cases stepped
        exact layered.allocate phase (by simpa using valid)
    · cases stepped
  | queue =>
    simp only [fileStep] at stepped
    split at stepped
    · next phase =>
      cases stepped
      exact layered.queue phase
    · cases stepped
  | swap =>
    simp only [fileStep] at stepped
    split at stepped
    · next idle =>
      cases stepped
      exact layered.swap idle
    · cases stepped
  | write order =>
    simp only [fileStep] at stepped
    split at stepped
    · next writing running =>
      split at stepped
      · next possible =>
        obtain ⟨database, wrote, rfl⟩ := map_eq_some_iff.mp stepped
        exact layered.write running possible.2 wrote
      · cases stepped
    · cases stepped
  | complete =>
    simp only [fileStep] at stepped
    split at stepped
    · split at stepped
      · next flushed =>
        cases stepped
        exact layered.complete flushed
      · cases stepped
    · cases stepped

theorem initial_layered (usable : Usable store) :
    Layered store (fileInitial store) where
  memory := empty_paired
  database := by
    intro isIPv6
    cases isIPv6 <;> exact empty_paired _
  named _ := by simp [fileInitial]
  beneath := by
    intro isIPv6
    cases isIPv6 <;> exact empty_paired _
  whole := by
    show atop {} (ofDatabase {}) = ofMemory {}
    rw [over_empty]
    ext : 1
    · rfl
    · funext isIPv6
      cases isIPv6 <;> rfl
  flushed _ := rfl
  advancing := start_advancing usable
  phase := trivial

/-! ## Loads that take two looks -/

/-- Something to ask the maps: an address or a domain. A batch may know the answer. -/
structure Key (γ : Type) where
  ask : Maps → Option γ
  hit : PendingWrites → Option (Option γ)
  ask_over : ∀ batch below, ask (atop batch below) = (hit batch).getD (ask below)

def addressKey (address : Addr) : Key String where
  ask maps := maps.address address
  hit batch := (batch.fakeIPDomain.lookup address).map some
  ask_over batch below := by
    dsimp only [atop]
    cases batch.fakeIPDomain.lookup address <;> rfl

def domainKey (domain : String) (isIPv6 : Bool) : Key Addr where
  ask maps := maps.domain isIPv6 domain
  hit batch := (batch.fakeIPAddress domain isIPv6).map loaded
  ask_over batch below := by
    dsimp only [atop]
    cases batch.fakeIPAddress domain isIPv6 <;> rfl

/-- The memory storage gave the answer at some moment between the two lists of stores. -/
def AnsweredBetween {γ : Type} (key : Key γ) (first last : List (Addr × String))
    (answer : Option γ) : Prop :=
  ∃ moment, first <:+ moment ∧ moment <:+ last ∧ key.ask (ofMemory (replay moment)) = answer

/-- Since a look at the two batches found nothing: what the database and the batch being
written say about the key was the answer at some moment. -/
structure Recent {γ : Type} (key : Key γ) (first : List (Addr × String)) (s : FileState) :
    Prop where
  order : first <:+ s.stores
  database : AnsweredBetween key first s.stores (key.ask (ofDatabase s.file.database))
  writing : ∀ writing answer, s.file.writing = some writing → key.hit writing = some answer →
    AnsweredBetween key first s.stores answer

/-- What a step does to the layers. -/
inductive Effect (s t : FileState) : Prop
  | call (database : t.file.database = s.file.database) (writing : t.file.writing = s.file.writing)
      (stores : s.stores <:+ t.stores)
  | swap (idle : s.file.writing = none) (database : t.file.database = s.file.database)
      (writing : t.file.writing = some s.file.pending) (stores : t.stores = s.stores)
  | write (order : List (Sigma fun _ : Addr => String)) (writing : PendingWrites)
      (running : s.file.writing = some writing)
      (perm : order.Perm writing.fakeIPDomain.entries)
      (wrote : writePending order writing s.file.database = some t.file.database)
      (kept : t.file.writing = some writing) (stores : t.stores = s.stores)
  | complete (database : t.file.database = s.file.database) (writing : t.file.writing = none)
      (stores : t.stores = s.stores)

theorem fileStep_effect {s t : FileState} {event : FileEvent}
    (stepped : fileStep store s event = some t) : Effect s t := by
  cases event with
  | create | peek | view =>
    simp only [fileStep] at stepped
    repeat' split at stepped
    all_goals cases stepped
    all_goals exact .call rfl rfl (suffix_refl _)
  | allocate =>
    simp only [fileStep] at stepped
    repeat' split at stepped
    all_goals cases stepped
    · exact .call rfl rfl (suffix_refl _)
    · refine .call ?_ ?_ (suffix_refl _)
      all_goals cases (reserve store s.allocation).1 <;> rfl
  | queue =>
    simp only [fileStep] at stepped
    split at stepped
    · cases stepped
      exact .call rfl rfl (suffix_cons _ _)
    · cases stepped
  | swap =>
    simp only [fileStep] at stepped
    split at stepped
    · next idle =>
      cases stepped
      exact .swap idle rfl rfl rfl
    · cases stepped
  | write order =>
    simp only [fileStep] at stepped
    split at stepped
    · next writing running =>
      split at stepped
      · next possible =>
        obtain ⟨database, wrote, rfl⟩ := map_eq_some_iff.mp stepped
        exact .write order writing running possible.2 wrote running rfl
      · cases stepped
    · cases stepped
  | complete =>
    simp only [fileStep] at stepped
    split at stepped
    · split at stepped
      · cases stepped
        exact .complete rfl rfl rfl
      · cases stepped
    · cases stepped

section Recent
variable {γ : Type} {key : Key γ} {first : List (Addr × String)} {s t : FileState}

theorem AnsweredBetween.mono {last later : List (Addr × String)} {answer : Option γ}
    (answered : AnsweredBetween key first last answer) (longer : last <:+ later) :
    AnsweredBetween key first later answer := by
  obtain ⟨moment, after, before, same⟩ := answered
  exact ⟨moment, after, before.trans longer, same⟩

theorem Recent.step (recent : Recent key first s) (layered : Layered store s)
    (effect : Effect s t) : Recent key first t := by
  cases effect with
  | call database writing stores =>
    refine ⟨recent.order.trans stores, ?_, fun batch answer running hit => ?_⟩
    · rw [database]
      exact recent.database.mono stores
    · rw [writing] at running
      exact (recent.writing batch answer running hit).mono stores
  | swap _ database writing stores =>
    refine ⟨stores ▸ recent.order, ?_, fun batch answer running hit => ?_⟩
    · rw [database, stores]
      exact recent.database
    · -- the pending batch answers what the memory storage answers now
      cases writing.symm.trans running
      refine ⟨t.stores, stores ▸ recent.order, suffix_refl _, ?_⟩
      rw [stores, ← layered.whole, whole, key.ask_over, hit]
      rfl
  | write order batch running perm wrote kept stores =>
    have written := layered.written running perm wrote
    refine ⟨stores ▸ recent.order, ?_, fun writing answer later hit => ?_⟩
    · rw [written, key.ask_over, stores]
      cases hit : key.hit batch with
      | none => exact recent.database
      | some answer => exact recent.writing batch answer running hit
    · cases kept.symm.trans later
      rw [stores]
      exact recent.writing batch answer running hit
  | complete database writing stores =>
    refine ⟨stores ▸ recent.order, ?_, fun batch answer running _ => ?_⟩
    · rw [database, stores]
      exact recent.database
    · rw [writing] at running
      cases running

/-- From a look at the two batches that found nothing to any later moment. -/
theorem recent_of_run (layered : Layered store s) {events : List FileEvent}
    (pending : key.hit s.file.pending = none)
    (writing : ∀ batch, s.file.writing = some batch → key.hit batch = none)
    (ran : run (fileStep store) s events = some t) : Recent key s.stores t := by
  have now : key.ask (ofMemory (replay s.stores)) = key.ask (ofDatabase s.file.database) := by
    rw [← layered.whole, whole, key.ask_over, pending, beneath]
    cases running : s.file.writing with
    | none => rfl
    | some batch =>
      rw [key.ask_over, writing batch running]
      rfl
  have start : Recent key s.stores s := by
    refine ⟨suffix_refl _, ⟨s.stores, suffix_refl _, suffix_refl _, now⟩, ?_⟩
    intro batch answer running hit
    rw [writing batch running] at hit
    cases hit
  have both := run_invariant
    (fun u event v (holds : Layered store u ∧ Recent key s.stores u) stepped =>
      And.intro (fileStep_layered holds.1 stepped)
        (holds.2.step holds.1 (fileStep_effect stepped)))
    ⟨layered, start⟩ ran
  exact both.2

end Recent

/-- In every state that `Create` calls and flushes lead to, the cache file answers like the
memory storage after the same stores. A load that finds nothing in the batches of one
state and looks at the database in a later one answers like the memory storage at some
moment in between. -/
theorem cacheFile_refines_memory {store : Store} (usable : Usable store)
    {events : List FileEvent} {s : FileState} (ran : fileExec store events = some s) :
    (∀ address, s.file.fakeIPLoad address = (replay s.stores).fakeIPLoad address) ∧
    (∀ domain isIPv6, s.file.fakeIPLoadDomain domain isIPv6 =
      (replay s.stores).fakeIPLoadDomain domain isIPv6) ∧
    ∀ (later : List FileEvent) (t : FileState), run (fileStep store) s later = some t →
      (∀ address, s.file.peekAddress address = none →
        ∃ moment, s.stores <:+ moment ∧ moment <:+ t.stores ∧
          t.file.viewAddress address = (replay moment).fakeIPLoad address) ∧
      ∀ domain isIPv6, s.file.peekDomain domain isIPv6 = none →
        ∃ moment, s.stores <:+ moment ∧ moment <:+ t.stores ∧
          t.file.viewDomain domain isIPv6 = (replay moment).fakeIPLoadDomain domain isIPv6 := by
  have layered : Layered store s :=
    run_invariant (fun _ _ _ => fileStep_layered) (initial_layered usable) ran
  refine ⟨layered.load, layered.loadDomain, fun later t onward => ⟨?_, ?_⟩⟩
  all_goals
    have after : Layered store t :=
      run_invariant (fun _ _ _ => fileStep_layered) layered onward
  · intro address absent
    rw [peekAddress, Option.or_eq_none_iff] at absent
    have recent : Recent (addressKey address) s.stores t := by
      refine recent_of_run layered ?_ ?_ onward
      · exact congrArg (Option.map some) absent.1
      · intro batch running
        rw [running] at absent
        exact congrArg (Option.map some) absent.2
    obtain ⟨moment, since, until_, same⟩ := recent.database
    exact ⟨moment, since, until_, (viewAddress_eq after.named address).trans same.symm⟩
  · intro domain isIPv6 absent
    rw [peekDomain, Option.or_eq_none_iff] at absent
    have recent : Recent (domainKey domain isIPv6) s.stores t := by
      refine recent_of_run layered ?_ ?_ onward
      · exact congrArg (Option.map loaded) absent.1
      · intro batch running
        rw [running] at absent
        exact congrArg (Option.map loaded) absent.2
    obtain ⟨moment, since, until_, same⟩ := recent.database
    exact ⟨moment, since, until_, (loaded_of_inverse after.database).trans same.symm⟩

/-- `Create` in its steps, with every lookup missing the batches. -/
def createUncached (domain : String) : List FileEvent :=
  [.create domain false, .peek, .view, .peek, .view, .allocate, .peek, .view, .queue]

/-- `198.18.0.0/30`: one address, which every new domain takes over. -/
def singleAddress : Store := { inet4Range := some ⟨.ipv4 0xc6120000, 30⟩ }

/-- The address goes to a second domain while the batch with the first one is written. -/
theorem recycled_during_flush :
    Usable singleAddress ∧ ∃ s, fileExec singleAddress (createUncached "a" ++ [.swap] ++
        [.create "b" false, .peek, .view, .peek, .view, .allocate, .peek, .queue] ++
        [.write [⟨.ipv4 0xc6120002, "a"⟩], .complete]) = some s ∧
      s.file.database.address (.ipv4 0xc6120002) = some "a" ∧
      s.file.fakeIPLoad (.ipv4 0xc6120002) = some "b" ∧
      s.file.fakeIPLoad (.ipv4 0xc6120002) =
        (replay s.stores).fakeIPLoad (.ipv4 0xc6120002) := by
  have usable : Usable singleAddress := by decide
  obtain ⟨s, ran⟩ : ∃ s, fileExec singleAddress (createUncached "a" ++ [.swap] ++
      [.create "b" false, .peek, .view, .peek, .view, .allocate, .peek, .queue] ++
      [.write [⟨.ipv4 0xc6120002, "a"⟩], .complete]) = some s := ⟨_, rfl⟩
  refine ⟨usable, s, ran, ?_, ?_, (cacheFile_refines_memory usable ran).1 _⟩
  all_goals
    cases ran
    decide

/-- In the last range of all `Create` stores the invalid address, which the pending batch
takes for a domain without one. -/
theorem last_range_answers_differ :
    ∃ s, fileExec lastRange (createUncached "a") = some s ∧
      s.file.fakeIPLoadDomain "a" true = none ∧
      (replay s.stores).fakeIPLoadDomain "a" true = some .invalid := by
  refine ⟨_, rfl, ?_, ?_⟩ <;> decide

end AmneziaBox.Guarantees.FakeIPWriteBehind
