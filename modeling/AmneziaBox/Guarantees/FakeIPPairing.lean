import AmneziaBox.Library.History
import AmneziaBox.Library.Pairing
import AmneziaBox.Source.FakeIP.Store

/-!
# FakeIP addresses and domains are paired

In every run of calls on a store with memory storage the two maps of a family are inverse
to each other. A domain keeps the address that `Create` returned for it until the address
goes to another domain or the store is reset, and `Lookup` leads back to the domain as
long. This needs ranges in which the allocator can stay: `nextAddress` returns to the
third address of the range without asking whether there is one.
-/
namespace AmneziaBox.Guarantees.FakeIPPairing
open Library Source.Adapter Source.DNS Source.FakeIP Function MemoryStorage

/-! ## Addresses of a range -/

variable {address : Addr} {isIPv6 : Bool}

theorem next_ofFamily (valid : address.next.isValid = true) :
    address.next.ofFamily isIPv6 = address.ofFamily isIPv6 := by
  cases address with
  | invalid => rfl
  | ipv4 value | ipv6 value =>
    unfold Addr.next at valid ⊢
    dsimp only at valid ⊢
    split
    · next overflow => rw [if_pos overflow] at valid; cases valid
    · rfl

theorem isValid_of_ofFamily (family : address.ofFamily isIPv6 = true) : address.isValid = true := by
  cases address <;> first | rfl | cases family

theorem isValid_of_contains {range : Option Prefix} (inside : contains range address = true) :
    address.isValid = true := by
  unfold contains at inside
  cases range with
  | none => cases inside
  | some range =>
    cases address with
    | invalid =>
      dsimp only at inside
      split at inside
      · next equal => cases equal
      · next equal => cases equal
      · cases inside
    | ipv4 value | ipv6 value => rfl

/-- An address that is of no family is invalid, and one is of one family only. -/
theorem ofFamily_unique {first second : Bool} (one : address.ofFamily first = true)
    (other : address.ofFamily second = true) : first = second := by
  cases address <;> simp_all [Addr.ofFamily]

theorem is4_of_ofFamily (family : address.ofFamily isIPv6 = true) : address.is4 = !isIPv6 := by
  cases address <;> simp_all [Addr.ofFamily, Addr.is4]

/-- The range gives addresses of the family, or none at all: where an address follows its
base, another one follows that, and both are of the family. -/
def RangeUsable (isIPv6 : Bool) (range : Option Prefix) : Prop :=
  (rangeAddr range).next.isValid = true → (rangeAddr range).next.next.ofFamily isIPv6 = true

instance (isIPv6 : Bool) (range : Option Prefix) : Decidable (RangeUsable isIPv6 range) :=
  inferInstanceAs (Decidable (_ → _))

def range (store : Store) (isIPv6 : Bool) : Option Prefix :=
  if isIPv6 then store.inet6Range else store.inet4Range

/-- Each range of the store gives addresses of its own family, or none. -/
def Usable (store : Store) : Prop := ∀ isIPv6, RangeUsable isIPv6 (range store isIPv6)

instance (store : Store) : Decidable (Usable store) :=
  inferInstanceAs (Decidable (∀ isIPv6, RangeUsable isIPv6 (range store isIPv6)))

theorem nextAddress_ofFamily {range : Option Prefix} {last current : Addr}
    (wraps : (rangeAddr range).next.next.ofFamily isIPv6 = true)
    (family : current.ofFamily isIPv6 = true) :
    (nextAddress range last current).ofFamily isIPv6 = true := by
  unfold nextAddress
  dsimp only
  split
  · exact wraps
  · next inside =>
    simp only [Bool.or_eq_true, Bool.not_eq_true', not_or, Bool.not_eq_false] at inside
    rw [next_ofFamily (isValid_of_contains inside.2), family]

/-- The current address of a family is invalid, or one from which the allocator goes on. -/
def Advancing (store : Store) (allocation : Allocation) : Prop :=
  ∀ isIPv6, (allocation.current isIPv6).isValid = true →
    (allocation.current isIPv6).ofFamily isIPv6 = true ∧
      (rangeAddr (range store isIPv6)).next.next.ofFamily isIPv6 = true

variable {store : Store}

theorem start_advancing (usable : Usable store) : Advancing store (start store) := by
  intro isIPv6 valid
  have current : (start store).current isIPv6 = (rangeAddr (range store isIPv6)).next := by
    cases isIPv6 <;> rfl
  rw [current] at valid ⊢
  have wraps := usable isIPv6 valid
  exact ⟨by rw [← next_ofFamily (isValid_of_ofFamily wraps)]; exact wraps, wraps⟩

theorem reserve_current (store : Store) (allocation : Allocation) (isIPv6 : Bool) :
    (reserve store allocation).2.current isIPv6 = allocation.current isIPv6 := by
  unfold reserve
  split <;> rfl

theorem advance_address {allocation : Allocation} (advancing : Advancing store allocation)
    (valid : (allocation.current isIPv6).isValid = true) :
    (advance store isIPv6 allocation).1.ofFamily isIPv6 = true := by
  obtain ⟨family, wraps⟩ := advancing isIPv6 valid
  cases isIPv6 <;> exact nextAddress_ofFamily wraps family

theorem advance_advancing {allocation : Allocation} (advancing : Advancing store allocation)
    (valid : (allocation.current isIPv6).isValid = true) :
    Advancing store (advance store isIPv6 allocation).2 := by
  have address := advance_address advancing valid
  have wraps := (advancing isIPv6 valid).2
  intro other otherValid
  cases isIPv6 <;> cases other
  · exact ⟨address, wraps⟩
  · exact advancing true otherValid
  · exact advancing false otherValid
  · exact ⟨address, wraps⟩

/-! ## The two maps of a family -/

/-- An address map, restricted to the addresses of one family. -/
def inFamily (isIPv6 : Bool) (cache : Addr → Option String) (address : Addr) : Option String :=
  if address.ofFamily isIPv6 then cache address else none

variable {cache : Addr → Option String} {domain : String}

theorem inFamily_eq_some : inFamily isIPv6 cache address = some domain ↔
      cache address = some domain ∧ address.ofFamily isIPv6 = true := by
  unfold inFamily
  split
  · next family => simp [family]
  · next family => simp [family]

theorem inFamily_update (family : address.ofFamily isIPv6 = true) :
    inFamily isIPv6 (update cache address (some domain)) =
      update (inFamily isIPv6 cache) address (some domain) := by
  funext other
  rw [update_apply, inFamily, update_apply]
  by_cases here : other = address
  · simp [here, family]
  · simp [here, inFamily]

theorem inFamily_update_other (family : address.ofFamily isIPv6 = false) :
    inFamily isIPv6 (update cache address (some domain)) = inFamily isIPv6 cache := by
  funext other
  rw [inFamily, inFamily, update_apply]
  by_cases here : other = address
  · simp [here, family]
  · simp [here]

def MapsPaired (storage : MemoryStorage) : Prop :=
  ∀ isIPv6, Paired (inFamily isIPv6 storage.fakeIPLoad) fun domain =>
    storage.fakeIPLoadDomain domain isIPv6

theorem empty_paired : MapsPaired {} := by
  intro isIPv6 address domain
  rw [inFamily_eq_some]
  cases isIPv6 <;> simp [fakeIPLoad, fakeIPLoadDomain]

section StoreMaps
variable (storage : MemoryStorage) (address : Addr) (domain : String)

theorem fakeIPStore_load :
    (storage.fakeIPStore address domain).fakeIPLoad =
      update storage.fakeIPLoad address (some domain) := by
  have cache : (storage.fakeIPStore address domain).addressCache =
      update storage.addressCache address (some domain) := by
    unfold fakeIPStore
    repeat' split
    all_goals rfl
  exact cache

theorem fakeIPStore_loadDomain (other : String) (isIPv6 : Bool) :
    (storage.fakeIPStore address domain).fakeIPLoadDomain other isIPv6 =
      if address.is4 = !isIPv6 then
        if other = domain then some address
        else if storage.fakeIPLoad address = some other then none
        else storage.fakeIPLoadDomain other isIPv6
      else storage.fakeIPLoadDomain other isIPv6 := by
  unfold fakeIPStore fakeIPLoad
  cases old : storage.addressCache address with
  | none =>
    cases address.is4 <;> cases isIPv6 <;>
      simp [fakeIPLoadDomain, update_apply]
  | some oldDomain =>
    cases address.is4 <;> cases isIPv6 <;>
      simp [fakeIPLoadDomain, update_apply, eq_comm (a := oldDomain)]

end StoreMaps

/-- Storing a pair whose domain has no address keeps the maps paired. -/
theorem MapsPaired.fakeIPStore {storage : MemoryStorage} (paired : MapsPaired storage)
    (family : address.ofFamily isIPv6 = true)
    (free : storage.fakeIPLoadDomain domain isIPv6 = none) :
    MapsPaired (storage.fakeIPStore address domain) := by
  intro other
  by_cases same : other = isIPv6
  · subst same
    have backward : (fun d => (storage.fakeIPStore address domain).fakeIPLoadDomain d other) =
        assign (inFamily other storage.fakeIPLoad) (fun d => storage.fakeIPLoadDomain d other)
          address domain := by
      funext d
      rw [assign_apply, fakeIPStore_loadDomain, if_pos (is4_of_ofFamily family), inFamily,
        if_pos family]
    rw [fakeIPStore_load, inFamily_update family, backward]
    exact (paired other).assign free
  · -- the maps of the other family stay as they are
    have foreign : address.ofFamily other = false :=
      Bool.not_eq_true _ ▸ fun otherFamily => same (ofFamily_unique otherFamily family)
    have backward : (fun d => (storage.fakeIPStore address domain).fakeIPLoadDomain d other) =
        fun d => storage.fakeIPLoadDomain d other := by
      funext d
      rw [fakeIPStore_loadDomain, is4_of_ofFamily family, if_neg]
      simpa using Ne.symm same
    rw [fakeIPStore_load, inFamily_update_other foreign, backward]
    exact paired other

/-! ## What the calls returned -/

/-- `Create` returned the address for the domain, and since then the address went to no
other domain and the store was not reset. -/
def Live (domain : String) (isIPv6 : Bool) (address : Addr) : List Observation → Prop
  | [] => False
  | .found d v a :: past => (d, v, a) = (domain, isIPv6, address) ∨ Live domain isIPv6 address past
  | .stored d v a :: past =>
    (d, v, a) = (domain, isIPv6, address) ∨
      ¬ (a = address ∧ d ≠ domain) ∧ Live domain isIPv6 address past
  | .reset :: _ => False
  | .failed .. :: past => Live domain isIPv6 address past
  | .looked .. :: past => Live domain isIPv6 address past

/-- `Create` returns the live address of the domain, and `Lookup` the domain of a live
address. -/
def Lawful : Observation → List Observation → Prop
  | .found domain isIPv6 address, past =>
    ∀ live, Live domain isIPv6 live past → address = live
  | .stored domain isIPv6 address, past =>
    ∀ live, Live domain isIPv6 live past → address = live
  | .failed domain isIPv6 _, past => ∀ live, ¬ Live domain isIPv6 live past
  | .looked address found, past =>
    ∀ domain isIPv6, Live domain isIPv6 address past → found = some domain
  | .reset, _ => True

/-! ## Runs -/

/-- The call holds `addressAccess`. -/
def Phase.holds : Phase → Bool
  | .idle => false
  | .waiting .. => false
  | _ => true

/-- The second lookup of the call has found no address. -/
def Phase.Absent (domain : String) (isIPv6 : Bool) : Phase → Prop
  | .missed d v => d = domain ∧ v = isIPv6
  | .allocated d v _ => d = domain ∧ v = isIPv6
  | _ => False

theorem Phase.Absent.holds {phase : Phase} (absent : Phase.Absent domain isIPv6 phase) :
    Phase.holds phase = true := by
  cases phase <;> first | rfl | exact absent.elim

/-- What the lock of the store is for, whatever the ranges. -/
structure Exclusive (s : State) : Prop where
  holds : ∀ thread, Phase.holds (s.phase thread) = true → s.holder = some thread
  absent : ∀ thread domain isIPv6, Phase.Absent domain isIPv6 (s.phase thread) →
    s.storage.fakeIPLoadDomain domain isIPv6 = none

section Exclusive
variable {s : State} (exclusive : Exclusive s) {thread : Nat}
include exclusive

theorem Exclusive.alone (holding : Phase.holds (s.phase thread) = true) (other : Nat)
    (different : other ≠ thread) : Phase.holds (s.phase other) = false := by
  rw [← Bool.not_eq_true]
  intro also
  exact different (Option.some.inj
    ((exclusive.holds other also).symm.trans (exclusive.holds thread holding)))

/-- A step of one goroutine: it leaves the lock and the storage alone, or no other
goroutine is between `Lock` and `Unlock`. -/
theorem Exclusive.next {t : State} (others : ∀ other, other ≠ thread → t.phase other = s.phase other)
    (kept : t.holder = s.holder ∧ t.storage = s.storage ∨
      ∀ other, other ≠ thread → Phase.holds (s.phase other) = false)
    (holds : Phase.holds (t.phase thread) = true → t.holder = some thread)
    (absent : ∀ d v, Phase.Absent d v (t.phase thread) → t.storage.fakeIPLoadDomain d v = none) :
    Exclusive t where
  holds other holding := by
    by_cases same : other = thread
    · rw [same] at holding ⊢
      exact holds holding
    · rw [others other same] at holding
      rcases kept with ⟨holder, -⟩ | alone
      · rw [holder]
        exact exclusive.holds other holding
      · rw [alone other same] at holding
        cases holding
  absent other d v absence := by
    by_cases same : other = thread
    · rw [same] at absence
      exact absent d v absence
    · rw [others other same] at absence
      rcases kept with ⟨-, storage⟩ | alone
      · rw [storage]
        exact exclusive.absent other d v absence
      · have holding := absence.holds
        rw [alone other same] at holding
        cases holding

/-- The call returns and, if it was in the critical section, releases the lock. -/
theorem Exclusive.returned {t : State} (phases : t.phase = update s.phase thread .idle)
    (kept : t.holder = s.holder ∧ t.storage = s.storage ∨
      Phase.holds (s.phase thread) = true) : Exclusive t := by
  have idle : t.phase thread = .idle := by rw [phases, update_self]
  refine exclusive.next (fun other different => by rw [phases, update_of_ne different])
    (kept.imp_right exclusive.alone) ?_ ?_
  · rw [idle]
    intro holding
    cases holding
  · rw [idle]
    exact fun _ _ absence => absence.elim

theorem step_exclusive {store : Store} {event : Event} {t : State}
    (stepped : step store s event = some t) : Exclusive t := by
  have moved (thread : Nat) (phase : Phase) (other : Nat) (different : other ≠ thread) :
      (update s.phase thread phase) other = s.phase other := update_of_ne different phase s.phase
  cases event with
  | create thread domain isIPv6 =>
    simp only [step] at stepped
    split at stepped
    · split at stepped
      · cases stepped
        exact exclusive.returned rfl (.inl ⟨rfl, rfl⟩)
      · cases stepped
        refine exclusive.next (moved thread _) (.inl ⟨rfl, rfl⟩) ?_ ?_
        · simp [State.move, Phase.holds]
        · simp [State.move, Phase.Absent]
    · cases stepped
  | lock thread =>
    simp only [step] at stepped
    split at stepped
    · next free =>
      cases stepped
      refine exclusive.next (moved thread _) (.inr fun other _ => ?_) (fun _ => rfl) ?_
      · rw [← Bool.not_eq_true]
        intro holding
        rw [exclusive.holds other holding] at free
        cases free
      · simp [State.move, Phase.Absent]
    · cases stepped
  | check thread =>
    simp only [step] at stepped
    split at stepped
    · next phase =>
      have holds : Phase.holds (s.phase thread) = true := by rw [phase]; rfl
      split at stepped
      · cases stepped
        exact exclusive.returned rfl (.inr holds)
      · next missed =>
        cases stepped
        refine exclusive.next (moved thread _) (.inl ⟨rfl, rfl⟩)
          (fun _ => exclusive.holds thread holds) ?_
        simp only [State.move, update_self]
        rintro d v ⟨rfl, rfl⟩
        exact missed
    · cases stepped
  | allocate thread =>
    simp only [step] at stepped
    split at stepped
    · next domain isIPv6 phase =>
      have holds : Phase.holds (s.phase thread) = true := by rw [phase]; rfl
      split at stepped
      · cases stepped
        exact exclusive.returned rfl (.inr holds)
      · cases stepped
        refine exclusive.next (moved thread _) (.inl ⟨rfl, rfl⟩)
          (fun _ => exclusive.holds thread holds) ?_
        simp only [State.move, update_self]
        rintro d v ⟨rfl, rfl⟩
        exact exclusive.absent thread domain isIPv6 (by rw [phase]; exact ⟨rfl, rfl⟩)
    · cases stepped
  | store thread =>
    simp only [step] at stepped
    split at stepped
    · next phase =>
      cases stepped
      exact exclusive.returned rfl (.inr (by rw [phase]; rfl))
    · cases stepped
  | lookup address =>
    cases stepped
    exact ⟨exclusive.holds, exclusive.absent⟩
  | reset =>
    cases stepped
    exact ⟨exclusive.holds, fun _ _ isIPv6 _ => by cases isIPv6 <;> rfl⟩

end Exclusive

theorem initial_exclusive (store : Store) : Exclusive (initial store) where
  holds _ holds := by cases holds
  absent _ _ _ absent := absent.elim

structure Sound (store : Store) (s : State) : Prop where
  paired : MapsPaired s.storage
  valid : ∀ address domain, s.storage.fakeIPLoad address = some domain → address.isValid = true
  advancing : Advancing store s.allocation
  family : ∀ thread domain isIPv6 address,
    s.phase thread = .allocated domain isIPv6 address → address.ofFamily isIPv6 = true
  live : ∀ domain isIPv6 address, Live domain isIPv6 address s.observed →
    s.storage.fakeIPLoadDomain domain isIPv6 = some address
  lawful : Always Lawful s.observed

theorem initial_sound (usable : Usable store) : Sound store (initial store) where
  paired := empty_paired
  valid _ _ found := by cases found
  advancing := start_advancing usable
  family _ _ _ _ phase := by cases phase
  live _ _ _ live := live.elim
  lawful := trivial

section Step
variable {s : State} {thread : Nat} {domain : String} {address : Addr}

section Sound
variable (sound : Sound store s)
include sound

theorem Sound.move {phase : Phase}
    (family : ∀ d v a, phase = .allocated d v a → a.ofFamily v = true) :
    Sound store (s.move thread phase) where
  paired := sound.paired
  valid := sound.valid
  advancing := sound.advancing
  family other d v a allocated := by
    dsimp only [State.move] at allocated
    rw [update_apply] at allocated
    split at allocated
    · exact family d v a allocated
    · exact sound.family other d v a allocated
  live := sound.live
  lawful := sound.lawful

section Observe
variable {observation : Observation} (lawful : Lawful observation s.observed)
  (live : ∀ d v a, Live d v a (observation :: s.observed) →
    s.storage.fakeIPLoadDomain d v = some a)
include lawful live

theorem Sound.observe : Sound store { s with observed := observation :: s.observed } :=
  { sound with live := live, lawful := ⟨lawful, sound.lawful⟩ }

theorem Sound.finish : Sound store (s.finish thread observation) :=
  (sound.observe lawful live).move fun _ _ _ allocated => by cases allocated

end Observe

theorem Sound.found_lawful (found : s.storage.fakeIPLoadDomain domain isIPv6 = some address) :
    Lawful (.found domain isIPv6 address) s.observed := by
  intro live still
  exact Option.some.inj (found.symm.trans (sound.live domain isIPv6 live still))

theorem Sound.found_live (found : s.storage.fakeIPLoadDomain domain isIPv6 = some address)
    (d : String) (v : Bool)
    (a : Addr) (live : Live d v a (.found domain isIPv6 address :: s.observed)) :
    s.storage.fakeIPLoadDomain d v = some a := by
  rcases live with same | still
  · obtain ⟨rfl, rfl, rfl⟩ := same
    exact found
  · exact sound.live d v a still

theorem Sound.stored (phase : s.phase thread = .allocated domain isIPv6 address)
    (free : s.storage.fakeIPLoadDomain domain isIPv6 = none) :
    Sound store { s.finish thread (.stored domain isIPv6 address) with
      storage := s.storage.fakeIPStore address domain
      holder := none } := by
  have family := sound.family thread domain isIPv6 address phase
  refine ⟨sound.paired.fakeIPStore family free, ?_, sound.advancing, ?_, ?_, ?_⟩
  · intro a d found
    rw [fakeIPStore_load, update_apply] at found
    split at found
    · next here => rw [here]; exact isValid_of_ofFamily family
    · exact sound.valid a d found
  · intro other d v a allocated
    dsimp only [State.finish] at allocated
    rw [update_apply] at allocated
    split at allocated
    · cases allocated
    · exact sound.family other d v a allocated
  · intro d v a live
    rw [fakeIPStore_loadDomain, is4_of_ofFamily family]
    rcases live with same | ⟨kept, still⟩
    · obtain ⟨rfl, rfl, rfl⟩ := same
      simp
    · -- a live address was not the one stored, so its domain keeps it
      have had := sound.live d v a still
      by_cases sameFamily : isIPv6 = v
      · subst sameFamily
        have other : d ≠ domain := by
          rintro rfl
          rw [free] at had
          cases had
        rw [if_pos rfl, if_neg other, if_neg, had]
        intro owned
        have back := (sound.paired isIPv6 address d).mp (inFamily_eq_some.mpr ⟨owned, family⟩)
        exact kept ⟨Option.some.inj (back.symm.trans had), Ne.symm other⟩
      · rw [if_neg (by simpa using sameFamily), had]
  · refine ⟨fun live still => ?_, sound.lawful⟩
    rw [sound.live domain isIPv6 live still] at free
    cases free

theorem step_sound (exclusive : Exclusive s) {event : Event} {t : State}
    (stepped : step store s event = some t) : Sound store t := by
  cases event with
  | create thread domain isIPv6 =>
    simp only [step] at stepped
    split at stepped
    · split at stepped
      · next found =>
        cases stepped
        exact sound.finish (sound.found_lawful found) (sound.found_live found)
      · cases stepped
        exact sound.move fun _ _ _ allocated => by cases allocated
    · cases stepped
  | lock thread =>
    simp only [step] at stepped
    split at stepped
    · cases stepped
      have taken : Sound store { s with holder := some thread } := { sound with }
      exact taken.move fun _ _ _ allocated => by cases allocated
    · cases stepped
  | check thread =>
    simp only [step] at stepped
    split at stepped
    · split at stepped
      · next found =>
        cases stepped
        exact { sound.finish (sound.found_lawful found) (sound.found_live found) with }
      · cases stepped
        exact sound.move fun _ _ _ allocated => by cases allocated
    · cases stepped
  | allocate thread =>
    simp only [step] at stepped
    split at stepped
    · next domain isIPv6 phase =>
      have missed := exclusive.absent thread domain isIPv6 (by rw [phase]; exact ⟨rfl, rfl⟩)
      split at stepped
      · cases stepped
        have lawful : ∀ live, ¬Live domain isIPv6 live s.observed := by
          intro live still
          rw [sound.live domain isIPv6 live still] at missed
          cases missed
        have failed : Sound store (s.finish thread (.failed domain isIPv6 (missingRange isIPv6))) :=
          sound.finish lawful fun d v a => sound.live d v a
        exact { failed with }
      · next valid =>
        cases stepped
        have advancing : Advancing store (reserve store s.allocation).2 := by
          intro other
          rw [reserve_current]
          exact sound.advancing other
        have current : ((reserve store s.allocation).2.current isIPv6).isValid = true := by
          rw [reserve_current]
          simpa using valid
        have advanced : Sound store
            { s with allocation := (advance store isIPv6 (reserve store s.allocation).2).2 } :=
          { sound with advancing := advance_advancing advancing current }
        refine advanced.move ?_
        intro d v a allocated
        cases allocated
        exact advance_address advancing current
    · cases stepped
  | store thread =>
    simp only [step] at stepped
    split at stepped
    · next phase =>
      cases stepped
      exact sound.stored phase (exclusive.absent thread _ _ (by rw [phase]; exact ⟨rfl, rfl⟩))
    · cases stepped
  | lookup address =>
    cases stepped
    refine sound.observe (fun domain isIPv6 live => ?_) (fun d v a => sound.live d v a)
    exact (inFamily_eq_some.mp ((sound.paired isIPv6 address domain).mpr
      (sound.live domain isIPv6 address live))).1
  | reset =>
    cases stepped
    exact { sound with
      paired := empty_paired
      valid := fun _ _ found => by cases found
      live := fun _ _ _ live => live.elim
      lawful := ⟨trivial, sound.lawful⟩ }

end Sound

end Step

/-- In every run the maps of each family are inverse to each other and cover all addresses,
no address belongs to two domains, and what `Create` and `Lookup` return agrees with every
address that is still live. -/
theorem create_pairs_domains {store : Store} (usable : Usable store) {events : List Event}
    {s : State} (ran : exec store events = some s) :
    (∀ isIPv6 domain address, s.storage.fakeIPLoadDomain domain isIPv6 = some address ↔
      s.storage.fakeIPLoad address = some domain ∧ address.ofFamily isIPv6 = true) ∧
    (∀ address domain, s.storage.fakeIPLoad address = some domain →
      ∃ isIPv6, s.storage.fakeIPLoadDomain domain isIPv6 = some address) ∧
    (∀ first second f g address, s.storage.fakeIPLoadDomain first f = some address →
      s.storage.fakeIPLoadDomain second g = some address → first = second) ∧
    Always Lawful s.observed := by
  have preserved : ∀ s event t, Exclusive s ∧ Sound store s → step store s event = some t →
      Exclusive t ∧ Sound store t := fun _ _ _ held stepped =>
    ⟨step_exclusive held.1 stepped, step_sound held.2 held.1 stepped⟩
  obtain ⟨-, sound⟩ := run_invariant preserved
    ⟨initial_exclusive store, initial_sound usable⟩ ran
  have inverse : ∀ isIPv6 domain address,
      s.storage.fakeIPLoadDomain domain isIPv6 = some address ↔
        s.storage.fakeIPLoad address = some domain ∧ address.ofFamily isIPv6 = true :=
    fun isIPv6 domain address =>
      (sound.paired isIPv6 address domain).symm.trans inFamily_eq_some
  refine ⟨inverse, ?_, ?_, sound.lawful⟩
  · intro address domain found
    cases address with
    | invalid => cases sound.valid _ _ found
    | ipv4 value => exact ⟨false, (inverse _ _ _).mpr ⟨found, rfl⟩⟩
    | ipv6 value => exact ⟨true, (inverse _ _ _).mpr ⟨found, rfl⟩⟩
  · intro first second f g address one other
    have owned := ((inverse f first address).mp one).1
    exact Option.some.inj (owned.symm.trans ((inverse g second address).mp other).1)

/-- `198.18.0.0/29`: five addresses, from the third to the last but one. -/
def smallRange : Store := { inet4Range := some ⟨.ipv4 0xc6120000, 29⟩ }

def createAlone (domain : String) : List Event :=
  [.create 0 domain false, .lock 0, .check 0, .allocate 0, .store 0]

/-- Six domains on five addresses: the first one loses its address to the last one. -/
theorem sixth_domain_recycles :
    Usable smallRange ∧ ∃ s, exec smallRange
        (["a", "b", "c", "d", "e", "f"].flatMap createAlone ++ [.lookup (.ipv4 0xc6120002)]) =
          some s ∧
      s.storage.fakeIPLoadDomain "f" false = some (.ipv4 0xc6120002) ∧
      s.storage.fakeIPLoadDomain "a" false = none ∧ Always Lawful s.observed := by
  have usable : Usable smallRange := by decide
  obtain ⟨s, ran⟩ : ∃ s, exec smallRange
      (["a", "b", "c", "d", "e", "f"].flatMap createAlone ++ [.lookup (.ipv4 0xc6120002)]) =
        some s := ⟨_, rfl⟩
  refine ⟨usable, s, ran, ?_, ?_, (create_pairs_domains usable ran).2.2.2⟩
  all_goals
    cases ran
    decide

/-- `255.255.255.254/31`: the address after the base is the last of all. -/
def lastRange : Store := { inet4Range := some ⟨.ipv4 0xfffffffe, 31⟩ }

/-- `Create` returns an invalid address without an error, and fails when it is called again
for the domain although nothing has happened in between. -/
theorem last_range_fails :
    ∃ s, exec lastRange (createAlone "a" ++ (createAlone "a").take 4) = some s ∧
      s.observed = [.failed "a" false (missingRange false), .stored "a" false .invalid] ∧
      ¬ Always Lawful s.observed := by
  refine ⟨_, rfl, by decide, ?_⟩
  rintro ⟨failed, -⟩
  exact failed .invalid (.inl rfl)

/-- In every run one call at most is in the critical section of `Create`, and no other call gives
its domain an address between its second lookup and its store. -/
theorem creates_exclusive {store : Store} {events : List Event} {s : State}
    (ran : exec store events = some s) :
    (∀ t u, Phase.holds (s.phase t) = true → Phase.holds (s.phase u) = true → t = u) ∧
    ∀ thread domain isIPv6, Phase.Absent domain isIPv6 (s.phase thread) →
      s.storage.fakeIPLoadDomain domain isIPv6 = none := by
  have exclusive : Exclusive s :=
    run_invariant (fun _ _ _ held => step_exclusive held) (initial_exclusive store) ran
  refine ⟨fun t u first second => ?_, exclusive.absent⟩
  exact Option.some.inj ((exclusive.holds t first).symm.trans (exclusive.holds u second))

/-- Two goroutines miss the same domain before either has the lock; the first allocates. -/
def createTwice : List Event :=
  [.create 0 "a" false, .create 1 "a" false, .lock 0, .check 0, .allocate 0]

/-- While the second waits nobody has given the domain an address; afterwards it finds the
address of the first. -/
theorem allocated_unstored :
    (∃ s, exec smallRange createTwice = some s ∧ s.phase 1 = .waiting "a" false ∧
      (∀ other, Phase.holds (s.phase other) = true → 0 = other) ∧
      s.storage.fakeIPLoadDomain "a" false = none) ∧
    (exec smallRange (createTwice ++ [.store 0, .lock 1, .check 1])).map State.observed =
      some [.found "a" false (.ipv4 0xc6120002), .stored "a" false (.ipv4 0xc6120002)] := by
  have ran : exec smallRange createTwice = some _ := rfl
  obtain ⟨alone, absent⟩ := creates_exclusive ran
  exact ⟨⟨_, rfl, rfl, fun other => alone 0 other rfl, absent 0 "a" false ⟨rfl, rfl⟩⟩, by decide⟩

end AmneziaBox.Guarantees.FakeIPPairing
