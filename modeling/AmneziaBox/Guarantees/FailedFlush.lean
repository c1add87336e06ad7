import AmneziaBox.Guarantees.FakeIPWriteBehind

/-!
# Flushes that fail

A batch that is lost uncovers the database below it. What was queued meanwhile was computed over
the batch, so a domain of the database may keep an address that another domain was given. If
nothing was queued, the cache file goes on from the database.
-/
namespace AmneziaBox.Guarantees.FailedFlush
open Library Source.Adapter Source.FakeIP FakeIPWriteBehind FakeIPPairing

inductive FlushEvent where
  | event (event : FileEvent)
  /-- `Flush` ends after its transaction was rolled back. -/
  | fail

def flushStep (store : Store) (s : FileState) : FlushEvent → Option FileState
  | .event event => fileStep store s event
  | .fail =>
    if s.file.writing.isSome ∧ !s.flushed then
      some { s with file := { s.file with writing := none } }
    else none

/-- Nothing was stored since the batch was taken, and no `Create` is on its way to. -/
structure Unqueued (s : FileState) : Prop where
  phase : s.phase = .idle
  domains : s.file.pending.fakeIPDomain = ∅
  addresses : ∀ domain isIPv6, s.file.pending.fakeIPAddress domain isIPv6 = none

def Alone (s : FileState) : FlushEvent → Prop
  | .event _ => True
  | .fail => Unqueued s

/-- Each lower part of the file holds what some stores leave in the memory storage. -/
structure Recoverable (store : Store) (s : FileState) : Prop where
  layered : ∃ stores, Layered store { s with stores := stores }
  database : ∃ stores, ofDatabase s.file.database = ofMemory (replay stores)
  beneath : ∃ stores, beneath s.file = ofMemory (replay stores)

variable {store : Store} {s t : FileState}

/-- The list of the stores is not read. -/
theorem fileStep_stores {event : FileEvent} (stores : List (Addr × String))
    (stepped : fileStep store s event = some t) :
    ∃ later, fileStep store { s with stores := stores } event =
      some { t with stores := later } := by
  cases event <;> simp only [fileStep] at stepped ⊢
  case write order =>
    split at stepped
    · next writing running =>
      obtain ⟨may, done⟩ := Option.ite_none_right_eq_some.mp stepped
      obtain ⟨database, wrote, rfl⟩ := Option.map_eq_some_iff.mp done
      rw [running]
      rw [if_pos may, wrote]
      exact ⟨stores, rfl⟩
    · cases stepped
  all_goals
    repeat' split at stepped
    all_goals cases stepped
    all_goals exact ⟨_, by simp [*]; rfl⟩

theorem Recoverable.event (recoverable : Recoverable store s) {event : FileEvent}
    (stepped : fileStep store s event = some t) : Recoverable store t := by
  obtain ⟨⟨stores, layered⟩, ⟨base, database⟩, ⟨below, beneath⟩⟩ := recoverable
  obtain ⟨later, moved⟩ := fileStep_stores stores stepped
  have after := fileStep_layered layered moved
  cases fileStep_effect stepped with
  | call database' writing =>
    refine ⟨⟨later, after⟩, ⟨base, database'.symm ▸ database⟩, below, ?_⟩
    rw [FakeIPWriteBehind.beneath, writing, database']
    exact beneath
  | swap idle database' writing =>
    refine ⟨⟨later, after⟩, ⟨base, database'.symm ▸ database⟩, stores, ?_⟩
    have memory := layered.whole
    rw [whole, FakeIPWriteBehind.beneath, idle] at memory
    rw [FakeIPWriteBehind.beneath, writing, database']
    exact memory
  | write order batch running perm wrote kept =>
    have written := layered.written running perm wrote
    rw [FakeIPWriteBehind.beneath, running] at beneath
    refine ⟨⟨later, after⟩, ⟨below, written.trans beneath⟩, below, ?_⟩
    rw [FakeIPWriteBehind.beneath, kept]
    dsimp only
    rw [written, over_over, ← beneath]
  | complete database' writing =>
    refine ⟨⟨later, after⟩, ⟨base, database'.symm ▸ database⟩, base, ?_⟩
    rw [FakeIPWriteBehind.beneath, writing, database']
    exact database

theorem over_unqueued (unqueued : Unqueued s) (below : Maps) :
    atop s.file.pending below = below := by
  ext : 1
  · funext address
    dsimp only [atop]
    rw [unqueued.domains]
    rfl
  · funext isIPv6 domain
    dsimp only [atop]
    rw [unqueued.addresses]

theorem Recoverable.fail (recoverable : Recoverable store s) (unqueued : Unqueued s) :
    Recoverable store { s with file := { s.file with writing := none } } := by
  obtain ⟨⟨_, layered⟩, ⟨base, database⟩, -⟩ := recoverable
  refine ⟨⟨base, ?_⟩, ⟨base, database⟩, ⟨base, database⟩⟩
  exact
    { layered with
      memory := database ▸ layered.database
      beneath := layered.database
      whole := (over_unqueued unqueued _).trans database
      flushed := fun _ => rfl
      phase := unqueued.phase ▸ trivial }

theorem Recoverable.step (recoverable : Recoverable store s) {event : FlushEvent}
    (alone : Alone s event) (stepped : flushStep store s event = some t) : Recoverable store t := by
  cases event with
  | event event => exact recoverable.event stepped
  | fail =>
    obtain ⟨-, same⟩ := Option.ite_none_right_eq_some.mp stepped
    exact Option.some.inj same ▸ recoverable.fail alone

/-- A domain that has an address is the domain of the address. -/
def Paired (file : CacheFile) : Prop :=
  ∀ domain isIPv6 address, file.fakeIPLoadDomain domain isIPv6 = some address →
    file.fakeIPLoad address = some domain

theorem failed_flush_keeps_pairs (usable : Usable store) {events : List FlushEvent}
    (alone : Along (flushStep store) Alone (fileInitial store) events)
    (ran : run (flushStep store) (fileInitial store) events = some s) : Paired s.file := by
  have start : Recoverable store (fileInitial store) :=
    have layered := initial_layered usable
    ⟨⟨[], layered⟩, ⟨[], (over_empty _).symm.trans layered.whole⟩,
      [], (over_empty _).symm.trans layered.whole⟩
  obtain ⟨stores, layered⟩ := (run_invariant_along
    (fun _ _ _ recoverable alone => Recoverable.step recoverable alone) start alone ran).layered
  intro domain isIPv6 address found
  have paired := (layered.memory isIPv6 address domain).mpr
    ((layered.loadDomain domain isIPv6).symm.trans found)
  exact (layered.load address).trans (inFamily_eq_some.mp paired).1

/-- A `Create` that finds the address in a batch. -/
def createCached (domain : String) : List FileEvent :=
  [.create domain false, .peek, .view, .peek, .view, .allocate, .peek, .queue]

/-- The address goes from "a" to "b" in a batch that is lost, and to "c" meanwhile. -/
def lostBatch : List FileEvent :=
  createUncached "a" ++ [.swap, .write [⟨.ipv4 0xc6120002, "a"⟩], .complete] ++
    createUncached "b" ++ [.swap] ++ createCached "c"

theorem lostBatch_uncovers_owner :
    ∃ s, run (flushStep singleAddress) (fileInitial singleAddress)
        (lostBatch.map .event ++ [.fail]) = some s ∧
      s.file.fakeIPLoadDomain "a" false = some (.ipv4 0xc6120002) ∧
      s.file.fakeIPLoad (.ipv4 0xc6120002) = some "c" := by
  refine ⟨_, rfl, ?_, ?_⟩ <;> decide

def lostStore : List FlushEvent := (createUncached "a").map .event ++ [.event .swap, .fail]

theorem lostStore_keeps_pairs : ∃ s,
    run (flushStep singleAddress) (fileInitial singleAddress) lostStore = some s ∧
      Paired s.file := by
  have usable : Usable singleAddress := by decide
  obtain ⟨s, ran⟩ : ∃ s,
    run (flushStep singleAddress) (fileInitial singleAddress) lostStore = some s := ⟨_, rfl⟩
  refine ⟨s, ran, failed_flush_keeps_pairs usable ?_ ran⟩
  iterate 10
    refine ⟨trivial, fun _ stepped => ?_⟩
    cases stepped
  exact ⟨⟨rfl, rfl, fun _ isIPv6 => by cases isIPv6 <;> rfl⟩, fun _ _ => trivial⟩

end AmneziaBox.Guarantees.FailedFlush
