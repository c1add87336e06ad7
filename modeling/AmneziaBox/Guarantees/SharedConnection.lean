import AmneziaBox.Guarantees.ConnPoolCustody
import Mathlib.Data.Finset.Card

/-!
# The shared connection of a pool in single mode

Whoever acquires the shared connection first gets `created`, and starts the receive loop;
nobody else does. `sharedUsers` counts the acquisitions of the shared connection that were
not released, and `sharedWaiters` the goroutines in the `select` of `acquireShared`, so that
`CloseIdle` takes away only what nobody uses or is about to collect. Assumed of the callers
is that a connection is released at most as often as it was acquired; how often it is
invalidated does not matter.
-/
namespace AmneziaBox.Guarantees.SharedConnection
open Library Source.Transport ConnPoolCustody Function

/-! ## Statement -/

/-- How often the connection was acquired. -/
def acquisitions (conn : Nat) (log : List PoolObservation) : Nat :=
  log.countP fun
    | .acquired c _ => c == conn
    | _ => false

/-- How often it was released. -/
def releases (conn : Nat) (log : List PoolObservation) : Nat :=
  log.countP fun
    | .released c => c == conn
    | _ => false

/-- Every `Release` is for an acquisition that was not released. -/
def Disciplined (pool : ConnPool) : PoolEvent → Prop
  | .release _ conn _ _ => releases conn pool.log < acquisitions conn pool.log
  | _ => True

/-- The first acquisition of a connection returns `created`, and no other does. -/
def CreatedOnce : PoolObservation → List PoolObservation → Prop
  | .acquired conn true, past => ¬ Handed past conn
  | .acquired conn false, past => .acquired conn true ∈ past
  | _, _ => True

/-! ## The invariant -/

/-- The goroutine is in the `select` of `acquireShared`. -/
def Waits (gen : Nat) : PoolPhase → Prop
  | .waiting g _ _ => g = gen
  | _ => False

/-- The goroutine is in `connectSingle`, before its critical section. -/
def Dials (gen connect : Nat) : PoolPhase → Prop
  | .dialing g c => g = gen ∧ c = connect
  | .discarding g c _ => g = gen ∧ c = connect
  | .dialed g c _ => g = gen ∧ c = connect
  | _ => False

/-- The goroutine neither waits nor dials. -/
structure Aside (phase : PoolPhase) : Prop where
  waits : ∀ gen, ¬ Waits gen phase
  dials : ∀ gen connect, ¬ Dials gen connect phase

def isAside : PoolPhase → Bool
  | .waiting _ _ _ => false
  | .dialing _ _ => false
  | .discarding _ _ _ => false
  | .dialed _ _ _ => false
  | _ => true

theorem aside_of {phase : PoolPhase} (aside : isAside phase = true) : Aside phase := by
  cases phase with
  | waiting | dialing | discarding | dialed => cases aside
  | _ => exact ⟨fun _ => id, fun _ _ => id⟩

theorem aside_at {phases : Nat → PoolPhase} {thread : Nat} {phase : PoolPhase}
    (here : phases thread = phase) (aside : isAside phase = true) : Aside (phases thread) := by
  rw [here]
  exact aside_of aside

/-- `sharedWaiters` counts the goroutines that wait. -/
def Waiting (states : Nat → ConnPoolState) (phase : Nat → PoolPhase) : Prop :=
  ∀ gen, ∃ threads : Finset Nat, (∀ t, t ∈ threads ↔ Waits gen (phase t)) ∧
    threads.card = (states gen).sharedWaiters

/-- A state that one goroutine dials for has nothing to share. -/
structure Dialing (states : Nat → ConnPoolState) (phase : Nat → PoolPhase) : Prop where
  pending : ∀ t gen connect, Dials gen connect (phase t) →
    (states gen).connecting = some connect ∧ (states gen).shared = none
  alone : ∀ t u gen c d, Dials gen c (phase t) → Dials gen d (phase u) → t = u

/-- `sharedClaimed` and `sharedUsers` of the current state agree with the history. -/
structure Usage (current : Option Nat) (states : Nat → ConnPoolState)
    (log : List PoolObservation) : Prop where
  unshared : ∀ gen, (states gen).shared = none →
    (states gen).sharedClaimed = false ∧ (states gen).sharedUsers = 0
  users : ∀ gen conn, current = some gen → (states gen).shared = some conn →
    (states gen).sharedUsers + releases conn log = acquisitions conn log
  claimed : ∀ gen conn, current = some gen → (states gen).shared = some conn →
    ((states gen).sharedClaimed = true ↔ Handed log conn)
  bounded : ∀ conn, releases conn log ≤ acquisitions conn log
  created : Always CreatedOnce log

structure Counted (pool : ConnPool) : Prop where
  waiting : Waiting pool.states pool.phase
  dialing : Dialing pool.states pool.phase
  usage : Usage pool.current pool.states pool.log

section Log
variable {conn c : Nat} {created : Bool} {log : List PoolObservation}

theorem acquisitions_acquired : acquisitions conn (.acquired c created :: log) =
    acquisitions conn log + if c = conn then 1 else 0 := by
  unfold acquisitions
  simp [List.countP_cons]

theorem acquisitions_released :
    acquisitions conn (.released c :: log) = acquisitions conn log := by
  simp [acquisitions]

theorem releases_acquired : releases conn (.acquired c created :: log) = releases conn log := by
  simp [releases]

theorem releases_released : releases conn (.released c :: log) =
    releases conn log + if c = conn then 1 else 0 := by
  unfold releases
  simp [List.countP_cons]

theorem handed_iff_acquisitions : Handed log conn ↔ 0 < acquisitions conn log := by
  unfold acquisitions
  rw [List.countP_pos_iff]
  constructor
  · rintro ⟨created, member⟩
    exact ⟨_, member, beq_self_eq_true conn⟩
  · rintro ⟨observation, member, is⟩
    cases observation with
    | acquired c created =>
      obtain rfl : c = conn := beq_iff_eq.mp is
      exact ⟨created, member⟩
    | released | closed => cases is

/-- What was handed out was handed out as created. -/
theorem created_of_handed (always : Always CreatedOnce log) (handed : Handed log conn) :
    .acquired conn true ∈ log := by
  induction log with
  | nil =>
    obtain ⟨created, member⟩ := handed
    cases member
  | cons observation past ih =>
    obtain ⟨created, member⟩ := handed
    rcases List.mem_cons.mp member with now | before
    · cases created with
      | true => exact now ▸ List.mem_cons_self
      | false =>
        have law := always.1
        rw [← now] at law
        exact List.mem_cons_of_mem _ law
    · exact List.mem_cons_of_mem _ (ih always.2 ⟨created, before⟩)

end Log

/-! ## Waiters and dials -/

section Phases
variable {states : Nat → ConnPoolState} {phase : Nat → PoolPhase} {thread gen : Nat}
  {state : ConnPoolState} {after : PoolPhase}

section Waiting
variable (waiting : Waiting states phase)
include waiting

theorem Waiting.setState (same : state.sharedWaiters = (states gen).sharedWaiters) :
    Waiting (update states gen state) phase := by
  intro g
  obtain ⟨threads, exactly, card⟩ := waiting g
  refine ⟨threads, exactly, ?_⟩
  rw [update_apply]
  split
  · next here => rw [card, here, same]
  · exact card

theorem Waiting.move (same : ∀ g, Waits g after ↔ Waits g (phase thread)) :
    Waiting states (update phase thread after) := by
  intro g
  obtain ⟨threads, exactly, card⟩ := waiting g
  refine ⟨threads, fun t => ?_, card⟩
  rw [exactly, update_apply]
  split
  · next here => rw [here, same]
  · rfl

theorem Waiting.change (same : state.sharedWaiters = (states gen).sharedWaiters)
    (waits : ∀ g, Waits g after ↔ Waits g (phase thread)) :
    Waiting (update states gen state) (update phase thread after) :=
  (waiting.setState same).move waits

/-- A goroutine starts to wait. -/
theorem Waiting.enter (before : ∀ g, ¬ Waits g (phase thread))
    (waits : ∀ g, Waits g after ↔ g = gen)
    (more : state.sharedWaiters = (states gen).sharedWaiters + 1) :
    Waiting (update states gen state) (update phase thread after) := by
  intro g
  obtain ⟨threads, exactly, card⟩ := waiting g
  have absent : thread ∉ threads := fun member => before g ((exactly thread).mp member)
  by_cases here : g = gen
  · refine ⟨insert thread threads, fun t => ?_, ?_⟩
    · rw [Finset.mem_insert, exactly, update_apply]
      split
      · next same => exact iff_of_true (.inl same) ((waits g).mpr here)
      · next other => exact ⟨fun or => or.resolve_left other, .inr⟩
    · rw [Finset.card_insert_of_notMem absent, card, here, update_self, more]
  · refine ⟨threads, fun t => ?_, ?_⟩
    · rw [exactly, update_apply]
      split
      · next same => exact iff_of_false (same ▸ before g) fun now => here ((waits g).mp now)
      · rfl
    · rw [card, update_of_ne here]

/-- A goroutine stops waiting. -/
theorem Waiting.leave (before : ∀ g, Waits g (phase thread) ↔ g = gen) (gone : ∀ g, ¬ Waits g after)
    (fewer : state.sharedWaiters = (states gen).sharedWaiters - 1) :
    Waiting (update states gen state) (update phase thread after) := by
  intro g
  obtain ⟨threads, exactly, card⟩ := waiting g
  by_cases here : g = gen
  · have member : thread ∈ threads := (exactly thread).mpr ((before g).mpr here)
    refine ⟨threads.erase thread, fun t => ?_, ?_⟩
    · rw [Finset.mem_erase, exactly, update_apply]
      split
      · next same => exact iff_of_false (fun both => both.1 same) (gone g)
      · next other => exact ⟨And.right, fun waits => ⟨other, waits⟩⟩
    · rw [Finset.card_erase_of_mem member, card, here, update_self, fewer]
  · refine ⟨threads, fun t => ?_, ?_⟩
    · rw [exactly, update_apply]
      split
      · next same => exact iff_of_false (fun now => here ((before g).mp (same ▸ now))) (gone g)
      · rfl
    · rw [card, update_of_ne here]

/-- Without waiters in the counter no goroutine waits. -/
theorem Waiting.none (zero : (states gen).sharedWaiters = 0)
    (t : Nat) : ¬ Waits gen (phase t) := by
  obtain ⟨threads, exactly, card⟩ := waiting gen
  rw [zero, Finset.card_eq_zero] at card
  rw [← exactly, card]
  exact Finset.notMem_empty t

end Waiting

section Dialing
variable (dialing : Dialing states phase)
include dialing

theorem Dialing.move (fewer : ∀ g connect, Dials g connect after → Dials g connect (phase thread)) :
    Dialing states (update phase thread after) := by
  have before : ∀ t g connect, Dials g connect (update phase thread after t) →
      Dials g connect (phase t) := by
    intro t g connect here
    rw [update_apply] at here
    split at here
    · next same => exact same ▸ fewer g connect here
    · exact here
  exact ⟨fun t g connect here => dialing.pending t g connect (before t g connect here),
    fun t u g c d one other => dialing.alone t u g c d (before t g c one) (before u g d other)⟩

section
variable (connecting : state.connecting = (states gen).connecting)
  (shared : state.shared = (states gen).shared ∨ state.shared = none)
include connecting shared

theorem Dialing.setState :
    Dialing (update states gen state) phase where
  pending t g connect here := by
    obtain ⟨pending, none⟩ := dialing.pending t g connect here
    rw [update_apply]
    split
    · next same =>
      rw [same] at pending none
      exact ⟨connecting.trans pending, shared.elim (fun old => old.trans none) id⟩
    · exact ⟨pending, none⟩
  alone := dialing.alone

theorem Dialing.change (fewer : ∀ g connect, Dials g connect after → Dials g connect (phase thread)) :
    Dialing (update states gen state) (update phase thread after) :=
  (dialing.setState connecting shared).move fewer

end

/-- A dial starts where none is pending. -/
theorem Dialing.start {connect : Nat}
    (free : (states gen).connecting = none) (shared : state.shared = none)
    (pending : state.connecting = some connect)
    (dials : ∀ g c, Dials g c after → g = gen ∧ c = connect) :
    Dialing (update states gen state) (update phase thread after) := by
  have idle : ∀ t c, ¬ Dials gen c (phase t) := fun t c here => by
    cases free.symm.trans (dialing.pending t gen c here).1
  refine ⟨fun t g c here => ?_, fun t u g c d one other => ?_⟩
  · rw [update_apply] at here
    split at here
    · obtain ⟨rfl, rfl⟩ := dials g c here
      rw [update_self]
      exact ⟨pending, shared⟩
    · have elsewhere : g ≠ gen := by
        rintro rfl
        exact idle t c here
      rw [update_of_ne elsewhere]
      exact dialing.pending t g c here
  · rw [update_apply] at one other
    split at one <;> split at other
    · next first second => rw [first, second]
    · exact absurd ((dials g c one).1 ▸ other) (idle u d)
    · exact absurd ((dials g d other).1 ▸ one) (idle t c)
    · exact dialing.alone t u g c d one other

/-- The dial of a state ends, with whatever the state then shares. -/
theorem Dialing.finish {connect : Nat}
    (here : Dials gen connect (phase thread)) (after_ : ∀ g c, ¬ Dials g c after) :
    Dialing (update states gen state) (update phase thread after) := by
  have before : ∀ t g c, Dials g c (update phase thread after t) →
      Dials g c (phase t) ∧ g ≠ gen := by
    intro t g c there
    rw [update_apply] at there
    split at there
    · exact absurd there (after_ g c)
    · next other =>
      refine ⟨there, ?_⟩
      rintro rfl
      exact other (dialing.alone t thread g c connect there here)
  refine ⟨fun t g c there => ?_, fun t u g c d one other => ?_⟩
  · rw [update_of_ne (before t g c there).2]
    exact dialing.pending t g c (before t g c there).1
  · exact dialing.alone t u g c d (before t g c one).1 (before u g d other).1

end Dialing

end Phases

/-! ## Users -/

section Users
variable {current : Option Nat} {states : Nat → ConnPoolState} {log : List PoolObservation}
  {gen conn : Nat} {state : ConnPoolState}

section Usage
variable (usage : Usage current states log)
include usage

/-- A state changes; with the current one the history may. -/
theorem Usage.change {past : List PoolObservation}
    (elsewhere : past = log ∨ current = some gen)
    (unshared : state.shared = none → state.sharedClaimed = false ∧ state.sharedUsers = 0)
    (shared : ∀ conn, current = some gen → state.shared = some conn →
      state.sharedUsers + releases conn past = acquisitions conn past ∧
        (state.sharedClaimed = true ↔ Handed past conn))
    (bounded : ∀ conn, releases conn past ≤ acquisitions conn past)
    (created : Always CreatedOnce past) :
    Usage current (update states gen state) past := by
  have other : ∀ g, current = some g → g ≠ gen → past = log := fun g now different =>
    elsewhere.resolve_right fun here => different (Option.some.inj (now.symm.trans here))
  refine ⟨fun g => ?_, fun g c now => ?_, fun g c now => ?_, bounded, created⟩
  all_goals
    rw [update_apply]
    split
  · exact unshared
  · exact usage.unshared g
  · next same => exact fun there => (shared c (same ▸ now) there).1
  · next different => exact other g now different ▸ usage.users g c now
  · next same => exact fun there => (shared c (same ▸ now) there).2
  · next different => exact other g now different ▸ usage.claimed g c now

/-- What is not about the shared connection of a state may change. -/
theorem Usage.setState (shared : state.shared = (states gen).shared)
    (claimed : state.sharedClaimed = (states gen).sharedClaimed)
    (users : state.sharedUsers = (states gen).sharedUsers) :
    Usage current (update states gen state) log := by
  refine usage.change (.inl rfl) ?_ (fun c now => ?_) usage.bounded usage.created
  · rw [shared, claimed, users]
    exact usage.unshared gen
  · rw [shared, claimed, users]
    exact fun there => ⟨usage.users gen c now there, usage.claimed gen c now there⟩

/-- The shared connection of a state is given up. -/
theorem Usage.drop :
    Usage current (update states gen (removeConn .single (states gen) conn)) log := by
  unfold removeConn
  dsimp only
  split
  · exact usage.change (.inl rfl) (fun _ => ⟨rfl, rfl⟩) (fun _ _ => nofun) usage.bounded
      usage.created
  · exact usage.setState rfl rfl rfl

/-- One more user gets the shared connection. -/
theorem Usage.claim (here : current = some gen)
    (shared : (states gen).shared = some conn) :
    Usage current (update states gen { states gen with
      sharedClaimed := true
      sharedUsers := (states gen).sharedUsers + 1 })
      (.acquired conn (!(states gen).sharedClaimed) :: log) := by
  refine usage.change (.inr here) (fun none => ?_) (fun c _ same => ⟨?_, ?_⟩) (fun c => ?_)
    ⟨?_, usage.created⟩
  · cases shared.symm.trans none
  · cases shared.symm.trans same
    have before := usage.users gen conn here shared
    rw [releases_acquired, acquisitions_acquired, if_pos rfl]
    dsimp only
    omega
  · cases shared.symm.trans same
    exact iff_of_true rfl ⟨_, List.mem_cons_self⟩
  · rw [releases_acquired, acquisitions_acquired]
    exact Nat.le_add_right_of_le (usage.bounded c)
  · have owner := usage.claimed gen conn here shared
    cases claimed : (states gen).sharedClaimed with
    | true => exact created_of_handed usage.created (owner.mp claimed)
    | false =>
      intro handed
      cases claimed.symm.trans (owner.mpr handed)

/-- A connection that nobody has seen becomes the shared one. -/
theorem Usage.install (none : (states gen).shared = none)
    (unseen : ¬ Handed log conn) (shared : state.shared = some conn)
    (claimed : state.sharedClaimed = (states gen).sharedClaimed)
    (users : state.sharedUsers = (states gen).sharedUsers) :
    Usage current (update states gen state) log := by
  obtain ⟨unclaimed, unused⟩ := usage.unshared gen none
  have never : acquisitions conn log = 0 :=
    Nat.eq_zero_of_not_pos fun positive => unseen (handed_iff_acquisitions.mpr positive)
  have bound := usage.bounded conn
  refine usage.change (.inl rfl) (fun absent => ?_) (fun c _ same => ?_) usage.bounded usage.created
  · cases shared.symm.trans absent
  · cases shared.symm.trans same
    rw [claimed, unclaimed]
    exact ⟨by omega, iff_of_false nofun unseen⟩

/-- A connection that is not the shared one is released. -/
theorem Usage.releaseOther (open_ : releases conn log < acquisitions conn log)
    (other : ∀ g, current = some g → (states g).shared ≠ some conn) :
    Usage current states (.released conn :: log) where
  unshared := usage.unshared
  users g c now shared := by
    have different : conn ≠ c := fun same => other g now (same ▸ shared)
    rw [releases_released, acquisitions_released, if_neg different]
    exact usage.users g c now shared
  claimed g c now shared := by
    rw [usage.claimed g c now shared, handed_iff_acquisitions, handed_iff_acquisitions,
      acquisitions_released]
  bounded c := by
    rw [releases_released, acquisitions_released]
    split
    · next same => exact same ▸ open_
    · exact usage.bounded c
  created := ⟨trivial, usage.created⟩

/-- The shared connection is released by one user. -/
theorem Usage.release (here : current = some gen)
    (open_ : releases conn log < acquisitions conn log)
    (shared : (states gen).shared = some conn) :
    Usage current (update states gen { states gen with
      sharedUsers := (states gen).sharedUsers - 1 }) (.released conn :: log) := by
  refine usage.change (.inr here) (fun none => ?_) (fun c _ same => ⟨?_, ?_⟩) (fun c => ?_)
    ⟨trivial, usage.created⟩
  · cases shared.symm.trans none
  · cases shared.symm.trans same
    have before := usage.users gen conn here shared
    rw [releases_released, acquisitions_released, if_pos rfl]
    dsimp only
    omega
  · rw [handed_iff_acquisitions, acquisitions_released, ← handed_iff_acquisitions]
    exact usage.claimed gen c here same
  · rw [releases_released, acquisitions_released]
    split
    · next same => exact same ▸ open_
    · exact usage.bounded c

theorem Usage.closed :
    Usage current states (.closed conn :: log) where
  unshared := usage.unshared
  users g c now shared := by
    simpa [releases, acquisitions] using usage.users g c now shared
  claimed g c now shared := by
    rw [usage.claimed g c now shared]
    simp [Handed]
  bounded c := by simpa [releases, acquisitions] using usage.bounded c
  created := ⟨trivial, usage.created⟩

/-- Another state, which shares nothing yet, becomes the current one. -/
theorem Usage.supersede {next : Option Nat}
    (empty : ∀ g, next = some g → (states g).shared = none) : Usage next states log where
  unshared := usage.unshared
  users g c now shared := by cases (empty g now).symm.trans shared
  claimed g c now shared := by cases (empty g now).symm.trans shared
  bounded := usage.bounded
  created := usage.created

end Usage

end Users

/-! ## Each function of the pool -/

section Pool
variable {pool next : ConnPool} {thread gen conn : Nat} {phase : PoolPhase}

section Moves
variable (counted : Counted pool)
include counted

theorem Counted.moveAside (before : Aside (pool.phase thread)) (after : isAside phase = true) :
    Counted (pool.move thread phase) where
  waiting := counted.waiting.move fun g =>
    iff_of_false ((aside_of after).waits g) (before.waits g)
  dialing := counted.dialing.move fun g c here => absurd here ((aside_of after).dials g c)
  usage := counted.usage

/-- `connectSingle` goes on before its critical section. -/
theorem Counted.moveDial (before : ∀ g, ¬ Waits g (pool.phase thread))
    (after : ∀ g, ¬ Waits g phase)
    (same : ∀ g connect, Dials g connect phase → Dials g connect (pool.phase thread)) :
    Counted (pool.move thread phase) where
  waiting := counted.waiting.move fun g => iff_of_false (after g) (before g)
  dialing := counted.dialing.move same
  usage := counted.usage

theorem Counted.drop :
    Counted (pool.setState gen (removeConn .single (pool.states gen) conn)) where
  waiting := counted.waiting.setState (by unfold removeConn; dsimp only; split <;> rfl)
  dialing := by
    refine counted.dialing.setState ?_ ?_
    all_goals
      unfold removeConn
      dsimp only
      split
    · rfl
    · rfl
    · exact .inr rfl
    · exact .inl rfl
  usage := counted.usage.drop

variable {connect : Nat}

theorem Counted.leave {startDial : Bool}
    (here : pool.phase thread = .waiting gen connect startDial) (after : isAside phase = true) :
    Counted (leaveWait pool thread gen phase) where
  waiting := by
    refine counted.waiting.leave (fun g => ?_) (aside_of after).waits rfl
    rw [here]
    exact eq_comm
  dialing := counted.dialing.change rfl (.inl rfl) fun g c dials =>
    absurd dials ((aside_of after).dials g c)
  usage := counted.usage.setState rfl rfl rfl

theorem Counted.claim (before : Aside (pool.phase thread))
    (current : pool.current = some gen) (shared : (pool.states gen).shared = some conn) :
    Counted (claim pool thread gen conn) where
  waiting := counted.waiting.change rfl fun g => iff_of_false id (before.waits g)
  dialing := counted.dialing.change rfl (.inl rfl) fun _ _ => False.elim
  usage := counted.usage.claim current shared

variable {alive : Bool}

theorem acquireShared_counted {dialer : Nat}
    (here : pool.phase thread = .entering) (current : pool.current = some gen)
    (stepped : acquireShared pool thread gen alive dialer = some next) : Counted next := by
  have before := aside_at here rfl
  unfold acquireShared at stepped
  dsimp only at stepped
  split at stepped
  · next conn shared =>
    split at stepped
    · cases stepped
      exact counted.claim before current shared
    · cases stepped
      exact counted.drop.moveAside before rfl
  · next none =>
    split at stepped
    · cases stepped
      exact
        { waiting := counted.waiting.enter before.waits (fun g => eq_comm) rfl
          dialing := counted.dialing.change rfl (.inl rfl) fun _ _ => False.elim
          usage := counted.usage.setState rfl rfl rfl }
    · next free =>
      split at stepped
      · next start =>
        cases stepped
        have idle : Aside (update pool.phase thread
            (.waiting gen pool.nextConnect true) dialer) := by
          rw [update_of_ne start.1, start.2]
          exact aside_of rfl
        have waits : ∀ g, Waits g (.waiting gen pool.nextConnect true) ↔ g = gen :=
          fun g => eq_comm
        refine
          { waiting := ?_
            dialing := ?_
            usage := counted.usage.setState rfl rfl rfl }
        · refine Waiting.move (counted.waiting.enter before.waits waits rfl) fun g => ?_
          exact iff_of_false id (idle.waits g)
        · refine Dialing.start (counted.dialing.move fun _ _ => False.elim) free none rfl ?_
          rintro g c ⟨rfl, rfl⟩
          exact ⟨rfl, rfl⟩
      · cases stepped

end Moves

/-- Where a goroutine was does not matter for where it goes. -/
theorem move_move (other : PoolPhase) :
    (pool.move thread other).move thread phase = pool.move thread phase := by
  unfold ConnPool.move
  rw [update_idem]

theorem claim_move (other : PoolPhase) :
    claim (pool.move thread other) thread gen conn = claim pool thread gen conn :=
  congrArg (fun phase => { claim pool thread gen conn with phase := phase })
    (update_idem ..)

theorem collectShared_counted (counted : Counted pool) {startDial : Bool}
    (here : pool.phase thread = .waiting gen connect startDial) :
    Counted (collectShared pool thread gen connect startDial alive) := by
  unfold collectShared
  dsimp only
  split
  · refine counted.leave here ?_
    split <;> rfl
  · split
    · exact counted.leave here rfl
    · next current =>
      have now := Decidable.not_not.mp current
      split
      · exact counted.leave here rfl
      · next conn shared =>
        -- the waiter has left, and goes on like one that just entered
        have left : Counted (leaveWait pool thread gen .idle) := counted.leave here rfl
        have stored : (leaveWait pool thread gen .idle).states gen = { pool.states gen with
            sharedWaiters := (pool.states gen).sharedWaiters - 1 } := update_self ..
        have idle : Aside ((leaveWait pool thread gen .idle).phase thread) := by
          rw [show (leaveWait pool thread gen .idle).phase thread = .idle from
            update_self ..]
          exact aside_of rfl
        split
        · have claimed := left.claim idle now (by rw [stored]; exact shared)
          exact claim_move .idle ▸ claimed
        · have dropped : Counted (((leaveWait pool thread gen .idle).setState gen
              (removeConn .single ((leaveWait pool thread gen .idle).states gen) conn)).move thread
                (.closing conn true)) := left.drop.moveAside idle rfl
          rw [stored] at dropped
          exact (congrArg Counted (move_move .idle)).mp dropped

theorem connectSingle_counted (counted : Counted pool) (sound : Sound .single pool)
    {dialed : Option Nat} (here : pool.phase thread = .dialed gen connect dialed) :
    Counted (connectSingle pool thread gen connect dialed) := by
  have dials : Dials gen connect (pool.phase thread) := by rw [here]; exact ⟨rfl, rfl⟩
  have ready : ∀ g, ¬ Waits g (pool.phase thread) := by rw [here]; exact fun _ => id
  -- without a connection for the pool only `connecting` is cleared
  have failed : ∀ announced, Counted ({ pool.setState gen
      { pool.states gen with connecting := none } with
        connects := update pool.connects connect
          { pool.connects connect with failed := true } }.move thread
            (.announcing connect announced)) := fun announced =>
    { waiting := counted.waiting.change rfl fun g => iff_of_false id (ready g)
      dialing := counted.dialing.finish dials fun _ _ => id
      usage := counted.usage.setState rfl rfl rfl }
  unfold connectSingle
  split
  · exact failed none
  · next conn =>
    split
    · next current =>
      have fresh : Fresh conn (pool.phase thread) := by rw [here]; exact rfl
      have unseen : ¬ Handed pool.log conn := (sound.kept.fresh thread conn fresh).2.2.1
      exact
        { waiting := counted.waiting.change rfl fun g => iff_of_false id (ready g)
          dialing := counted.dialing.finish dials fun _ _ => id
          usage := counted.usage.install
            (counted.dialing.pending thread gen connect dials).2 unseen rfl rfl rfl }
    · exact failed (some conn)

theorem removeConn_shared {state : ConnPoolState} :
    (removeConn .single state conn).shared ≠ some conn := by
  unfold removeConn
  dsimp only
  split
  · exact nofun
  · next other => exact other

theorem removeConn_other {state : ConnPoolState} (other : state.shared ≠ some conn) :
    (removeConn .single state conn).shared = state.shared ∧
      (removeConn .single state conn).sharedUsers = state.sharedUsers := by
  unfold removeConn
  dsimp only
  rw [if_neg other]
  exact ⟨rfl, rfl⟩

section Counted
variable (counted : Counted pool)
include counted

theorem Counted.releaseOther (open_ : releases conn pool.log < acquisitions conn pool.log)
    (other : ∀ g, pool.current = some g → (pool.states g).shared ≠ some conn) :
    Counted (pool.observe (.released conn)) :=
  ⟨counted.waiting, counted.dialing, counted.usage.releaseOther open_ other⟩

theorem release_counted (sound : Sound .single pool) {reuse : Bool}
    (here : pool.phase thread = .idle)
    (open_ : releases conn pool.log < acquisitions conn pool.log) :
    Counted (release .single pool thread conn reuse alive) := by
  have before := aside_at here rfl
  unfold release
  dsimp only
  split
  · next closed =>
    refine (counted.releaseOther open_ fun g now => ?_).moveAside before rfl
    cases closed.symm.trans now
  · next gen current =>
    have only : ∀ g, pool.current = some g → g = gen := fun g now =>
      (Option.some.inj (current.symm.trans now)).symm
    split
    · next untracked =>
      refine (counted.releaseOther open_ fun g now shared => ?_).moveAside before rfl
      obtain rfl := only g now
      exact untracked ((sound.tidy g).shared rfl conn shared)
    · split
      · -- the connection is taken out first; then it is not the shared one
        have dropped : Counted (pool.setState gen (removeConn .single (pool.states gen) conn)) :=
          counted.drop
        refine (dropped.releaseOther open_ fun g now => ?_).moveAside before rfl
        obtain rfl := only g now
        show (update pool.states g _ g).shared ≠ _
        rw [update_self]
        exact removeConn_shared
      · split
        · next used =>
          exact
            { waiting := counted.waiting.setState rfl
              dialing := counted.dialing.setState rfl (.inl rfl)
              usage := counted.usage.release current open_ used.1 }
        · next unused =>
          refine counted.releaseOther open_ fun g now shared => unused ⟨?_, ?_⟩
          · exact only g now ▸ shared
          · have users := counted.usage.users g conn now shared
            obtain rfl := only g now
            show 0 < (pool.states g).sharedUsers
            omega

theorem invalidate_counted (here : pool.phase thread = .idle) :
    Counted (invalidate .single pool thread conn) := by
  have before := aside_at here rfl
  unfold invalidate
  split
  · exact counted.moveAside before rfl
  · dsimp only
    split
    · exact counted
    · exact counted.drop.moveAside before rfl

theorem closeIdle_counted (here : pool.phase thread = .idle) :
    Counted (closeIdle .single pool thread) := by
  have before := aside_at here rfl
  unfold closeIdle
  split
  · exact counted
  · dsimp only
    split
    · split
      · exact counted
      · exact counted.drop.moveAside before rfl
    · exact counted

theorem Counted.supersede (before : Aside (pool.phase thread))
    {current : Option Nat} {generations : Nat}
    (empty : ∀ g, current = some g → (pool.states g).shared = none) :
    Counted ({ pool with current := current, generations := generations }.move thread
      (.cancelling gen)) where
  waiting := counted.waiting.move fun g => iff_of_false id (before.waits g)
  dialing := counted.dialing.move fun _ _ => False.elim
  usage := counted.usage.supersede empty

theorem reset_counted (sound : Sound .single pool)
    (here : pool.phase thread = .idle) : Counted (reset pool thread) := by
  have before := aside_at here rfl
  unfold reset
  split
  · exact counted
  · refine counted.supersede before fun g now => ?_
    cases now
    -- the new state records nothing, so it shares nothing
    refine Option.eq_none_iff_forall_ne_some.mpr fun conn shared => ?_
    have member := (sound.tidy pool.generations).shared rfl conn shared
    rw [show (pool.states pool.generations).all = [] from
      sound.kept.empty pool.generations (Nat.le_refl _)] at member
    cases member

theorem shutdown_counted (here : pool.phase thread = .idle) :
    Counted (shutdown pool thread) := by
  have before := aside_at here rfl
  unfold shutdown
  split
  · exact counted
  · exact counted.supersede before nofun

theorem Counted.nextConn {nextConn : Nat} : Counted { pool with nextConn := nextConn } :=
  ⟨counted.waiting, counted.dialing, counted.usage⟩

theorem dial_counted {result : DialResult}
    (stepped : dial pool thread result = some next) : Counted next := by
  unfold dial at stepped
  split at stepped
  · next gen connect here =>
    have ready : ∀ g, ¬ Waits g (pool.phase thread) := by rw [here]; exact fun _ => id
    have same : ∀ g c, gen = g ∧ connect = c → Dials g c (pool.phase thread) := by
      rw [here]
      exact fun _ _ => id
    cases result <;> cases stepped
    · exact counted.moveDial ready (fun _ => id) same
    · exact counted.nextConn.moveDial ready (fun _ => id) same
    · exact counted.nextConn.moveDial ready (fun _ => id) same
  · next gen here =>
    have before := aside_at here rfl
    cases result <;> cases stepped
    · exact counted.moveAside before rfl
    · exact counted.nextConn.moveAside before rfl
    · exact counted.nextConn.moveAside before rfl
  · cases stepped

theorem Counted.closed : Counted (pool.observe (.closed conn)) :=
  ⟨counted.waiting, counted.dialing, counted.usage.closed⟩

theorem close_counted (stepped : close pool thread = some next) :
    Counted next := by
  unfold close at stepped
  split at stepped
  · next conn retry here =>
    have before := aside_at here rfl
    cases stepped
    refine counted.closed.moveAside before ?_
    split <;> rfl
  · next gen connect conn here =>
    cases stepped
    refine counted.closed.moveDial ?_ (fun _ => id) fun g c dials => ?_
    · show ∀ g, ¬ Waits g (pool.phase thread)
      rw [here]
      exact fun _ => id
    · show Dials g c (pool.phase thread)
      rw [here]
      exact dials
  · next connect conn here =>
    have before := aside_at here rfl
    cases stepped
    exact counted.closed.moveAside before rfl
  · cases stepped

end Counted

theorem poolStep_counted {event : PoolEvent} (sound : Sound .single pool) (counted : Counted pool)
    (disciplined : Disciplined pool event) (stepped : poolStep .single pool event = some next) :
    Counted next := by
  cases PoolStep.of_eq stepped with
  | acquire here | refuse here | slot here | noSlot here | closeDone here =>
    exact counted.moveAside (aside_at here rfl) rfl
  | order _ _ ordered => cases ordered
  | share here current _ stepped => exact acquireShared_counted counted here current stepped
  | collect here => exact collectShared_counted counted here
  | leave here | stop here | retry here => exact counted.leave here rfl
  | dial stepped => exact dial_counted counted stepped
  | connect here => exact connectSingle_counted counted sound here
  | @install thread _ _ here =>
    -- `dialAndInstall` does not run in this mode
    have fits := sound.fits thread
    rw [here] at fits
    cases fits
  | announce here =>
    have moved := counted.moveAside (aside_at here rfl) (rfl : isAside .idle = true)
    exact ⟨moved.waiting, moved.dialing, moved.usage⟩
  | close stepped => exact close_counted counted stepped
  | release allowed => exact release_counted counted sound allowed.1 disciplined
  | invalidate allowed => exact invalidate_counted counted allowed.1
  | closeIdle here => exact closeIdle_counted counted here
  | reset here => exact reset_counted counted sound here
  | shutdown here => exact shutdown_counted counted here
  | cancel here =>
    have before := aside_at here rfl
    exact
      { waiting := counted.waiting.change rfl fun g => iff_of_false id (before.waits g)
        dialing := counted.dialing.change rfl (.inl rfl) fun _ _ => False.elim
        usage := counted.usage.setState rfl rfl rfl }
  | closeNext here => exact counted.closed.moveAside (aside_at here rfl) rfl

theorem initial_counted : Counted {} where
  waiting _ := ⟨∅, fun t => iff_of_false (Finset.notMem_empty t) id, rfl⟩
  dialing := ⟨fun _ _ _ => False.elim, fun _ _ _ _ _ => False.elim⟩
  usage := ⟨fun _ _ => ⟨rfl, rfl⟩, fun _ _ _ => nofun, fun _ _ _ => nofun,
    fun _ => Nat.le_refl _, trivial⟩

theorem run_counted {events : List PoolEvent}
    (disciplined : Along (poolStep .single) Disciplined {} events)
    (ran : poolExec .single events = some pool) : Sound .single pool ∧ Counted pool := by
  have preserved : ∀ before event after, Sound .single before ∧ Counted before →
      Disciplined before event → poolStep .single before event = some after →
      Sound .single after ∧ Counted after :=
    fun before event after both disciplined stepped =>
      ⟨poolStep_sound both.1 stepped, poolStep_counted both.1 both.2 disciplined stepped⟩
  have reached := run_invariant_along preserved ⟨initial_sound .single, initial_counted⟩
    disciplined ran
  exact reached

/-- A late `Release` of a connection that was replaced or removed. -/
theorem release_other_users {reuse : Bool} (current : pool.current = some gen)
    (other : (pool.states gen).shared ≠ some conn)
    (stepped : poolStep .single pool (.release thread conn reuse alive) = some next) :
    next.current = some gen ∧ (next.states gen).shared = (pool.states gen).shared ∧
      (next.states gen).sharedUsers = (pool.states gen).sharedUsers := by
  obtain ⟨⟩ := PoolStep.of_eq stepped
  unfold release
  dsimp only
  rw [show (pool.observe (.released conn)).current = some gen from current]
  dsimp only
  split
  · exact ⟨current, rfl, rfl⟩
  · split
    · refine ⟨current, ?_⟩
      show (update pool.states gen _ gen).shared = _ ∧
        (update pool.states gen _ gen).sharedUsers = _
      rw [update_self]
      exact removeConn_other other
    · rw [if_neg fun used => other used.1]
      exact ⟨current, rfl, rfl⟩

/-- `CloseIdle` finds no user and no waiter where it takes a connection away. -/
theorem closeIdle_unused (counted : Counted pool) {retry : Bool}
    (stepped : poolStep .single pool (.closeIdle thread) = some next)
    (closing : next.phase thread = .closing conn retry) :
    ∃ gen, pool.current = some gen ∧ (pool.states gen).shared = some conn ∧
      releases conn pool.log = acquisitions conn pool.log ∧ ∀ t, ¬ Waits gen (pool.phase t) := by
  cases PoolStep.of_eq stepped with
  | closeIdle here =>
    have stays : pool.phase thread ≠ .closing conn retry := by rw [here]; exact nofun
    unfold closeIdle at closing
    split at closing
    · exact absurd closing stays
    · next gen current =>
      dsimp only at closing
      split at closing
      · next found _ shared =>
        split at closing
        · exact absurd closing stays
        · next unused =>
          rw [show ConnPool.phase _ thread = _ from update_self ..] at closing
          obtain ⟨rfl, -⟩ := PoolPhase.closing.inj closing
          have users := counted.usage.users gen found current shared
          refine ⟨gen, current, shared, by omega, counted.waiting.none ?_⟩
          omega
      · exact absurd closing stays

end Pool

/-- In every run in which a connection is released at most as often as it was acquired:
the first acquisition of a connection, and no other, returns `created`; `sharedUsers` counts
the acquisitions of the shared connection that were not released, and the release of another
connection leaves it alone; and `CloseIdle` closes only a connection that has no such
acquisition, while no goroutine is about to collect it. -/
theorem shared_connection_counted {events : List PoolEvent} {pool : ConnPool}
    (disciplined : Along (poolStep .single) Disciplined {} events)
    (ran : poolExec .single events = some pool) :
    Always CreatedOnce pool.log ∧
    (∀ gen conn, pool.current = some gen → (pool.states gen).shared = some conn →
      (pool.states gen).sharedUsers + releases conn pool.log = acquisitions conn pool.log) ∧
    (∀ thread conn reuse alive next gen, pool.current = some gen →
      (pool.states gen).shared ≠ some conn →
      poolStep .single pool (.release thread conn reuse alive) = some next →
      next.current = some gen ∧ (next.states gen).shared = (pool.states gen).shared ∧
        (next.states gen).sharedUsers = (pool.states gen).sharedUsers) ∧
    (∀ thread conn retry next, poolStep .single pool (.closeIdle thread) = some next →
      next.phase thread = .closing conn retry →
      ∃ gen, pool.current = some gen ∧ (pool.states gen).shared = some conn ∧
        releases conn pool.log = acquisitions conn pool.log ∧
        ∀ t, ¬ Waits gen (pool.phase t)) := by
  obtain ⟨-, counted⟩ := run_counted disciplined ran
  exact ⟨counted.usage.created, counted.usage.users,
    fun _ _ _ _ _ _ current other stepped => release_other_users current other stepped,
    fun _ _ _ _ stepped closing => closeIdle_unused counted stepped closing⟩

/-- Two goroutines share a connection and release it. -/
def sharedByTwo : List PoolEvent :=
  [.acquire 0, .enter 0 true 2, .dial 2 .succeeded, .install 2, .announce 2, .acquire 1,
    .enter 1 true 3, .collect 0 true, .release 1 0 true true, .release 0 0 true true]

theorem sharedByTwo_counted :
    Along (poolStep .single) Disciplined {} sharedByTwo ∧
    ∃ pool, poolExec .single sharedByTwo = some pool ∧ Always CreatedOnce pool.log ∧
      pool.log = [.released 0, .released 0, .acquired 0 false, .acquired 0 true] ∧
      (pool.states 0).shared = some 0 ∧ (pool.states 0).sharedUsers = 0 := by
  have disciplined : Along (poolStep .single) Disciplined {} sharedByTwo := by
    iterate 10
      refine ⟨by first | trivial | exact Nat.le_of_ble_eq_true rfl, fun _ stepped => ?_⟩
      cases stepped
    trivial
  obtain ⟨pool, ran⟩ : ∃ pool, poolExec .single sharedByTwo = some pool := ⟨_, rfl⟩
  refine ⟨disciplined, pool, ran, (shared_connection_counted disciplined ran).1, ?_⟩
  cases ran
  exact ⟨rfl, rfl, rfl⟩

/-- In every such run one goroutine at most dials for a state, which has nothing to share
meanwhile, and `sharedWaiters` is the number of goroutines that wait. -/
theorem dials_single_flight {events : List PoolEvent} {pool : ConnPool}
    (disciplined : Along (poolStep .single) Disciplined {} events)
    (ran : poolExec .single events = some pool) (gen : Nat) :
    (∀ t u c d, Dials gen c (pool.phase t) → Dials gen d (pool.phase u) →
      t = u ∧ (pool.states gen).connecting = some c ∧ (pool.states gen).shared = none) ∧
    ∃ waiting : Finset Nat, (∀ t, t ∈ waiting ↔ Waits gen (pool.phase t)) ∧
      waiting.card = (pool.states gen).sharedWaiters := by
  obtain ⟨-, counted⟩ := run_counted disciplined ran
  refine ⟨fun t u c d one two => ⟨counted.dialing.alone t u gen c d one two, ?_⟩, counted.waiting gen⟩
  exact counted.dialing.pending t gen c one

theorem first_waiter_counted :
    ∃ pool, poolExec .single [.acquire 0, .enter 0 true 1] = some pool ∧
      ∃ waiting : Finset Nat, (∀ t, t ∈ waiting ↔ Waits 0 (pool.phase t)) ∧ waiting.card = 1 :=
  ⟨_, rfl, (@dials_single_flight [.acquire 0, .enter 0 true 1] _
    ⟨trivial, fun _ _ => ⟨trivial, fun _ _ => trivial⟩⟩ rfl 0).2⟩

end AmneziaBox.Guarantees.SharedConnection
