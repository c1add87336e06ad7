import AmneziaBox.Guarantees.ConnPoolLedger

/-!
# No connection of the pool is lost

In every state of the pool, in either mode, a dialed connection has been closed, is
recorded in the `all` set of the current state, or some goroutine is about to close or to
record it. So when no operation is in progress only the first two are left, and only the
first once the pool is closed. A connection that the pool closed is not handed out again.
-/
namespace AmneziaBox.Guarantees.ConnPoolCustody
open Library Source.Transport Function List

/-! ## Phases -/

/-- The connection that a goroutine has in hand. -/
def carried : PoolPhase → Option Nat
  | .closing conn _ => some conn
  | .discarding _ _ conn => some conn
  | .dialed _ _ conn => conn
  | .announcing _ conn => conn
  | .installing _ conn => some conn
  | _ => none

/-- The goroutine is not in `closeState`. -/
def outsideSweep : PoolPhase → Bool
  | .cancelling _ => false
  | .closingAll _ _ => false
  | _ => true

section Phases
variable {ledger : Ledger} {thread gen conn : Nat} {phase : PoolPhase} {closed : List Nat}

theorem carried_iff : Fresh conn phase ∨ Doomed conn phase ↔ carried phase = some conn := by
  cases phase with
  | dialed gen connect conn | announcing connect conn =>
    cases conn <;> simp [Fresh, Doomed, carried]
  | _ => simp [Fresh, Doomed, carried]

theorem not_sweeps (outside : outsideSweep phase = true) : ¬ Sweeps gen closed phase := by
  cases phase with
  | cancelling | closingAll => cases outside
  | _ => exact id

theorem free_of (none : carried phase = none) (outside : outsideSweep phase = true) :
    Free phase where
  fresh conn fresh := by cases none.symm.trans (carried_iff.mp (.inl fresh))
  doomed conn doomed := by cases none.symm.trans (carried_iff.mp (.inr doomed))
  sweeps _ _ := not_sweeps outside

theorem free_at {phases : Nat → PoolPhase} (here : phases thread = phase)
    (none : carried phase = none) (outside : outsideSweep phase = true) :
    Free (phases thread) := by
  rw [here]
  exact free_of none outside

theorem carried_only (carries : carried phase = some conn) (c : Nat) :
    Fresh c phase ∨ Doomed c phase ↔ c = conn := by
  rw [carried_iff, carries, Option.some.injEq, eq_comm]

theorem owes_only (carries : carried (ledger.phase thread) = some conn)
    (outside : outsideSweep (ledger.phase thread) = true) (c : Nat)
    (owes : ledger.Owes thread c) : c = conn := by
  rcases owes with fresh | doomed | ⟨gen, closed, sweeps, -⟩
  · exact (carried_only carries c).mp (.inl fresh)
  · exact (carried_only carries c).mp (.inr doomed)
  · exact absurd sweeps (not_sweeps outside)

end Phases

/-! ## The pool -/

def ledger (pool : ConnPool) : Ledger where
  current := pool.current
  generations := pool.generations
  nextConn := pool.nextConn
  all gen := (pool.states gen).all
  phase := pool.phase
  log := pool.log

/-- What can be handed out is recorded. -/
structure Tidy (mode : ConnPoolMode) (state : ConnPoolState) : Prop where
  shared : mode = .single → ∀ conn, state.shared = some conn → conn ∈ state.all
  idle : mode = .ordered → state.idle.Nodup ∧ ∀ conn ∈ state.idle, conn ∈ state.all

/-- Only `acquireShared` waits, and only `acquireOrdered` dials on its own. -/
def Fits (mode : ConnPoolMode) : PoolPhase → Prop
  | .waiting _ _ _ => mode = .single
  | .slot _ => mode = .ordered
  | .installDial _ => mode = .ordered
  | .installing _ _ => mode = .ordered
  | _ => True

structure Sound (mode : ConnPoolMode) (pool : ConnPool) : Prop where
  kept : (ledger pool).Kept
  tidy : ∀ gen, Tidy mode (pool.states gen)
  fits : ∀ thread, Fits mode (pool.phase thread)

section Pool
variable {mode : ConnPoolMode} {pool next : ConnPool} {thread gen conn : Nat} {phase : PoolPhase}
  {state : ConnPoolState}

theorem ledger_setState :
    ledger (pool.setState gen state) = (ledger pool).setAll gen state.all := by
  unfold ledger ConnPool.setState Ledger.setAll
  congr 1
  funext g
  simp only [update_apply]
  split <;> rfl

theorem setAll_same : (ledger pool).setAll gen (pool.states gen).all = ledger pool := by
  unfold Ledger.setAll
  rw [show (pool.states gen).all = (ledger pool).all gen from rfl, update_eq_self]

theorem handed_of_handedOut (handedOut : pool.handedOut conn = true) :
    Handed (ledger pool).log conn := by
  obtain ⟨observation, member, is⟩ := any_eq_true.mp handedOut
  cases observation with
  | acquired other created =>
    obtain rfl : other = conn := beq_iff_eq.mp is
    exact ⟨created, member⟩
  | released | closed => cases is

theorem tidy_removeConn (tidy : Tidy mode state) : Tidy mode (removeConn mode state conn) := by
  cases mode with
  | single =>
    refine ⟨fun single c shared => ?_, nofun⟩
    unfold removeConn at shared ⊢
    dsimp only at shared ⊢
    split at shared
    · cases shared
    · next other =>
      rw [if_neg other]
      refine mem_filter.mpr ⟨tidy.shared rfl c shared, decide_eq_true ?_⟩
      rintro rfl
      exact other shared
  | ordered =>
    obtain ⟨nodup, recorded⟩ := tidy.idle rfl
    refine ⟨nofun, fun _ => ⟨nodup.filter _, fun c member => ?_⟩⟩
    obtain ⟨before, different⟩ := mem_filter.mp member
    exact mem_filter.mpr ⟨recorded c before, different⟩

theorem removeConn_all : (removeConn mode state conn).all = state.all.filter (· ≠ conn) := by
  unfold removeConn
  cases mode with
  | single => dsimp only; split <;> rfl
  | ordered => rfl

section Sound
variable (sound : Sound mode pool)
include sound

theorem Sound.tidy_setState (tidy : Tidy mode state) (g : Nat) :
    Tidy mode (update pool.states gen state g) := by
  rw [update_apply]
  split
  · exact tidy
  · exact sound.tidy g

theorem Sound.fits_move (fits : Fits mode phase) (t : Nat) :
    Fits mode (update pool.phase thread phase t) := by
  rw [update_apply]
  split
  · exact fits
  · exact sound.fits t

/-- A state is changed in what is not recorded. -/
theorem Sound.setState (same : state.all = (pool.states gen).all)
    (tidy : Tidy mode state) : Sound mode (pool.setState gen state) where
  kept := by
    rw [ledger_setState, same, setAll_same]
    exact sound.kept
  tidy := sound.tidy_setState tidy
  fits := sound.fits

section
variable {retry : Bool} (before : Free (pool.phase thread))
include before

theorem Sound.moveFree (after : Free phase) (fits : Fits mode phase) :
    Sound mode (pool.move thread phase) where
  kept := sound.kept.moveFree before after
  tidy := sound.tidy
  fits := sound.fits_move fits

theorem Sound.doom (handed : Handed pool.log conn) (unpooled : ¬ (ledger pool).Pooled conn) :
    Sound mode (pool.move thread (.closing conn retry)) where
  kept := sound.kept.doom before handed unpooled
  tidy := sound.tidy
  fits := sound.fits_move trivial

theorem Sound.remove (current : pool.current = some gen) (member : conn ∈ (pool.states gen).all)
    (removed : state.all = (pool.states gen).all.filter (· ≠ conn)) (tidy : Tidy mode state) :
    Sound mode ((pool.setState gen state).move thread (.closing conn retry)) where
  kept := by
    show ((ledger (pool.setState gen state)).move thread _).Kept
    rw [ledger_setState, removed]
    exact sound.kept.remove before current member
  tidy := sound.tidy_setState tidy
  fits := sound.fits_move trivial

end

theorem Sound.handOut {created : Bool} (current : pool.current = some gen)
    (member : conn ∈ (pool.states gen).all) : Sound mode (pool.observe (.acquired conn created)) :=
  ⟨sound.kept.handOut current member, sound.tidy, sound.fits⟩

theorem Sound.released : Sound mode (pool.observe (.released conn)) :=
  ⟨sound.kept.released, sound.tidy, sound.fits⟩

theorem Sound.close (carries : carried (pool.phase thread) = some conn)
    (outside : outsideSweep (pool.phase thread) = true) (after : Free phase)
    (fits : Fits mode phase) :
    Sound mode ((pool.observe (.closed conn)).move thread phase) where
  kept := sound.kept.close (carried_iff.mpr carries) (owes_only carries outside) after
  tidy := sound.tidy
  fits := sound.fits_move fits

/-- A new connection stays with its goroutine. -/
theorem Sound.relabel (here : Fresh conn (pool.phase thread))
    (outside : outsideSweep (pool.phase thread) = true) (carries : carried phase = some conn)
    (still : outsideSweep phase = true) (fits : Fits mode phase) :
    Sound mode (pool.move thread phase) where
  kept := sound.kept.relabel here (owes_only (carried_iff.mp (.inl here)) outside)
    (carried_only carries) (fun _ _ => not_sweeps still)
  tidy := sound.tidy
  fits := sound.fits_move fits

theorem Sound.record (here : Fresh conn (pool.phase thread))
    (outside : outsideSweep (pool.phase thread) = true) (current : pool.current = some gen)
    (recorded : state.all = conn :: (pool.states gen).all) (tidy : Tidy mode state)
    (after : Free phase) (fits : Fits mode phase) :
    Sound mode ((pool.setState gen state).move thread phase) where
  kept := by
    show ((ledger (pool.setState gen state)).move thread phase).Kept
    rw [ledger_setState, recorded]
    exact sound.kept.record here (owes_only (carried_iff.mp (.inl here)) outside) current after
  tidy := sound.tidy_setState tidy
  fits := sound.fits_move fits

theorem Sound.birth (before : Free (pool.phase thread))
    (carries : carried phase = some pool.nextConn) (outside : outsideSweep phase = true)
    (fits : Fits mode phase) :
    Sound mode ({ pool with nextConn := pool.nextConn + 1 }.move thread phase) where
  kept := sound.kept.birth before (carried_only carries) (fun _ _ => not_sweeps outside)
  tidy := sound.tidy
  fits := sound.fits_move fits

/-- The records of calls in progress are not part of the ledger. -/
theorem Sound.connects {connects : Nat → ConnPoolConnect}
    {nextConnect : Nat} :
    Sound mode { pool with connects := connects, nextConnect := nextConnect } :=
  ⟨sound.kept, sound.tidy, sound.fits⟩

end Sound

/-! ## Each function of the pool -/

theorem Tidy.counters (tidy : Tidy mode state) {claimed cancelled : Bool} {users waiters : Nat}
    {connecting : Option Nat} :
    Tidy mode { state with
      cancelled := cancelled
      sharedClaimed := claimed
      sharedUsers := users
      sharedWaiters := waiters
      connecting := connecting } :=
  ⟨tidy.shared, tidy.idle⟩

theorem claim_sound (sound : Sound mode pool) (single : mode = .single)
    (before : Free (pool.phase thread)) (current : pool.current = some gen)
    (shared : (pool.states gen).shared = some conn) : Sound mode (claim pool thread gen conn) := by
  have counted : Sound mode (pool.setState gen { pool.states gen with
      sharedClaimed := true
      sharedUsers := (pool.states gen).sharedUsers + 1 }) :=
    sound.setState rfl (sound.tidy gen).counters
  refine (counted.handOut current ?_).moveFree before (free_of rfl rfl) trivial
  refine (counted.tidy gen).shared single conn ?_
  unfold ConnPool.setState
  dsimp only
  rw [update_self]
  exact shared

variable {alive : Bool}

theorem acquireShared_sound (sound : Sound .single pool) {dialer : Nat}
    (here : pool.phase thread = .entering) (current : pool.current = some gen)
    (stepped : acquireShared pool thread gen alive dialer = some next) : Sound .single next := by
  have before := free_at here rfl rfl
  unfold acquireShared at stepped
  dsimp only at stepped
  split at stepped
  · next conn shared =>
    have member := (sound.tidy gen).shared rfl conn shared
    split at stepped
    · cases stepped
      exact claim_sound sound rfl before current shared
    · cases stepped
      exact sound.remove before current member removeConn_all (tidy_removeConn (sound.tidy gen))
  · split at stepped
    · cases stepped
      have counted : Sound .single (pool.setState gen { pool.states gen with
          sharedWaiters := (pool.states gen).sharedWaiters + 1 }) :=
        sound.setState rfl (sound.tidy gen).counters
      exact counted.moveFree before (free_of rfl rfl) rfl
    · split at stepped
      · next start =>
        cases stepped
        have counted : Sound .single (pool.setState gen { pool.states gen with
            connecting := some pool.nextConnect
            sharedWaiters := (pool.states gen).sharedWaiters + 1 }) :=
          sound.setState rfl (sound.tidy gen).counters
        refine Sound.moveFree (counted.connects.moveFree before (free_of rfl rfl) rfl) ?_
          (free_of rfl rfl) trivial
        show Free (update pool.phase thread _ dialer)
        rw [update_of_ne start.1, start.2]
        exact free_of rfl rfl
      · cases stepped

theorem acquireOrdered_sound (sound : Sound .ordered pool) (here : pool.phase thread = .entering)
    (current : pool.current = some gen) :
    Sound .ordered (acquireOrdered pool thread gen alive) := by
  have before := free_at here rfl rfl
  obtain ⟨nodup, recorded⟩ := (sound.tidy gen).idle rfl
  unfold acquireOrdered
  dsimp only
  split
  · next conn rest idle =>
    rw [idle] at nodup recorded
    have member := recorded conn mem_cons_self
    split
    · have taken : Sound .ordered
          (pool.setState gen { pool.states gen with idle := rest }) := by
        refine sound.setState rfl ⟨nofun, fun _ => ⟨nodup.of_cons, fun c inside => ?_⟩⟩
        exact recorded c (mem_cons_of_mem _ inside)
      refine (taken.handOut current ?_).moveFree before (free_of rfl rfl) trivial
      show conn ∈ (update pool.states gen _ gen).all
      rwa [update_self]
    · refine sound.remove before current member rfl
        ⟨nofun, fun _ => ⟨nodup.of_cons, fun c inside => ?_⟩⟩
      refine mem_filter.mpr ⟨recorded c (mem_cons_of_mem _ inside), decide_eq_true ?_⟩
      rintro rfl
      exact (nodup_cons.mp nodup).1 inside
  · exact sound.moveFree before (free_of rfl rfl) rfl

section Steps
variable (sound : Sound mode pool)
include sound

theorem collectShared_sound {connect : Nat} {startDial : Bool}
    (here : pool.phase thread = .waiting gen connect startDial) :
    Sound mode (collectShared pool thread gen connect startDial alive) := by
  have before := free_at here rfl rfl
  have single : mode = .single := by
    have fits := sound.fits thread
    rwa [here] at fits
  have left : Sound mode (pool.setState gen { pool.states gen with
      sharedWaiters := (pool.states gen).sharedWaiters - 1 }) :=
    sound.setState rfl (sound.tidy gen).counters
  unfold collectShared
  dsimp only
  split
  · refine left.moveFree before ?_ ?_
    · split <;> exact free_of rfl rfl
    · split <;> trivial
  · split
    · exact left.moveFree before (free_of rfl rfl) trivial
    · next current =>
      have now := Decidable.not_not.mp current
      split
      · exact left.moveFree before (free_of rfl rfl) trivial
      · next conn shared =>
        have stored : ∀ state, (pool.setState gen state).states gen = state := fun state =>
          update_self ..
        split
        · exact claim_sound left single before now (by rw [stored]; exact shared)
        · subst single
          refine left.remove before now ?_ ?_ (tidy_removeConn (sound.tidy gen).counters)
          · rw [stored]
            exact (sound.tidy gen).shared rfl conn shared
          · rw [stored]
            exact removeConn_all

theorem connectSingle_sound {connect : Nat} {dialed : Option Nat}
    (here : pool.phase thread = .dialed gen connect dialed) :
    Sound mode (connectSingle pool thread gen connect dialed) := by
  have outside : outsideSweep (pool.phase thread) = true := by rw [here]; rfl
  have ended : Sound mode (pool.setState gen { pool.states gen with connecting := none }) :=
    sound.setState rfl (sound.tidy gen).counters
  unfold connectSingle
  split
  · have before := free_at here rfl rfl
    exact ended.connects.moveFree before (free_of rfl rfl) trivial
  · next conn =>
    have fresh : Fresh conn (pool.phase thread) := by rw [here]; exact rfl
    split
    · next current =>
      refine sound.record fresh outside current rfl ⟨fun _ c shared => ?_, fun ordered => ?_⟩
        (free_of rfl rfl) trivial
      · cases shared
        exact mem_cons_self
      · obtain ⟨nodup, recorded⟩ := (sound.tidy gen).idle ordered
        exact ⟨nodup, fun c inside => mem_cons_of_mem _ (recorded c inside)⟩
    · exact ended.connects.relabel fresh outside rfl rfl trivial

theorem dialAndInstall_sound (here : pool.phase thread = .installing gen conn) :
    Sound mode (dialAndInstall pool thread gen conn) := by
  have outside : outsideSweep (pool.phase thread) = true := by rw [here]; rfl
  have fresh : Fresh conn (pool.phase thread) := by rw [here]; exact rfl
  unfold dialAndInstall
  split
  · next current =>
    have recorded : Sound mode ((pool.setState gen { pool.states gen with
        all := conn :: (pool.states gen).all }).move thread .idle) := by
      refine sound.record fresh outside current rfl ⟨fun single c shared => ?_, fun ordered => ?_⟩
        (free_of rfl rfl) trivial
      · exact mem_cons_of_mem _ ((sound.tidy gen).shared single c shared)
      · obtain ⟨nodup, recorded⟩ := (sound.tidy gen).idle ordered
        exact ⟨nodup, fun c inside => mem_cons_of_mem _ (recorded c inside)⟩
    refine recorded.handOut current ?_
    show conn ∈ (update pool.states gen _ gen).all
    rw [update_self]
    exact mem_cons_self
  · exact sound.relabel fresh outside rfl rfl trivial

section
variable (here : pool.phase thread = .idle)
include here

theorem release_sound {reuse : Bool} (handed : Handed pool.log conn) :
    Sound mode (release mode pool thread conn reuse alive) := by
  have before := free_at here rfl rfl
  have observed : Sound mode (pool.observe (.released conn)) := sound.released
  have known : Handed (pool.observe (.released conn)).log conn :=
    handed.imp fun _ => mem_cons_of_mem _
  unfold release
  dsimp only
  split
  · next closed =>
    refine observed.doom before known fun ⟨g, current, _⟩ => ?_
    cases closed.symm.trans current
  · next gen current =>
    split
    · next untracked =>
      refine observed.doom before known fun ⟨g, now, member⟩ => untracked ?_
      cases current.symm.trans now
      exact member
    · next tracked =>
      have member := Decidable.not_not.mp tracked
      split
      · exact observed.remove before current member removeConn_all
          (tidy_removeConn (sound.tidy gen))
      · cases mode with
        | single =>
          dsimp only
          split
          · exact observed.setState rfl (sound.tidy gen).counters
          · exact observed
        | ordered =>
          dsimp only
          split
          · exact observed
          · next absent =>
            obtain ⟨nodup, recorded⟩ := (sound.tidy gen).idle rfl
            refine observed.setState rfl ⟨nofun, fun _ => ⟨?_, fun c inside => ?_⟩⟩
            · exact nodup_append.mpr ⟨nodup, by simp, fun c inside d single => by
                rintro rfl
                exact absent (mem_singleton.mp single ▸ inside)⟩
            · rcases mem_append.mp inside with old | new
              · exact recorded c old
              · exact mem_singleton.mp new ▸ member

theorem invalidate_sound (handed : Handed pool.log conn) :
    Sound mode (invalidate mode pool thread conn) := by
  have before := free_at here rfl rfl
  unfold invalidate
  split
  · next closed =>
    refine sound.doom before handed fun ⟨g, current, _⟩ => ?_
    cases closed.symm.trans current
  · next gen current =>
    dsimp only
    split
    · exact sound
    · next tracked =>
      exact sound.remove before current (Decidable.not_not.mp tracked) removeConn_all
        (tidy_removeConn (sound.tidy gen))

theorem closeIdle_sound :
    Sound mode (closeIdle mode pool thread) := by
  have before := free_at here rfl rfl
  unfold closeIdle
  split
  · exact sound
  · next gen current =>
    dsimp only
    split
    · next conn shared =>
      split
      · exact sound
      · exact sound.remove before current ((sound.tidy gen).shared rfl conn shared) removeConn_all
          (tidy_removeConn (sound.tidy gen))
    · exact sound

theorem reset_sound :
    Sound mode (reset pool thread) := by
  have before := free_at here rfl rfl
  unfold reset
  split
  · exact sound
  · next gen current =>
    refine ⟨?_, sound.tidy, sound.fits_move trivial⟩
    refine sound.kept.supersede before current (Nat.le_succ _) fun g now => ?_
    cases now
    exact ⟨Nat.le_refl _, Nat.lt_succ_self _⟩

theorem shutdown_sound :
    Sound mode (shutdown pool thread) := by
  have before := free_at here rfl rfl
  unfold shutdown
  split
  · exact sound
  · next gen current =>
    exact ⟨sound.kept.supersede before current (Nat.le_refl _) nofun, sound.tidy,
      sound.fits_move trivial⟩

end

theorem dial_sound {result : DialResult}
    (stepped : dial pool thread result = some next) : Sound mode next := by
  unfold dial at stepped
  split at stepped
  · next gen connect here =>
    have before := free_at here rfl rfl
    cases result <;> cases stepped
    · exact sound.moveFree before (free_of rfl rfl) trivial
    · exact sound.birth before rfl rfl trivial
    · exact sound.birth before rfl rfl trivial
  · next gen here =>
    have before := free_at here rfl rfl
    have ordered : mode = .ordered := by
      have fits := sound.fits thread
      rwa [here] at fits
    cases result <;> cases stepped
    · exact sound.moveFree before (free_of rfl rfl) trivial
    · exact sound.birth before rfl rfl ordered
    · exact sound.birth before rfl rfl trivial
  · cases stepped

theorem close_sound (stepped : close pool thread = some next) :
    Sound mode next := by
  unfold close at stepped
  split at stepped
  · next conn retry here =>
    cases stepped
    refine sound.close (by rw [here]; rfl) (by rw [here]; rfl) ?_ ?_
    · split <;> exact free_of rfl rfl
    · split <;> trivial
  · next gen connect conn here =>
    cases stepped
    exact sound.close (by rw [here]; rfl) (by rw [here]; rfl) (free_of rfl rfl) trivial
  · next connect conn here =>
    cases stepped
    exact sound.close (by rw [here]; rfl) (by rw [here]; rfl) (free_of rfl rfl) trivial
  · cases stepped

theorem leaveWait_sound (before : Free (pool.phase thread))
    (after : Free phase) (fits : Fits mode phase) :
    Sound mode (leaveWait pool thread gen phase) := by
  have left : Sound mode (pool.setState gen { pool.states gen with
      sharedWaiters := (pool.states gen).sharedWaiters - 1 }) :=
    sound.setState rfl (sound.tidy gen).counters
  exact left.moveFree before after fits

/-- Every step keeps the ledger. -/
theorem poolStep_sound {event : PoolEvent}
    (stepped : poolStep mode pool event = some next) : Sound mode next := by
  cases PoolStep.of_eq stepped with
  | acquire here | refuse here | noSlot here =>
    exact sound.moveFree (free_at here rfl rfl) (free_of rfl rfl) trivial
  | order here current ordered =>
    subst ordered
    exact acquireOrdered_sound sound here current
  | share here current single shared =>
    subst single
    exact acquireShared_sound sound here current shared
  | collect here => exact collectShared_sound sound here
  | leave here | stop here | retry here =>
    exact leaveWait_sound sound (free_at here rfl rfl) (free_of rfl rfl) trivial
  | dial stepped => exact dial_sound sound stepped
  | connect here => exact connectSingle_sound sound here
  | install here => exact dialAndInstall_sound sound here
  | announce here => exact sound.connects.moveFree (free_at here rfl rfl) (free_of rfl rfl) trivial
  | @slot thread _ _ here =>
    have ordered : mode = .ordered := by
      have fits := sound.fits thread
      rwa [here] at fits
    exact sound.moveFree (free_at here rfl rfl) (free_of rfl rfl) ordered
  | close stepped => exact close_sound sound stepped
  | release allowed => exact release_sound sound allowed.1 (handed_of_handedOut allowed.2)
  | invalidate allowed => exact invalidate_sound sound allowed.1 (handed_of_handedOut allowed.2)
  | closeIdle here => exact closeIdle_sound sound here
  | reset here => exact reset_sound sound here
  | shutdown here => exact shutdown_sound sound here
  | @cancel _ gen here =>
    have cancelled : Sound mode (pool.setState gen { pool.states gen with cancelled := true }) :=
      sound.setState rfl (sound.tidy gen).counters
    exact ⟨cancelled.kept.startSweep here, cancelled.tidy, sound.fits_move trivial⟩
  | closeNext here left =>
    exact ⟨sound.kept.sweep here left.1, sound.tidy, sound.fits_move trivial⟩
  | closeDone here done =>
    refine ⟨sound.kept.endSweep here (fun c member => ?_) (free_of rfl rfl), sound.tidy,
      sound.fits_move trivial⟩
    exact of_decide_eq_true (all_eq_true.mp done c member)

end Steps

end Pool

theorem initial_sound (mode : ConnPoolMode) : Sound mode {} where
  kept :=
    { born := fun _ _ member => by cases member
      apart := fun _ _ _ member => by cases member
      empty := fun _ _ => rfl
      current := fun gen current => by
        cases current
        exact Nat.zero_lt_one
      fresh := fun _ _ fresh => fresh.elim
      alone := fun _ _ _ fresh => fresh.elim
      doomed := fun _ _ doomed => doomed.elim
      sweeps := fun _ _ _ sweeps => sweeps.elim
      handed := fun _ ⟨_, member⟩ => by cases member
      closed := fun _ member => by cases member
      owed := fun _ born => absurd born (Nat.not_lt_zero _)
      lawful := trivial }
  tidy _ := ⟨fun _ _ => nofun, fun _ => ⟨.nil, fun _ => nofun⟩⟩
  fits _ := trivial

/-- In every run, in either mode: once every goroutine is idle, a dialed connection has been
closed or is recorded in the current state, and it has been closed if the pool is. At no
time was a connection handed out after it was closed. -/
theorem pool_keeps_connections {mode : ConnPoolMode} {events : List PoolEvent} {pool : ConnPool}
    (ran : poolExec mode events = some pool) :
    ((∀ thread, pool.phase thread = .idle) → ∀ conn < pool.nextConn,
      (.closed conn ∈ pool.log ∨
        ∃ gen, pool.current = some gen ∧ conn ∈ (pool.states gen).all) ∧
      (pool.current = none → .closed conn ∈ pool.log)) ∧
    Always Lawful pool.log := by
  have sound : Sound mode pool :=
    run_invariant (fun _ _ _ sound => poolStep_sound sound) (initial_sound mode) ran
  refine ⟨fun quiet conn born => ?_, sound.kept.lawful⟩
  have settled : .closed conn ∈ pool.log ∨
      ∃ gen, pool.current = some gen ∧ conn ∈ (pool.states gen).all := by
    rcases sound.kept.owed conn born with closed | pooled | ⟨thread, owes⟩
    · exact .inl closed
    · exact .inr pooled
    · refine absurd owes (Ledger.owes_of_free ?_)
      rw [show (ledger pool).phase thread = _ from quiet thread]
      exact free_of rfl rfl
  refine ⟨settled, fun shut => settled.resolve_right ?_⟩
  rintro ⟨gen, current, -⟩
  cases shut.symm.trans current

/-- `Close` overtakes the dial of an acquisition: the goroutine of the dial closes what it
brought. -/
def overtaken : List PoolEvent :=
  [.acquire 0, .enter 0 true 1, .shutdown 2, .dial 1 .succeeded, .cancel 2, .closeDone 2,
    .install 1, .close 1, .announce 1, .collect 0 true]

theorem overtaken_dial_closed :
    ∃ pool, poolExec .single overtaken = some pool ∧ (∀ thread, pool.phase thread = .idle) ∧
      pool.current = none ∧ 0 < pool.nextConn ∧ .closed 0 ∈ pool.log := by
  obtain ⟨pool, ran⟩ : ∃ pool, poolExec .single overtaken = some pool := ⟨_, rfl⟩
  have kept := pool_keeps_connections ran
  have ended : (∀ thread, pool.phase thread = .idle) ∧ pool.current = none ∧ 0 < pool.nextConn := by
    cases ran
    refine ⟨fun thread => ?_, rfl, Nat.zero_lt_one⟩
    match thread with
    | 0 | 1 | 2 | _ + 3 => rfl
  obtain ⟨quiet, shut, born⟩ := ended
  exact ⟨pool, ran, quiet, shut, born, (kept.1 quiet 0 born).2 shut⟩

end AmneziaBox.Guarantees.ConnPoolCustody
