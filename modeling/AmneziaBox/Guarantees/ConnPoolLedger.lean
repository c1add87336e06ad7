import AmneziaBox.Library.History
import AmneziaBox.Source.Transport.ConnPool

/-!
# The ledger of the connection pool

What the pool records where, and in which phase each goroutine is. A ledger is kept when a
dialed connection has been closed, is recorded in the `all` set of the current state, or
some goroutine is about to close or to record it. Each kind of entry leaves it kept; a step
of the pool is one or two entries.
-/
namespace AmneziaBox.Guarantees.ConnPoolCustody
open Library Source.Transport Function List

/-! ## The ledger -/

/-- What the pool records, without the counters. -/
structure Ledger where
  current : Option Nat
  generations : Nat
  nextConn : Nat
  all : Nat → List Nat
  phase : Nat → PoolPhase
  log : List PoolObservation

/-- The goroutine has a new connection that nobody else knows of. -/
def Fresh (conn : Nat) : PoolPhase → Prop
  | .discarding _ _ c => c = conn
  | .dialed _ _ (some c) => c = conn
  | .announcing _ (some c) => c = conn
  | .installing _ c => c = conn
  | _ => False

/-- The goroutine is about to close a connection that was taken out of the pool. -/
def Doomed (conn : Nat) : PoolPhase → Prop
  | .closing c _ => c = conn
  | _ => False

/-- The goroutine is closing what a former state recorded, except `closed`. -/
def Sweeps (gen : Nat) (closed : List Nat) : PoolPhase → Prop
  | .cancelling g => g = gen ∧ closed = []
  | .closingAll g c => g = gen ∧ c = closed
  | _ => False

/-- The goroutine is responsible for no connection. -/
structure Free (phase : PoolPhase) : Prop where
  fresh : ∀ conn, ¬ Fresh conn phase
  doomed : ∀ conn, ¬ Doomed conn phase
  sweeps : ∀ gen closed, ¬ Sweeps gen closed phase

/-- Some acquisition returned the connection. -/
def Handed (log : List PoolObservation) (conn : Nat) : Prop :=
  ∃ created, .acquired conn created ∈ log

/-- A connection that was closed is not handed out. -/
def Lawful : PoolObservation → List PoolObservation → Prop
  | .acquired conn _, past => .closed conn ∉ past
  | _, _ => True

namespace Ledger

def Closed (ledger : Ledger) (conn : Nat) : Prop := .closed conn ∈ ledger.log

/-- Recorded in the `all` set of the current state. -/
def Pooled (ledger : Ledger) (conn : Nat) : Prop :=
  ∃ gen, ledger.current = some gen ∧ conn ∈ ledger.all gen

/-- The goroutine will close the connection or record it. -/
def Owes (ledger : Ledger) (thread conn : Nat) : Prop :=
  Fresh conn (ledger.phase thread) ∨ Doomed conn (ledger.phase thread) ∨
    ∃ gen closed, Sweeps gen closed (ledger.phase thread) ∧ conn ∈ ledger.all gen ∧ conn ∉ closed

/-- Every connection has a place, and the places do not overlap where it matters. -/
structure Kept (ledger : Ledger) : Prop where
  born : ∀ gen conn, conn ∈ ledger.all gen → conn < ledger.nextConn
  apart : ∀ g h conn, conn ∈ ledger.all g → conn ∈ ledger.all h → g = h
  empty : ∀ gen, ledger.generations ≤ gen → ledger.all gen = []
  current : ∀ gen, ledger.current = some gen → gen < ledger.generations
  fresh : ∀ thread conn, Fresh conn (ledger.phase thread) → conn < ledger.nextConn ∧
    (∀ gen, conn ∉ ledger.all gen) ∧ ¬ Handed ledger.log conn ∧ ¬ ledger.Closed conn
  alone : ∀ t u conn, Fresh conn (ledger.phase t) →
    Fresh conn (ledger.phase u) ∨ Doomed conn (ledger.phase u) → t = u
  doomed : ∀ thread conn, Doomed conn (ledger.phase thread) →
    conn < ledger.nextConn ∧ ¬ ledger.Pooled conn
  sweeps : ∀ thread gen closed, Sweeps gen closed (ledger.phase thread) →
    gen < ledger.generations ∧ ledger.current ≠ some gen ∧ ∀ conn ∈ closed, ledger.Closed conn
  handed : ∀ conn, Handed ledger.log conn → conn < ledger.nextConn
  closed : ∀ conn, ledger.Closed conn → conn < ledger.nextConn ∧ ¬ ledger.Pooled conn
  owed : ∀ conn < ledger.nextConn,
    ledger.Closed conn ∨ ledger.Pooled conn ∨ ∃ thread, ledger.Owes thread conn
  lawful : Always Lawful ledger.log

/-! ## Entries of the ledger -/

def move (ledger : Ledger) (thread : Nat) (phase : PoolPhase) : Ledger :=
  { ledger with phase := update ledger.phase thread phase }

def observe (ledger : Ledger) (observation : PoolObservation) : Ledger :=
  { ledger with log := observation :: ledger.log }

def setAll (ledger : Ledger) (gen : Nat) (all : List Nat) : Ledger :=
  { ledger with all := update ledger.all gen all }

section Entries
variable {ledger : Ledger} {thread gen conn : Nat} {phase : PoolPhase}

theorem move_phase (t : Nat) :
    (ledger.move thread phase).phase t = if t = thread then phase else ledger.phase t :=
  update_apply ..

/-- The moved goroutine shares no new connection with another one. -/
theorem Kept.alone_move (kept : Kept ledger)
    (fresh : ∀ c t, t ≠ thread → Fresh c phase →
      ¬ (Fresh c (ledger.phase t) ∨ Doomed c (ledger.phase t)))
    (doomed : ∀ c t, t ≠ thread → Doomed c phase → ¬ Fresh c (ledger.phase t)) (t u c : Nat)
    (here : Fresh c ((ledger.move thread phase).phase t))
    (other : Fresh c ((ledger.move thread phase).phase u) ∨
      Doomed c ((ledger.move thread phase).phase u)) : t = u := by
  rw [move_phase] at here other
  split at here
  · next first =>
    split at other
    · next second => rw [first, second]
    · next second => exact absurd other (fresh c u second here)
  · next first =>
    split at other
    · rcases other with other | other
      · exact absurd (.inl here) (fresh c t first other)
      · exact absurd here (doomed c t first other)
    · exact kept.alone t u c here other

theorem owes_move {t : Nat} (other : t ≠ thread) (owes : ledger.Owes t conn) :
    (ledger.move thread phase).Owes t conn := by
  unfold Owes
  rw [move_phase, if_neg other]
  exact owes

/-- The phase of one goroutine changes; it owes at least what it owed before, and for
what it owes in addition the places are checked. -/
theorem Kept.move (kept : Kept ledger)
    (fresh : ∀ conn, Fresh conn phase → Fresh conn (ledger.phase thread))
    (doomed : ∀ conn, Doomed conn phase → conn < ledger.nextConn ∧ ¬ ledger.Pooled conn ∧
      ∀ t, t ≠ thread → ¬ Fresh conn (ledger.phase t))
    (sweeps : ∀ gen closed, Sweeps gen closed phase → gen < ledger.generations ∧
      ledger.current ≠ some gen ∧ ∀ conn ∈ closed, ledger.Closed conn)
    (owed : ∀ conn, ledger.Owes thread conn → ledger.Closed conn ∨ ledger.Pooled conn ∨
      (ledger.move thread phase).Owes thread conn) : Kept (ledger.move thread phase) where
  born := kept.born
  apart := kept.apart
  empty := kept.empty
  current := kept.current
  fresh t conn here := by
    rw [move_phase] at here
    split at here
    · exact kept.fresh thread conn (fresh conn here)
    · exact kept.fresh t conn here
  alone := kept.alone_move
    (fun c t other here both => other (kept.alone thread t c (fresh c here) both).symm)
    (fun c t other here => (doomed c here).2.2 t other)
  doomed t conn here := by
    rw [move_phase] at here
    split at here
    · exact ⟨(doomed conn here).1, (doomed conn here).2.1⟩
    · exact kept.doomed t conn here
  sweeps t gen closed here := by
    rw [move_phase] at here
    split at here
    · exact sweeps gen closed here
    · exact kept.sweeps t gen closed here
  handed := kept.handed
  closed := kept.closed
  owed conn born := by
    rcases kept.owed conn born with closed | pooled | ⟨t, owes⟩
    · exact .inl closed
    · exact .inr (.inl pooled)
    · by_cases here : t = thread
      · rw [here] at owes
        exact (owed conn owes).imp_right (Or.imp_right fun owes => ⟨thread, owes⟩)
      · exact .inr (.inr ⟨t, owes_move here owes⟩)
  lawful := kept.lawful

theorem owes_of_free (before : Free (ledger.phase thread)) : ¬ ledger.Owes thread conn := by
  rintro (fresh | doomed | ⟨gen, closed, sweeps, -⟩)
  · exact before.fresh conn fresh
  · exact before.doomed conn doomed
  · exact before.sweeps gen closed sweeps

theorem ne_of_owes {t : Nat} (before : Free (ledger.phase thread)) (owes : ledger.Owes t conn) :
    t ≠ thread := by
  rintro rfl
  exact owes_of_free before owes

section Moves
variable (kept : Kept ledger)
include kept

/-- A goroutine goes from one phase without a connection to another. -/
theorem Kept.moveFree (before : Free (ledger.phase thread))
    (after : Free phase) : Kept (ledger.move thread phase) := by
  refine kept.move (fun conn here => absurd here (after.fresh conn))
    (fun conn here => absurd here (after.doomed conn))
    (fun gen closed here => absurd here (after.sweeps gen closed))
    (fun conn owes => absurd owes (owes_of_free before))

/-- A goroutine takes over a connection of the callers in order to close it. -/
theorem Kept.doom (before : Free (ledger.phase thread)) {retry : Bool}
    (handed : Handed ledger.log conn) (unpooled : ¬ ledger.Pooled conn) :
    Kept (ledger.move thread (.closing conn retry)) := by
  refine kept.move (fun _ here => here.elim) ?_ (fun _ _ here => here.elim)
    (fun c owes => absurd owes (owes_of_free before))
  rintro c rfl
  exact ⟨kept.handed conn handed, unpooled, fun t _ fresh =>
    (kept.fresh t conn fresh).2.2.1 handed⟩

/-- A new connection, or one that is being closed, stays with its goroutine. -/
theorem Kept.relabel (here : Fresh conn (ledger.phase thread))
    (only : ∀ c, ledger.Owes thread c → c = conn)
    (after : ∀ c, Fresh c phase ∨ Doomed c phase ↔ c = conn)
    (still : ∀ gen closed, ¬ Sweeps gen closed phase) : Kept (ledger.move thread phase) := by
  obtain ⟨born, unrecorded, -, -⟩ := kept.fresh thread conn here
  refine kept.move ?_ ?_ (fun gen closed sweeps => absurd sweeps (still gen closed)) ?_
  · intro c fresh
    rw [(after c).mp (.inl fresh)]
    exact here
  · intro c doomed
    obtain rfl := (after c).mp (.inr doomed)
    refine ⟨born, fun ⟨gen, _, member⟩ => unrecorded gen member, fun t other fresh => ?_⟩
    exact other (kept.alone t thread c fresh (.inl here))
  · intro c owes
    refine .inr (.inr ?_)
    rcases (after c).mpr (only c owes) with fresh | doomed
    · exact .inl (by rwa [move_phase, if_pos rfl])
    · exact .inr (.inl (by rwa [move_phase, if_pos rfl]))

theorem Kept.observe {observation : PoolObservation}
    (closes : ∀ conn, observation = .closed conn → conn < ledger.nextConn ∧
      ¬ ledger.Pooled conn ∧ ∀ t, ¬ Fresh conn (ledger.phase t))
    (hands : ∀ conn created, observation = .acquired conn created → conn < ledger.nextConn ∧
      ¬ ledger.Closed conn ∧ ∀ t, ¬ Fresh conn (ledger.phase t)) :
    Kept (ledger.observe observation) where
  born := kept.born
  apart := kept.apart
  empty := kept.empty
  current := kept.current
  fresh t conn fresh := by
    obtain ⟨born, unrecorded, unhanded, unclosed⟩ := kept.fresh t conn fresh
    refine ⟨born, unrecorded, ?_, ?_⟩
    · rintro ⟨created, member⟩
      rcases mem_cons.mp member with now | before
      · exact (hands conn created now.symm).2.2 t fresh
      · exact unhanded ⟨created, before⟩
    · intro member
      rcases mem_cons.mp member with now | before
      · exact (closes conn now.symm).2.2 t fresh
      · exact unclosed before
  alone := kept.alone
  doomed := kept.doomed
  sweeps t gen closed sweeps := by
    obtain ⟨old, former, done⟩ := kept.sweeps t gen closed sweeps
    exact ⟨old, former, fun conn member => mem_cons_of_mem _ (done conn member)⟩
  handed conn := by
    rintro ⟨created, member⟩
    rcases mem_cons.mp member with now | before
    · exact (hands conn created now.symm).1
    · exact kept.handed conn ⟨created, before⟩
  closed conn member := by
    rcases mem_cons.mp member with now | before
    · exact ⟨(closes conn now.symm).1, (closes conn now.symm).2.1⟩
    · exact kept.closed conn before
  owed conn born := (kept.owed conn born).imp_left (mem_cons_of_mem _)
  lawful := by
    refine ⟨?_, kept.lawful⟩
    cases observation with
    | acquired conn created => exact (hands conn created rfl).2.1
    | released | closed => trivial

theorem Kept.released : Kept (ledger.observe (.released conn)) :=
  kept.observe (fun _ equal => by cases equal) (fun _ _ equal => by cases equal)

/-- A recorded connection is handed out. -/
theorem Kept.handOut {created : Bool} (current : ledger.current = some gen)
    (member : conn ∈ ledger.all gen) : Kept (ledger.observe (.acquired conn created)) := by
  refine kept.observe (fun _ equal => by cases equal) ?_
  intro c other equal
  cases equal
  exact ⟨kept.born gen conn member,
    fun closed => (kept.closed conn closed).2 ⟨gen, current, member⟩,
    fun t fresh => (kept.fresh t conn fresh).2.1 gen member⟩

section
variable (here : Fresh conn (ledger.phase thread) ∨ Doomed conn (ledger.phase thread))
include here

/-- The goroutine is to close its connection. -/
theorem Kept.condemn (only : ∀ c, ledger.Owes thread c → c = conn) :
    Kept (ledger.move thread (.closing conn false)) := by
  have place : conn < ledger.nextConn ∧ ¬ ledger.Pooled conn := by
    rcases here with fresh | doomed
    · obtain ⟨born, unrecorded, -, -⟩ := kept.fresh thread conn fresh
      exact ⟨born, fun ⟨gen, _, member⟩ => unrecorded gen member⟩
    · exact kept.doomed thread conn doomed
  refine kept.move (fun _ fresh => fresh.elim) ?_ (fun _ _ sweeps => sweeps.elim) ?_
  · rintro c rfl
    exact ⟨place.1, place.2, fun t other fresh => other (kept.alone t thread conn fresh here)⟩
  · intro c owes
    refine .inr (.inr (.inr (.inl ?_)))
    rw [move_phase, if_pos rfl]
    exact (only c owes).symm

/-- The goroutine closes its connection. -/
theorem Kept.close (only : ∀ c, ledger.Owes thread c → c = conn) (after : Free phase) :
    Kept ((ledger.observe (.closed conn)).move thread phase) := by
  have closing := kept.condemn here only
  have at_ : (ledger.move thread (.closing conn false)).phase thread = .closing conn false :=
    update_self ..
  have doomed : Doomed conn ((ledger.move thread (.closing conn false)).phase thread) := by
    rw [at_]
    exact rfl
  have observed : Kept ((ledger.move thread (.closing conn false)).observe (.closed conn)) := by
    refine closing.observe ?_ (fun _ _ equal => by cases equal)
    rintro c ⟨⟩
    refine ⟨(closing.doomed thread conn doomed).1, (closing.doomed thread conn doomed).2, ?_⟩
    intro t fresh
    obtain rfl := closing.alone t thread conn fresh (.inr doomed)
    rw [at_] at fresh
    exact fresh
  have moved : Kept (((ledger.move thread (.closing conn false)).observe (.closed conn)).move
      thread phase) := by
    refine observed.move (fun c fresh => absurd fresh (after.fresh c))
      (fun c doomed => absurd doomed (after.doomed c))
      (fun g list sweeps => absurd sweeps (after.sweeps g list)) ?_
    intro c owes
    unfold Owes at owes
    rw [show ((ledger.move thread (.closing conn false)).observe (.closed conn)).phase thread = _
      from at_] at owes
    rcases owes with fresh | rfl | ⟨_, _, sweeps, _⟩
    · exact fresh.elim
    · exact .inl mem_cons_self
    · exact sweeps.elim
  unfold Ledger.move Ledger.observe at moved ⊢
  rwa [update_idem] at moved

end

/-- `closeState` closes one more connection of its state. -/
theorem Kept.sweep {closed : List Nat}
    (here : ledger.phase thread = .closingAll gen closed) (member : conn ∈ ledger.all gen) :
    Kept ((ledger.observe (.closed conn)).move thread (.closingAll gen (conn :: closed))) := by
  have sweeping : Sweeps gen closed (ledger.phase thread) := by rw [here]; exact ⟨rfl, rfl⟩
  obtain ⟨old, former, done⟩ := kept.sweeps thread gen closed sweeping
  have observed : Kept (ledger.observe (.closed conn)) := by
    refine kept.observe ?_ (fun _ _ equal => by cases equal)
    intro c equal
    cases equal
    refine ⟨kept.born gen conn member, ?_, fun t fresh => (kept.fresh t conn fresh).2.1 gen member⟩
    rintro ⟨g, current, recorded⟩
    exact former (kept.apart gen g conn member recorded ▸ current)
  refine observed.move (fun _ fresh => fresh.elim) (fun _ doomed => doomed.elim) ?_ ?_
  · rintro g c ⟨rfl, rfl⟩
    refine ⟨old, former, fun x inside => ?_⟩
    rcases mem_cons.mp inside with rfl | before
    · exact mem_cons_self
    · exact mem_cons_of_mem _ (done x before)
  · intro c owes
    unfold Owes at owes
    rw [show (ledger.observe (.closed conn)).phase thread = _ from here] at owes
    rcases owes with fresh | doomed | ⟨g, list, ⟨rfl, rfl⟩, recorded, notYet⟩
    · exact fresh.elim
    · exact doomed.elim
    · by_cases now : c = conn
      · rw [now]
        exact .inl mem_cons_self
      · refine .inr (.inr (.inr (.inr ⟨gen, conn :: closed, ?_, recorded, ?_⟩)))
        · rw [move_phase, if_pos rfl]
          exact ⟨rfl, rfl⟩
        · simpa [now] using notYet

end Moves

theorem setAll_all (all : List Nat) (g : Nat) :
    (ledger.setAll gen all).all g = if g = gen then all else ledger.all g :=
  update_apply ..

section Books
variable (kept : Kept ledger)
include kept

/-- A recorded connection is taken out of the pool by the goroutine that closes it. -/
theorem Kept.remove (before : Free (ledger.phase thread)) {retry : Bool}
    (current : ledger.current = some gen) (member : conn ∈ ledger.all gen) :
    Kept ((ledger.setAll gen ((ledger.all gen).filter (· ≠ conn))).move thread
      (.closing conn retry)) := by
  have fewer : ∀ g c, c ∈ (ledger.setAll gen ((ledger.all gen).filter (· ≠ conn))).all g →
      c ∈ ledger.all g ∧ (g = gen → c ≠ conn) := by
    intro g c inside
    rw [setAll_all] at inside
    split at inside
    · next here =>
      rw [mem_filter] at inside
      exact ⟨here ▸ inside.1, fun _ => by simpa using inside.2⟩
    · next other => exact ⟨inside, fun here => absurd here other⟩
  have kept_ : ∀ g c, c ∈ ledger.all g → (g = gen → c ≠ conn) →
      c ∈ (ledger.setAll gen ((ledger.all gen).filter (· ≠ conn))).all g := by
    intro g c inside different
    rw [setAll_all]
    split
    · next here => simpa [here ▸ inside] using different here
    · exact inside
  have unpooled : ∀ c, ¬ ledger.Pooled c →
      ¬ (ledger.setAll gen ((ledger.all gen).filter (· ≠ conn))).Pooled c := by
    rintro c not ⟨g, now, inside⟩
    exact not ⟨g, now, (fewer g c inside).1⟩
  refine
    { kept with
      born := fun g c inside => kept.born g c (fewer g c inside).1
      apart := fun g h c one other => kept.apart g h c (fewer g c one).1 (fewer h c other).1
      empty := ?_
      fresh := ?_
      alone := kept.alone_move (fun _ _ _ fresh => fresh.elim) fun c t _ here fresh =>
        absurd (here ▸ member) ((kept.fresh t c fresh).2.1 gen)
      doomed := ?_
      sweeps := ?_
      closed := fun c closed => ⟨(kept.closed c closed).1, unpooled c (kept.closed c closed).2⟩
      owed := ?_ }
  · intro g beyond
    refine eq_nil_iff_forall_not_mem.mpr fun c inside => ?_
    have there := (fewer g c inside).1
    rw [kept.empty g beyond] at there
    cases there
  · intro t c fresh
    rw [move_phase] at fresh
    split at fresh
    · exact fresh.elim
    · obtain ⟨born, unrecorded, rest⟩ := kept.fresh t c fresh
      exact ⟨born, fun g inside => unrecorded g (fewer g c inside).1, rest⟩
  · intro t c doomed
    rw [move_phase] at doomed
    split at doomed
    · obtain rfl : conn = c := doomed
      refine ⟨kept.born gen conn member, ?_⟩
      rintro ⟨g, now, inside⟩
      cases current.symm.trans now
      exact (fewer gen conn inside).2 rfl rfl
    · exact ⟨(kept.doomed t c doomed).1, unpooled c (kept.doomed t c doomed).2⟩
  · intro t g closed sweeps
    rw [move_phase] at sweeps
    split at sweeps
    · exact sweeps.elim
    · exact kept.sweeps t g closed sweeps
  · intro c born
    by_cases here : c = conn
    · refine .inr (.inr ⟨thread, .inr (.inl ?_)⟩)
      rw [move_phase, if_pos rfl, here]
      exact rfl
    · rcases kept.owed c born with closed | ⟨g, now, inside⟩ | ⟨t, owes⟩
      · exact .inl closed
      · exact .inr (.inl ⟨g, now, kept_ g c inside fun _ => here⟩)
      · refine .inr (.inr ⟨t, ?_⟩)
        refine owes_move (ne_of_owes before owes) ?_
        rcases owes with fresh | doomed | ⟨g, list, sweeps, inside, notYet⟩
        · exact .inl fresh
        · exact .inr (.inl doomed)
        · exact .inr (.inr ⟨g, list, sweeps, kept_ g c inside fun _ => here, notYet⟩)

/-- A new connection is recorded in the current state. -/
theorem Kept.record (here : Fresh conn (ledger.phase thread))
    (only : ∀ c, ledger.Owes thread c → c = conn) (current : ledger.current = some gen)
    (after : Free phase) :
    Kept ((ledger.setAll gen (conn :: ledger.all gen)).move thread phase) := by
  obtain ⟨born, unrecorded, unhanded, unclosed⟩ := kept.fresh thread conn here
  have more : ∀ g c, c ∈ (ledger.setAll gen (conn :: ledger.all gen)).all g ↔
      c ∈ ledger.all g ∨ g = gen ∧ c = conn := by
    intro g c
    rw [setAll_all]
    split
    · next at_ => rw [at_, mem_cons, or_comm]; simp
    · next other => simp [other]
  have unpooled : ∀ c, c ≠ conn → ¬ ledger.Pooled c →
      ¬ (ledger.setAll gen (conn :: ledger.all gen)).Pooled c := by
    rintro c different not ⟨g, now, inside⟩
    rcases (more g c).mp inside with before | ⟨-, equal⟩
    · exact not ⟨g, now, before⟩
    · exact different equal
  refine
    { kept with
      born := ?_
      apart := ?_
      empty := ?_
      fresh := ?_
      alone := kept.alone_move (fun c _ _ fresh => absurd fresh (after.fresh c))
        (fun c _ _ doomed => absurd doomed (after.doomed c))
      doomed := ?_
      sweeps := ?_
      closed := ?_
      owed := ?_ }
  · intro g c inside
    rcases (more g c).mp inside with before | ⟨-, rfl⟩
    · exact kept.born g c before
    · exact born
  · intro g h c one other
    rcases (more g c).mp one with first | ⟨rfl, rfl⟩
    · rcases (more h c).mp other with second | ⟨rfl, rfl⟩
      · exact kept.apart g h c first second
      · exact absurd first (unrecorded g)
    · rcases (more h c).mp other with second | ⟨rfl, -⟩
      · exact absurd second (unrecorded h)
      · rfl
  · intro g beyond
    have other : g ≠ gen := by
      have := kept.current gen current
      intro equal
      have bound : ledger.generations ≤ g := beyond
      omega
    show (ledger.setAll gen (conn :: ledger.all gen)).all g = []
    rw [setAll_all, if_neg other]
    exact kept.empty g beyond
  · intro t c fresh
    rw [move_phase] at fresh
    split at fresh
    · exact absurd fresh (after.fresh c)
    · next other =>
      obtain ⟨bornC, unrecordedC, rest⟩ := kept.fresh t c fresh
      refine ⟨bornC, fun g inside => ?_, rest⟩
      rcases (more g c).mp inside with before | ⟨-, rfl⟩
      · exact unrecordedC g before
      · exact other (kept.alone t thread c fresh (.inl here))
  · intro t c doomed
    rw [move_phase] at doomed
    split at doomed
    · exact absurd doomed (after.doomed c)
    · next other =>
      refine ⟨(kept.doomed t c doomed).1, unpooled c ?_ (kept.doomed t c doomed).2⟩
      rintro rfl
      exact other (kept.alone thread t c here (.inr doomed)).symm
  · intro t g closed sweeps
    rw [move_phase] at sweeps
    split at sweeps
    · exact absurd sweeps (after.sweeps g closed)
    · exact kept.sweeps t g closed sweeps
  · intro c closed
    refine ⟨(kept.closed c closed).1, unpooled c ?_ (kept.closed c closed).2⟩
    rintro rfl
    exact unclosed closed
  · intro c bornC
    rcases kept.owed c bornC with closed | ⟨g, now, inside⟩ | ⟨t, owes⟩
    · exact .inl closed
    · exact .inr (.inl ⟨g, now, (more g c).mpr (.inl inside)⟩)
    · by_cases at_ : t = thread
      · rw [at_] at owes
        exact .inr (.inl ⟨gen, current, (more gen c).mpr (.inr ⟨rfl, only c owes⟩)⟩)
      · refine .inr (.inr ⟨t, owes_move at_ ?_⟩)
        rcases owes with fresh | doomed | ⟨g, list, sweeps, inside, notYet⟩
        · exact .inl fresh
        · exact .inr (.inl doomed)
        · exact .inr (.inr ⟨g, list, sweeps, (more g c).mpr (.inl inside), notYet⟩)

/-- A dial returns a connection. -/
theorem Kept.birth (before : Free (ledger.phase thread))
    (after : ∀ c, Fresh c phase ∨ Doomed c phase ↔ c = ledger.nextConn)
    (still : ∀ gen closed, ¬ Sweeps gen closed phase) :
    Kept ({ ledger with nextConn := ledger.nextConn + 1 }.move thread phase) := by
  have unrecorded : ∀ g, ledger.nextConn ∉ ledger.all g := fun g member =>
    absurd (kept.born g _ member) (Nat.lt_irrefl _)
  have foreign : ∀ t, ¬ Fresh ledger.nextConn (ledger.phase t) := fun t fresh =>
    absurd (kept.fresh t _ fresh).1 (Nat.lt_irrefl _)
  refine
    { kept with
      born := fun g c member => Nat.lt_succ_of_lt (kept.born g c member)
      fresh := ?_
      alone := kept.alone_move
        (fun c t _ here other => by
          obtain rfl := (after c).mp (.inl here)
          exact other.elim (foreign t) fun doomed =>
            absurd (kept.doomed t _ doomed).1 (Nat.lt_irrefl _))
        (fun c t _ here => (after c).mp (.inr here) ▸ foreign t)
      doomed := ?_
      sweeps := ?_
      handed := fun c handed => Nat.lt_succ_of_lt (kept.handed c handed)
      closed := fun c closed => ⟨Nat.lt_succ_of_lt (kept.closed c closed).1, (kept.closed c closed).2⟩
      owed := ?_ }
  · intro t c fresh
    rw [move_phase] at fresh
    split at fresh
    · obtain rfl := (after c).mp (.inl fresh)
      exact ⟨Nat.lt_succ_self _, unrecorded,
        fun handed => absurd (kept.handed _ handed) (Nat.lt_irrefl _),
        fun closed => absurd (kept.closed _ closed).1 (Nat.lt_irrefl _)⟩
    · obtain ⟨born, rest⟩ := kept.fresh t c fresh
      exact ⟨Nat.lt_succ_of_lt born, rest⟩
  · intro t c doomed
    rw [move_phase] at doomed
    split at doomed
    · obtain rfl := (after c).mp (.inr doomed)
      exact ⟨Nat.lt_succ_self _, fun ⟨g, _, member⟩ => unrecorded g member⟩
    · exact ⟨Nat.lt_succ_of_lt (kept.doomed t c doomed).1, (kept.doomed t c doomed).2⟩
  · intro t g closed sweeps
    rw [move_phase] at sweeps
    split at sweeps
    · exact absurd sweeps (still g closed)
    · exact kept.sweeps t g closed sweeps
  · intro c born
    by_cases new : c = ledger.nextConn
    · refine .inr (.inr ⟨thread, ?_⟩)
      unfold Owes
      rw [move_phase, if_pos rfl]
      rcases (after c).mpr new with fresh | doomed
      · exact .inl fresh
      · exact .inr (.inl doomed)
    · have old : c < ledger.nextConn := by
        have bound : c < ledger.nextConn + 1 := born
        omega
      rcases kept.owed c old with closed | pooled | ⟨t, owes⟩
      · exact .inl closed
      · exact .inr (.inl pooled)
      · exact .inr (.inr ⟨t, owes_move (ne_of_owes before owes) owes⟩)

/-- `Reset` or `Close` leaves the current state to the goroutine that closes it. -/
theorem Kept.supersede (before : Free (ledger.phase thread))
    (current : ledger.current = some gen) {next : Option Nat} {generations : Nat}
    (more : ledger.generations ≤ generations)
    (successor : ∀ g, next = some g → ledger.generations ≤ g ∧ g < generations) :
    Kept ({ ledger with current := next, generations := generations }.move thread
      (.cancelling gen)) := by
  have emptied : ∀ c, ¬ { ledger with current := next, generations := generations }.Pooled c := by
    rintro c ⟨g, now, member⟩
    have none : ledger.all g = [] := kept.empty g (successor g now).1
    have inside : c ∈ ledger.all g := member
    rw [none] at inside
    cases inside
  have unequal : ∀ g, g < ledger.generations → next ≠ some g := fun g old equal => by
    have := (successor g equal).1
    omega
  refine
    { kept with
      empty := fun g beyond => kept.empty g (Nat.le_trans more beyond)
      current := fun g now => (successor g now).2
      fresh := ?_
      alone := kept.alone_move (fun _ _ _ fresh => fresh.elim) (fun _ _ _ doomed => doomed.elim)
      doomed := ?_
      sweeps := ?_
      closed := fun c closed => ⟨(kept.closed c closed).1, emptied c⟩
      owed := ?_ }
  · intro t c fresh
    rw [move_phase] at fresh
    split at fresh
    · exact fresh.elim
    · exact kept.fresh t c fresh
  · intro t c doomed
    rw [move_phase] at doomed
    split at doomed
    · exact doomed.elim
    · exact ⟨(kept.doomed t c doomed).1, emptied c⟩
  · intro t g closed sweeps
    rw [move_phase] at sweeps
    split at sweeps
    · obtain ⟨rfl, rfl⟩ := sweeps
      have old := kept.current gen current
      exact ⟨Nat.lt_of_lt_of_le old more, unequal gen old, fun c member => by cases member⟩
    · obtain ⟨old, -, done⟩ := kept.sweeps t g closed sweeps
      exact ⟨Nat.lt_of_lt_of_le old more, unequal g old, done⟩
  · intro c born
    rcases kept.owed c born with closed | ⟨g, now, member⟩ | ⟨t, owes⟩
    · exact .inl closed
    · cases current.symm.trans now
      refine .inr (.inr ⟨thread, .inr (.inr ⟨gen, [], ?_, member, by simp⟩)⟩)
      rw [move_phase, if_pos rfl]
      exact ⟨rfl, rfl⟩
    · exact .inr (.inr ⟨t, owes_move (ne_of_owes before owes) owes⟩)

/-- `closeState` starts its loop. -/
theorem Kept.startSweep (here : ledger.phase thread = .cancelling gen) :
    Kept (ledger.move thread (.closingAll gen [])) := by
  have sweeping : Sweeps gen [] (ledger.phase thread) := by rw [here]; exact ⟨rfl, rfl⟩
  refine kept.move (fun _ fresh => fresh.elim) (fun _ doomed => doomed.elim) ?_ ?_
  · rintro g closed ⟨rfl, rfl⟩
    exact kept.sweeps thread gen [] sweeping
  · intro c owes
    refine .inr (.inr ?_)
    unfold Owes at owes ⊢
    rw [here] at owes
    rw [move_phase, if_pos rfl]
    rcases owes with fresh | doomed | ⟨g, list, sweeps, rest⟩
    · exact fresh.elim
    · exact doomed.elim
    · exact .inr (.inr ⟨g, list, ⟨sweeps.1, sweeps.2.symm⟩, rest⟩)

/-- `closeState` has closed all that its state recorded. -/
theorem Kept.endSweep {closed : List Nat}
    (here : ledger.phase thread = .closingAll gen closed) (done : ∀ c ∈ ledger.all gen, c ∈ closed)
    (after : Free phase) : Kept (ledger.move thread phase) := by
  refine kept.move (fun c fresh => absurd fresh (after.fresh c))
    (fun c doomed => absurd doomed (after.doomed c))
    (fun g list sweeps => absurd sweeps (after.sweeps g list)) ?_
  intro c owes
  unfold Owes at owes
  rw [here] at owes
  rcases owes with fresh | doomed | ⟨g, list, ⟨rfl, rfl⟩, member, notYet⟩
  · exact fresh.elim
  · exact doomed.elim
  · exact absurd (done c member) notYet

end Books

end Entries
end Ledger

end AmneziaBox.Guarantees.ConnPoolCustody
