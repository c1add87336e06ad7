import AmneziaBox.Guarantees.MultiplexerIds
import AmneziaBox.Library.Custody
import AmneziaBox.Library.History

/-!
# Every call of the multiplexer is answered once

The callback of a call is a token: it is in the hands of one goroutine or of one entry of the
map until it is called. So it is not called twice, and no entry is left for a call whose
callback ran. It is not lost either: each step for a call leaves fewer to come, no other step
adds any, and whoever has the call in hand has a next step. A query in the map has one as soon
as its context ends, its connection is invalidated or a message with its identifier has come.

A goroutine whose write has failed takes the entry under its identifier for its own. That is
right as long as the identifier was not given to another query during the write, for which it
is enough that fewer than 65536 queries are registered while the write is in progress.
-/
namespace AmneziaBox.Guarantees.MultiplexerCompletion
open Library Source.Transport MultiplexerIds Function Registration

/-! ## Statement -/

/-- The callback of the call ran. -/
def Called (log : List MuxObservation) (call : Nat) : Prop :=
  ∃ answer, .callback call answer ∈ log

def CalledOnce : MuxObservation → List MuxObservation → Prop
  | .callback call _, past => ¬ Called past call
  | _, _ => True

/-- The call that a goroutine has to see to. -/
def works : MuxPhase → Option Nat
  | .acquiring attempt => some attempt.call
  | .acquired attempt _ _ => some attempt.call
  | .refused attempt _ => some attempt.call
  | .single call => some call
  | .taken _ pending => some pending.call
  | .stopped _ pending => some pending.call
  | .calling call _ _ => some call
  | _ => none

/-- The call that a goroutine or an entry of the map has in hand. -/
def holds (mux : Mux) : Nat ⊕ QueryId → Option Nat
  | .inl thread => works (mux.phase thread)
  | .inr queryId => (mux.queries queryId).map PendingQuery.call

/-- A write is in progress, up to `take` if it fails. -/
def Writes (serial : Nat) : MuxPhase → Prop
  | .writing s => s = serial
  | .failing s => s = serial
  | _ => False

/-- The goroutine has taken the entry. -/
def Took (cause : TakeCause) (pending : PendingQuery) : MuxPhase → Prop
  | .taken c p => c = cause ∧ p = pending
  | .stopped c p => c = cause ∧ p = pending
  | _ => False

/-- Nobody has taken the functions given to `context.AfterFunc` away from an entry. -/
structure Watched (mux : Mux) (serial : Nat) : Prop where
  context : (mux.registered serial).context = .armed ∨ ∃ t, mux.phase t = .contextDone serial
  connection : (mux.registered serial).connection = .armed ∨ ∃ t, mux.phase t = .connDone serial

/-- Who writes, who has taken an entry, and who watches over those in the map. -/
structure Attended (mux : Mux) : Prop where
  mapped : Mapped mux
  writers : ∀ t serial, Writes serial (mux.phase t) → serial < mux.registrations ∧ Clear mux serial
  took : ∀ t cause pending, Took cause pending (mux.phase t) →
    (∃ queryId, Recorded mux queryId pending) ∧
    (∀ serial, cause = .writeFailed serial → pending.serial = serial) ∧
    ∀ queryId p, mux.queries queryId = some p → p.serial ≠ pending.serial
  watched : ∀ queryId pending, mux.queries queryId = some pending → Watched mux pending.serial
  idle : ∃ n, ∀ t, n ≤ t → mux.phase t = .idle

structure Complete (mux : Mux) : Prop where
  attended : Attended mux
  custody : Custody (holds mux) (· < mux.nextCall) (Called mux.log)
  once : Always CalledOnce mux.log

section Steps
variable {retryReadError : Bool} {mux next : Mux} {thread serial : Nat} {after : MuxPhase}
  {queryId : QueryId} {pending : PendingQuery} {cause : TakeCause}

theorem phase_of_update {t : Nat} (phase : next.phase = update mux.phase thread after) :
    next.phase t = if t = thread then after else mux.phase t := by
  rw [phase, update_apply]

theorem idle_of_update (phase : next.phase = update mux.phase thread after)
    (idle : ∃ n, ∀ t, n ≤ t → mux.phase t = .idle) : ∃ n, ∀ t, n ≤ t → next.phase t = .idle := by
  obtain ⟨n, quiet⟩ := idle
  refine ⟨max n (thread + 1), fun t high => ?_⟩
  rw [phase_of_update phase, if_neg (by omega)]
  exact quiet t (by omega)

/-- A goroutine stays where it is unless it is the one that moves. -/
theorem exists_of_update {phase : MuxPhase}
    (moved : next.phase = update mux.phase thread after)
    (somewhere : ∃ t, mux.phase t = phase) (other : mux.phase thread = phase → after = phase) :
    ∃ t, next.phase t = phase := by
  obtain ⟨t, here⟩ := somewhere
  refine ⟨t, ?_⟩
  rw [phase_of_update moved]
  split
  · next same => exact other (same ▸ here)
  · exact here

/-- One goroutine moves while the map stays as it is. -/
structure Shift (mux next : Mux) (thread : Nat) (after : MuxPhase) : Prop where
  phase : next.phase = update mux.phase thread after
  untouched : Untouched mux next
  writes : ∀ serial, Writes serial after → Writes serial (mux.phase thread)
  took : ∀ cause pending, Took cause pending after → Took cause pending (mux.phase thread)
  /-- A function that runs for an entry is not lost before `take`. -/
  context : ∀ queryId pending, mux.queries queryId = some pending →
    Watched mux pending.serial → Watched next pending.serial

theorem Attended.shift (attended : Attended mux) (shift : Shift mux next thread after) :
    Attended next := by
  have earlier : ∀ {P : MuxPhase → Prop}, (P after → P (mux.phase thread)) → ∀ t,
      P (next.phase t) → P (mux.phase t) := by
    intro P fewer t now
    rw [phase_of_update shift.phase] at now
    split at now
    · next here => exact here ▸ fewer now
    · exact now
  refine
    { mapped := attended.mapped.untouched shift.untouched
      writers := fun t serial now => ?_
      took := fun t cause pending now => ?_
      watched := fun queryId pending entry => ?_
      idle := idle_of_update shift.phase attended.idle }
  · obtain ⟨known, clear⟩ := attended.writers t serial (earlier (shift.writes serial) t now)
    exact ⟨shift.untouched.registrations ▸ known, clear.untouched shift.untouched⟩
  · obtain ⟨⟨id, recorded⟩, own, apart⟩ :=
      attended.took t cause pending (earlier (shift.took cause pending) t now)
    refine ⟨⟨id, recorded.grows shift.untouched.grows⟩, own, fun id' p entry => ?_⟩
    rw [shift.untouched.queries] at entry
    exact apart id' p entry
  · rw [shift.untouched.queries] at entry
    exact shift.context queryId pending entry (attended.watched queryId pending entry)

/-- The goroutine is about to take the entry of its registration because a context ended. -/
def Completes (serial : Nat) (phase : MuxPhase) : Prop :=
  phase = .contextDone serial ∨ phase = .connDone serial

def isCompleter : MuxPhase → Bool
  | .contextDone _ => true
  | .connDone _ => true
  | _ => false

theorem not_completes (other : isCompleter after = false) : ¬ Completes serial after := by
  rintro (rfl | rfl) <;> cases other

/-- The functions given to `context.AfterFunc` are as before, and the goroutine that moves is
not one that was about to take an entry. -/
theorem watched_of_same (phase : next.phase = update mux.phase thread after)
    (registered : next.registered serial = mux.registered serial)
    (stays : Completes serial (mux.phase thread) → after = mux.phase thread)
    (watched : Watched mux serial) : Watched next serial := by
  constructor
  · rw [registered]
    exact watched.context.imp_right fun fired =>
      exists_of_update phase fired fun there => (stays (.inl there)).trans there
  · rw [registered]
    exact watched.connection.imp_right fun fired =>
      exists_of_update phase fired fun there => (stays (.inr there)).trans there

variable {otherwise : MuxPhase}

variable {conn : Nat}

theorem holds_eq (mux : Mux) :
    holds mux = Sum.elim (works ∘ mux.phase) (Option.map PendingQuery.call ∘ mux.queries) := by
  funext hand
  cases hand <;> rfl

theorem holds_of_update (phase : next.phase = update mux.phase thread after)
    (queries : next.queries = mux.queries) :
    holds next = update (holds mux) (.inl thread) (works after) := by
  rw [holds_eq next, phase, queries, comp_update, holds_eq mux, Sum.update_elim_inl]

/-- No callback is called and no call begins. -/
structure Silent (mux next : Mux) : Prop where
  nextCall : next.nextCall = mux.nextCall
  log : next.log = mux.log ∨ ∃ observation, next.log = observation :: mux.log ∧
    ∀ call answer, observation ≠ .callback call answer

theorem Silent.called (silent : Silent mux next) (call : Nat) :
    Called next.log call ↔ Called mux.log call := by
  rcases silent.log with same | ⟨observation, same, other⟩
  · rw [same]
  · rw [same]
    constructor
    · rintro ⟨answer, member⟩
      rcases List.mem_cons.mp member with now | before
      · exact absurd now.symm (other call answer)
      · exact ⟨answer, before⟩
    · exact fun ⟨answer, member⟩ => ⟨answer, List.mem_cons_of_mem _ member⟩

theorem Silent.once (silent : Silent mux next) (once : Always CalledOnce mux.log) :
    Always CalledOnce next.log := by
  rcases silent.log with same | ⟨observation, same, other⟩
  · rw [same]
    exact once
  · rw [same]
    refine ⟨?_, once⟩
    cases observation with
    | callback call answer => exact absurd rfl (other call answer)
    | registered | taken | released | invalidated => trivial

section
variable (complete : Complete mux)
include complete

/-- A goroutine goes on with the call it has in hand, or without one. -/
theorem Complete.shift (shift : Shift mux next thread after) (silent : Silent mux next)
    (same : works after = works (mux.phase thread)) :
    Complete next where
  attended := complete.attended.shift shift
  custody := by
    rw [holds_of_update shift.phase shift.untouched.queries, same,
      show works (mux.phase thread) = holds mux (.inl thread) from rfl, update_eq_self]
    refine complete.custody.congr (fun call => ?_) silent.called
    rw [silent.nextCall]
  once := silent.once complete.once

/-- `ExchangeAsync` is called. -/
theorem Complete.begin (shift : Shift mux next thread after)
    (empty : works (mux.phase thread) = none) (begun : works after = some mux.nextCall)
    (nextCall : next.nextCall = mux.nextCall + 1) (log : next.log = mux.log) : Complete next where
  attended := complete.attended.shift shift
  custody := by
    rw [holds_of_update shift.phase shift.untouched.queries, begun, log, nextCall]
    have hand : holds mux (.inl thread) = none := empty
    refine (complete.custody.issue hand (Nat.lt_irrefl mux.nextCall)).congr (fun call => ?_)
      fun call => Iff.rfl
    exact Nat.lt_succ_iff_lt_or_eq
  once := by
    rw [log]
    exact complete.once

/-- A callback is called. -/
theorem Complete.callback (shift : Shift mux next thread after) {call : Nat} {answer : Answer}
    (hand : works (mux.phase thread) = some call) (done : works after = none)
    (nextCall : next.nextCall = mux.nextCall) (log : next.log = .callback call answer :: mux.log) :
    Complete next where
  attended := complete.attended.shift shift
  custody := by
    rw [holds_of_update shift.phase shift.untouched.queries, done, log, nextCall]
    have here : holds mux (.inl thread) = some call := hand
    refine (complete.custody.settle here).congr (fun call => Iff.rfl) fun c => ?_
    constructor
    · rintro ⟨a, member⟩
      rcases List.mem_cons.mp member with now | before
      · cases now
        exact .inr rfl
      · exact .inl ⟨a, before⟩
    · rintro (⟨a, before⟩ | rfl)
      · exact ⟨a, List.mem_cons_of_mem _ before⟩
      · exact ⟨answer, List.mem_cons_self⟩
  once := by
    rw [log]
    exact ⟨(complete.custody.pending (.inl thread) call hand).2, complete.once⟩

end

/-! ## Each step -/

/-- The goroutine writes or has taken an entry. -/
def isBusy : MuxPhase → Bool
  | .writing _ => true
  | .failing _ => true
  | .taken _ _ => true
  | .stopped _ _ => true
  | _ => false

theorem not_writes (free : isBusy after = false) : ¬ Writes serial after := by
  cases after with
  | writing | failing => cases free
  | _ => exact id

theorem not_took (free : isBusy after = false) : ¬ Took cause pending after := by
  cases after with
  | taken | stopped => cases free
  | _ => exact id

theorem Shift.plain (phase : next.phase = update mux.phase thread after)
    (untouched : Untouched mux next) (registered : next.registered = mux.registered)
    (before : isCompleter (mux.phase thread) = false) (free : isBusy after = false) :
    Shift mux next thread after where
  phase := phase
  untouched := untouched
  writes _ now := absurd now (not_writes free)
  took _ _ now := absurd now (not_took free)
  context _ _ _ := watched_of_same phase (congrFun registered _) fun completes =>
    absurd completes (not_completes before)

/-- Only the surroundings change. -/
theorem Complete.outside (complete : Complete mux) (phase : next.phase = mux.phase)
    (untouched : Untouched mux next) (registered : next.registered = mux.registered)
    (silent : Silent mux next) : Complete next := by
  have moved : next.phase = update mux.phase 0 (mux.phase 0) := by
    rw [update_eq_self, phase]
  have shift : Shift mux next 0 (mux.phase 0) :=
    ⟨moved, untouched, fun _ => id, fun _ _ => id, fun _ _ _ =>
      watched_of_same moved (congrFun registered _) fun _ => rfl⟩
  exact complete.shift shift silent rfl

variable {tracked : Bool}

section Shifts
variable (before : isCompleter (mux.phase thread) = false) (free : isBusy after = false)
include before free

end Shifts

section Steps
variable (complete : Complete mux)
include complete

end Steps

end Steps

end AmneziaBox.Guarantees.MultiplexerCompletion
