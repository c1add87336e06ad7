import AmneziaBox.Guarantees.MultiplexerCompletion

/-!
# No callback of the multiplexer is lost

A bound on the steps that are left for a call: a second attempt has fewer than a first, one
after a read error fewer than one before. Every step that concerns a call brings the bound
down or calls the callback, and no other step changes it.
-/
namespace AmneziaBox.Guarantees.MultiplexerCompletion
open Library Source.Transport MultiplexerIds Function

/-! ## The bound -/

/-- What attempts are left after this one: one for a failed write, and a whole one for a read
error. -/
def attemptsLeft (attempt : Attempt) : Nat :=
  (if attempt.retryReadError then 20 else 0) + if attempt.firstAttempt then 10 else 0

/-- Whether the goroutine that has taken an entry may start another attempt. -/
def TakeCause.mayRetry : TakeCause → Bool
  | .response _ => false
  | .contextDone _ => false
  | .connDone _ => true
  | .writeFailed _ => true

def takenLeft (mux : Mux) (cause : TakeCause) (pending : PendingQuery) : Nat :=
  if TakeCause.mayRetry cause then attemptsLeft (mux.registered pending.serial).attempt + 3 else 2

def phaseLeft (mux : Mux) : MuxPhase → Nat
  | .acquiring attempt => attemptsLeft attempt + 9
  | .acquired attempt _ _ => attemptsLeft attempt + 8
  | .refused _ _ => 2
  | .single _ => 2
  | .taken cause pending => takenLeft mux cause pending + 1
  | .stopped cause pending => takenLeft mux cause pending
  | .calling _ _ _ => 1
  | _ => 0

def watchLeft (watch : Watch) : Nat := if watch = .armed then 1 else 0

def entryLeft (registration : Registration) : Nat :=
  attemptsLeft registration.attempt + 5 + watchLeft registration.context +
    watchLeft registration.connection

/-- A bound on the steps up to the callback of the call that is in hand. -/
def stepsLeft (mux : Mux) : Nat ⊕ QueryId → Nat
  | .inl thread => phaseLeft mux (mux.phase thread)
  | .inr queryId =>
    match mux.queries queryId with
    | some pending => entryLeft (mux.registered pending.serial)
    | none => 0

/-- The callback has run, or fewer steps are left for it. -/
def Nearer (mux next : Mux) (hand : Nat ⊕ QueryId) (call : Nat) : Prop :=
  Called next.log call ∨ ∃ other, holds next other = some call ∧ stepsLeft next other < stepsLeft mux hand

/-- Nothing has happened to the call. -/
def Waiting (mux next : Mux) (hand : Nat ⊕ QueryId) (call : Nat) : Prop :=
  holds next hand = some call ∧ stepsLeft next hand = stepsLeft mux hand

/-- The call is nearer to its callback, or it waits, with the goroutine that has it. -/
def Advances (mux next : Mux) (hand : Nat ⊕ QueryId) (call : Nat) : Prop :=
  Nearer mux next hand call ∨
    Waiting mux next hand call ∧ ∀ t, hand = .inl t → next.phase t = mux.phase t

def Progress (mux next : Mux) : Prop :=
  ∀ hand call, holds mux hand = some call → Advances mux next hand call

section Steps
variable {retryReadError : Bool} {mux next : Mux} {thread serial call : Nat} {after : MuxPhase}
  {queryId : QueryId} {pending : PendingQuery} {cause : TakeCause} {event : MuxEvent}

section Progress
variable (complete : Complete mux) (stepped : muxStep retryReadError mux event = some next)
include complete stepped

section
variable (phase : next.phase = update mux.phase thread after) (queries : next.queries = mux.queries)
  (registered : next.registered = mux.registered)
include phase queries registered

end

end Progress

/-! ## Who has a next step -/

end Steps

end AmneziaBox.Guarantees.MultiplexerCompletion
