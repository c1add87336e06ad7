import AmneziaBox.Library.CyclicIds
import AmneziaBox.Library.Machine
import Mathlib.Logic.Function.Basic

/-!
# The query multiplexer of the DNS transports

`dns/transport/multiplexer.go`: `dispatch`, `exchangeAsync`, `register`, the completers and
`recvLoop`. What one hold of `queryAccess` does is one step, and so is each blocking call and
each call of a callback. A function given to `context.AfterFunc` runs in a goroutine of its
own once the context has ended, unless it was stopped before; `take` deletes the entry in one
step and stops both functions in another.

Events carry what the surroundings decide: what `AcquireShared` returns, whether a write
succeeds, which identifier a message carries, when a context ends, whether the pool still
tracks a connection that is invalidated, and whether `dispatch` takes the way of
`exchangeSingle`. The context of a connection may be cancelled at any time, as `Reset`,
`Close`, `CloseIdle` and the other users of the pool do. A callback is known by its call, and
so are the message and the context of the call; the identifier that `complete` restores in a
response is the one of the message.
-/
namespace AmneziaBox.Source.Transport
open Function

abbrev QueryId := BitVec 16

/-- The arguments of `exchangeAsync`, and `firstAttempt` of its loop. -/
structure Attempt where
  call : Nat
  retryReadError : Bool
  firstAttempt : Bool
  deriving DecidableEq

/-- `pendingQuery`. The serial of the registration stands for the two stop functions. -/
structure PendingQuery where
  call : Nat
  conn : Nat
  readEpoch : Nat
  /-- `retryCtx` is set. -/
  retry : Bool
  serial : Nat
  deriving DecidableEq

/-- A function given to `context.AfterFunc`. -/
inductive Watch where
  | armed | fired | stopped
  deriving DecidableEq

def Watch.stop : Watch → Watch
  | .armed => .stopped
  | watch => watch

/-- What `register` was called with, the identifier it chose, and the functions that it gave
to `context.AfterFunc`. -/
structure Registration where
  attempt : Attempt
  conn : Nat
  created : Bool
  queryId : QueryId
  context : Watch := .armed
  connection : Watch := .armed

/-- Why an entry is taken. -/
inductive TakeCause where
  /-- The receive loop of the connection has a message. -/
  | response (conn : Nat)
  | contextDone (serial : Nat)
  | connDone (serial : Nat)
  | writeFailed (serial : Nat)
  deriving DecidableEq

/-- What a callback gets. -/
inductive Answer where
  | response (conn : Nat)
  | acquireError | noQueryId | writeError | contextError | connError
  /-- The result of `exchangeSingle`. -/
  | single
  deriving DecidableEq

/-- Where a goroutine is. The locals of `exchangeAsync` after `register`, and what the
functions given to `context.AfterFunc` refer to, are those of the registration. -/
inductive MuxPhase where
  | idle
  /-- `exchangeAsync` in `AcquireShared`. -/
  | acquiring (attempt : Attempt)
  /-- `exchangeAsync` before `register`. -/
  | acquired (attempt : Attempt) (conn : Nat) (created : Bool)
  /-- `exchangeAsync` after `register` has failed. -/
  | refused (attempt : Attempt) (conn : Nat)
  /-- `exchangeAsync` in its write. -/
  | writing (serial : Nat)
  /-- The write has failed, before `take`. -/
  | failing (serial : Nat)
  /-- The write has failed and nothing was taken, before `Invalidate`. -/
  | invalidating (serial : Nat)
  | single (call : Nat)
  /-- `completeContextDone` before `take`. -/
  | contextDone (serial : Nat)
  /-- `completeConnDone` before `take`. -/
  | connDone (serial : Nat)
  /-- `recvLoop` in `readNext`. -/
  | reading (conn : Nat)
  /-- `recvLoop` with a message, before `take`. -/
  | received (conn : Nat) (queryId : QueryId)
  /-- In `take`, after the entry was deleted. -/
  | taken (cause : TakeCause) (pending : PendingQuery)
  /-- After `take`. -/
  | stopped (cause : TakeCause) (pending : PendingQuery)
  /-- Before the callback; `recvLoop` then goes on with its connection. -/
  | calling (call : Nat) (answer : Answer) (loop : Option Nat)
  deriving DecidableEq

inductive MuxObservation where
  | registered (serial : Nat) (queryId : QueryId)
  | taken (serial : Nat) (queryId : QueryId) (cause : TakeCause)
  | released (conn : Nat)
  | invalidated (conn : Nat)
  | callback (call : Nat) (answer : Answer)
  deriving DecidableEq

structure Mux where
  queryId : QueryId := 0
  queries : QueryId → Option PendingQuery := fun _ => none
  registered : Nat → Registration := fun _ => ⟨⟨0, false, false⟩, 0, false, 0, .stopped, .stopped⟩
  registrations : Nat := 0
  nextCall : Nat := 0
  /-- The contexts of the calls that have ended, and whether by their deadline. -/
  contextEnded : Nat → Option Bool := fun _ => none
  /-- The connections whose context was cancelled, and whether for a read error. -/
  connCause : Nat → Option Bool := fun _ => none
  readEpoch : Nat → Nat := fun _ => 0
  phase : Nat → MuxPhase := fun _ => .idle
  /-- The latest first. -/
  log : List MuxObservation := []

inductive MuxEvent where
  | exchange (thread : Nat) (single : Bool)
  | acquire (thread conn : Nat) (created : Bool) (loop : Nat)
  | acquireFailed (thread : Nat)
  | register (thread : Nat)
  | refuse (thread : Nat)
  | written (thread : Nat)
  | writeFailed (thread : Nat)
  | take (thread : Nat)
  | stop (thread : Nat)
  | settle (thread : Nat) (tracked single : Bool)
  | invalidate (thread : Nat) (tracked : Bool)
  | callback (thread : Nat)
  | singleDone (thread : Nat)
  | fireContext (serial thread : Nat)
  | fireConn (serial thread : Nat)
  | read (thread : Nat) (queryId : Option QueryId)
  | readFailed (thread : Nat) (tracked : Bool)
  | endContext (call : Nat) (deadline : Bool)
  | cancelConn (conn : Nat) (readFailed : Bool)

namespace Mux

def move (mux : Mux) (thread : Nat) (phase : MuxPhase) : Mux :=
  { mux with phase := update mux.phase thread phase }

def observe (mux : Mux) (observation : MuxObservation) : Mux :=
  { mux with log := observation :: mux.log }

/-- The context of a connection keeps its first cause. -/
def cancel (mux : Mux) (conn : Nat) (readFailed : Bool) : Mux :=
  { mux with
    connCause := update mux.connCause conn ((mux.connCause conn).or (some readFailed)) }

/-- `Invalidate` of the pool cancels the context of a connection that it tracks. -/
def invalidate (mux : Mux) (conn : Nat) (readFailed tracked : Bool) : Mux :=
  (if tracked then mux.cancel conn readFailed else mux).observe (.invalidated conn)

end Mux

/-- How the loop of `register` ends. -/
inductive Search where
  | found (queryId : QueryId)
  /-- "no available query ID" -/
  | exhausted
  /-- It has not, after these rounds. -/
  | running
  deriving DecidableEq

/-- The loop of `register`. -/
def nextQueryId (queries : QueryId → Option PendingQuery) (start : QueryId) :
    Nat → QueryId → Search
  | 0, _ => .running
  | rounds + 1, queryId =>
    let queryId := queryId + 1
    if (queries queryId).isNone then .found queryId
    else if queryId = start then .exhausted
    else nextQueryId queries start rounds queryId

/-- `dispatch`. -/
def dispatch (mux : Mux) (thread call : Nat) (retryReadError single : Bool) : Mux :=
  if single then mux.move thread (.single call)
  else mux.move thread (.acquiring ⟨call, retryReadError, true⟩)

/-- `register`; `m.options.retryReadError` is a parameter. There are as many rounds as
identifiers; a loop that goes on would stay where it is. -/
def register (retryReadError : Bool) (mux : Mux) (thread : Nat) (attempt : Attempt) (conn : Nat)
    (created : Bool) : Mux :=
  match nextQueryId mux.queries mux.queryId (2 ^ 16) mux.queryId with
  | .running => mux
  | .exhausted => mux.move thread (.refused attempt conn)
  | .found queryId =>
    let serial := mux.registrations
    let pending : PendingQuery :=
      { call := attempt.call
        conn := conn
        readEpoch := mux.readEpoch conn
        retry := attempt.retryReadError && retryReadError && !created
        serial := serial }
    let registration : Registration :=
      { attempt := attempt
        conn := conn
        created := created
        queryId := queryId }
    ({ mux with
      queryId := queryId
      queries := update mux.queries queryId (some pending)
      registered := update mux.registered serial registration
      registrations := serial + 1 }.observe (.registered serial queryId)).move thread
        (.writing serial)

/-- `take`, up to the end of its critical section. -/
def takeEntry (mux : Mux) (thread : Nat) (queryId : QueryId) (cause : TakeCause)
    (otherwise : MuxPhase) : Mux :=
  match mux.queries queryId with
  | none => mux.move thread otherwise
  | some pending =>
    ({ mux with queries := update mux.queries queryId none }.observe
      (.taken pending.serial queryId cause)).move thread (.taken cause pending)

/-- Who calls `take`, with which identifier. -/
def take (mux : Mux) (thread : Nat) : Option Mux :=
  match mux.phase thread with
  | .failing serial =>
    some (takeEntry mux thread (mux.registered serial).queryId (.writeFailed serial)
      (.invalidating serial))
  | .contextDone serial =>
    some (takeEntry mux thread (mux.registered serial).queryId (.contextDone serial) .idle)
  | .connDone serial =>
    some (takeEntry mux thread (mux.registered serial).queryId (.connDone serial) .idle)
  | .received conn queryId =>
    some (takeEntry mux thread queryId (.response conn) (.reading conn))
  | _ => none

/-- The end of `take`. -/
def stopWatches (mux : Mux) (serial : Nat) : Mux :=
  let registration := mux.registered serial
  { mux with
    registered := update mux.registered serial
      { registration with
        context := registration.context.stop
        connection := registration.connection.stop } }

/-- What the goroutine that has taken an entry does up to the callback. -/
def settle (mux : Mux) (thread : Nat) (cause : TakeCause) (pending : PendingQuery)
    (tracked single : Bool) : Mux :=
  match cause with
  | .response conn =>
    (mux.observe (.released pending.conn)).move thread
      (.calling pending.call (.response conn) (some conn))
  | .contextDone serial =>
    let deadline := mux.contextEnded (mux.registered serial).attempt.call = some true
    let mux :=
      if deadline ∧ mux.readEpoch pending.conn = pending.readEpoch then
        mux.invalidate pending.conn false tracked
      else mux.observe (.released pending.conn)
    mux.move thread (.calling pending.call .contextError none)
  | .connDone serial =>
    let readFailed := mux.connCause (mux.registered serial).conn = some true
    if pending.retry ∧ readFailed then dispatch mux thread pending.call false single
    else mux.move thread (.calling pending.call .connError none)
  | .writeFailed serial =>
    let registration := mux.registered serial
    let mux := mux.invalidate registration.conn false tracked
    if !registration.created && registration.attempt.firstAttempt then
      mux.move thread (.acquiring { registration.attempt with firstAttempt := false })
    else mux.move thread (.calling registration.attempt.call .writeError none)

/-- One step of the multiplexer. -/
def muxStep (retryReadError : Bool) (mux : Mux) : MuxEvent → Option Mux
  | .exchange thread single =>
    match mux.phase thread with
    | .idle =>
      some (dispatch { mux with nextCall := mux.nextCall + 1 } thread mux.nextCall true single)
    | _ => none
  | .acquire thread conn created loop =>
    match mux.phase thread with
    | .acquiring attempt =>
      let next := mux.move thread (.acquired attempt conn created)
      if created then
        if loop ≠ thread ∧ mux.phase loop = .idle then some (next.move loop (.reading conn))
        else none
      else some next
    | _ => none
  | .acquireFailed thread =>
    match mux.phase thread with
    | .acquiring attempt => some (mux.move thread (.calling attempt.call .acquireError none))
    | _ => none
  | .register thread =>
    match mux.phase thread with
    | .acquired attempt conn created =>
      some (register retryReadError mux thread attempt conn created)
    | _ => none
  | .refuse thread =>
    match mux.phase thread with
    | .refused attempt conn =>
      some ((mux.observe (.released conn)).move thread (.calling attempt.call .noQueryId none))
    | _ => none
  | .written thread =>
    match mux.phase thread with
    | .writing _ => some (mux.move thread .idle)
    | _ => none
  | .writeFailed thread =>
    match mux.phase thread with
    | .writing serial => some (mux.move thread (.failing serial))
    | _ => none
  | .take thread => take mux thread
  | .stop thread =>
    match mux.phase thread with
    | .taken cause pending =>
      some ((stopWatches mux pending.serial).move thread (.stopped cause pending))
    | _ => none
  | .settle thread tracked single =>
    match mux.phase thread with
    | .stopped cause pending => some (settle mux thread cause pending tracked single)
    | _ => none
  | .invalidate thread tracked =>
    match mux.phase thread with
    | .invalidating serial =>
      some ((mux.invalidate (mux.registered serial).conn false tracked).move thread .idle)
    | _ => none
  | .callback thread =>
    match mux.phase thread with
    | .calling call answer loop =>
      some ((mux.observe (.callback call answer)).move thread
        (match loop with
          | some conn => .reading conn
          | none => .idle))
    | _ => none
  | .singleDone thread =>
    match mux.phase thread with
    | .single call => some (mux.move thread (.calling call .single none))
    | _ => none
  | .fireContext serial thread =>
    let registration := mux.registered serial
    if registration.context = .armed ∧ (mux.contextEnded registration.attempt.call).isSome ∧
        mux.phase thread = .idle then
      some ({ mux with
        registered := update mux.registered serial
          { registration with context := .fired } }.move thread (.contextDone serial))
    else none
  | .fireConn serial thread =>
    let registration := mux.registered serial
    if registration.connection = .armed ∧ (mux.connCause registration.conn).isSome ∧
        mux.phase thread = .idle then
      some ({ mux with
        registered := update mux.registered serial
          { registration with connection := .fired } }.move thread (.connDone serial))
    else none
  | .read thread queryId =>
    match mux.phase thread with
    | .reading conn =>
      let epochs := update mux.readEpoch conn (mux.readEpoch conn + 1)
      some ({ mux with readEpoch := epochs }.move thread
        (match queryId with
          | some queryId => .received conn queryId
          | none => .reading conn))
    | _ => none
  | .readFailed thread tracked =>
    match mux.phase thread with
    | .reading conn => some ((mux.invalidate conn true tracked).move thread .idle)
    | _ => none
  | .endContext call deadline =>
    if call < mux.nextCall ∧ mux.contextEnded call = none then
      some { mux with contextEnded := update mux.contextEnded call (some deadline) }
    else none
  | .cancelConn conn readFailed => some (mux.cancel conn readFailed)

def muxExec (retryReadError : Bool) (events : List MuxEvent) : Option Mux :=
  Library.run (muxStep retryReadError) {} events

end AmneziaBox.Source.Transport
