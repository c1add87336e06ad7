import AmneziaBox.Library.Machine
import Mathlib.Logic.Function.Basic

/-!
# The connection pool of the DNS transports

`dns/transport/conn_pool.go`, both modes. What one hold of `access` does is one step, and
so is each call of `options.Close` and each `dial`, so that any number of goroutines
interleave as in the source. A pool state is known by its generation: `Reset` leaves the
old one to the goroutines that still point to it. Every successful dial returns a new
connection.

Events carry what the surroundings decide: whether a connection is alive, whether a dial
succeeds, fails or succeeds after one of its contexts was cancelled, whether a slot of the
semaphore was acquired. A wait ends by `done`, by the caller's context or by the state's;
each of these stays as it is once it has come, so a wait and the critical section after it
are one step. The contexts that a shared connection hands out are not read by the pool.
-/
namespace AmneziaBox.Source.Transport
open Function

inductive ConnPoolMode where
  | single | ordered
  deriving DecidableEq

/-- `connPoolState`. The map `idleElements` holds the elements of `idle`. -/
structure ConnPoolState where
  cancelled : Bool := false
  all : List Nat := []
  idle : List Nat := []
  shared : Option Nat := none
  sharedClaimed : Bool := false
  sharedUsers : Nat := 0
  sharedWaiters : Nat := 0
  connecting : Option Nat := none

/-- `connPoolConnect`: whether `done` is closed, and whether `err` is set. -/
structure ConnPoolConnect where
  done : Bool := false
  failed : Bool := false

/-- Where a goroutine is. -/
inductive PoolPhase where
  | idle
  /-- At the top of the loop of `acquireShared` or `acquireOrdered`. -/
  | entering
  /-- In the `select` of `acquireShared`. -/
  | waiting (gen connect : Nat) (startDial : Bool)
  /-- Before a call of `options.Close`; `retry` goes back to the loop. -/
  | closing (conn : Nat) (retry : Bool)
  /-- `connectSingle` in its dial. -/
  | dialing (gen connect : Nat)
  /-- `connectSingle` before it closes the connection of a cancelled dial. -/
  | discarding (gen connect conn : Nat)
  /-- `connectSingle` before its critical section; without a connection `err` is set. -/
  | dialed (gen connect : Nat) (conn : Option Nat)
  /-- `connectSingle` after it: a connection to close, then `done`. -/
  | announcing (connect : Nat) (conn : Option Nat)
  /-- `dialAndInstall` in `acquireSlot`. -/
  | slot (gen : Nat)
  /-- `dialAndInstall` in its dial. -/
  | installDial (gen : Nat)
  /-- `dialAndInstall` before its critical section. -/
  | installing (gen conn : Nat)
  /-- `closeState` before `cancel`. -/
  | cancelling (gen : Nat)
  /-- `closeState` in its loop, with the connections closed so far. -/
  | closingAll (gen : Nat) (closed : List Nat)
  deriving DecidableEq

/-- What the callers and `options.Close` see. -/
inductive PoolObservation where
  | acquired (conn : Nat) (created : Bool)
  | released (conn : Nat)
  | closed (conn : Nat)
  deriving DecidableEq

structure ConnPool where
  /-- The generation of `state`; none once the pool is closed. -/
  current : Option Nat := some 0
  states : Nat → ConnPoolState := fun _ => {}
  generations : Nat := 1
  connects : Nat → ConnPoolConnect := fun _ => {}
  nextConnect : Nat := 0
  nextConn : Nat := 0
  phase : Nat → PoolPhase := fun _ => .idle
  /-- The latest first. -/
  log : List PoolObservation := []

inductive DialResult where
  | failed | succeeded | cancelled
  deriving DecidableEq

inductive PoolEvent where
  | acquire (thread : Nat)
  | enter (thread : Nat) (alive : Bool) (dialer : Nat)
  | collect (thread : Nat) (alive : Bool)
  | leave (thread : Nat)
  | wake (thread : Nat)
  | dial (thread : Nat) (result : DialResult)
  | install (thread : Nat)
  | announce (thread : Nat)
  | slot (thread : Nat) (acquired : Bool)
  | close (thread : Nat)
  | release (thread conn : Nat) (reuse alive : Bool)
  | invalidate (thread conn : Nat)
  | closeIdle (thread : Nat)
  | reset (thread : Nat)
  | shutdown (thread : Nat)
  | cancel (thread : Nat)
  | closeNext (thread conn : Nat)
  | closeDone (thread : Nat)

namespace ConnPool

def move (pool : ConnPool) (thread : Nat) (phase : PoolPhase) : ConnPool :=
  { pool with phase := update pool.phase thread phase }

def setState (pool : ConnPool) (gen : Nat) (state : ConnPoolState) : ConnPool :=
  { pool with states := update pool.states gen state }

def observe (pool : ConnPool) (observation : PoolObservation) : ConnPool :=
  { pool with log := observation :: pool.log }

/-- A connection that some acquisition returned. -/
def handedOut (pool : ConnPool) (conn : Nat) : Bool :=
  pool.log.any fun
    | .acquired other _ => other == conn
    | _ => false

end ConnPool

/-- `removeConn`. -/
def removeConn (mode : ConnPoolMode) (state : ConnPoolState) (conn : Nat) : ConnPoolState :=
  let state := { state with all := state.all.filter (· ≠ conn) }
  match mode with
  | .single =>
    if state.shared = some conn then
      { state with shared := none, sharedClaimed := false, sharedUsers := 0 }
    else state
  | .ordered => { state with idle := state.idle.filter (· ≠ conn) }

/-- The shared connection goes to one more user; the first one gets `created`. -/
def claim (pool : ConnPool) (thread gen conn : Nat) : ConnPool :=
  let state := pool.states gen
  ((pool.setState gen
      { state with sharedClaimed := true, sharedUsers := state.sharedUsers + 1 }).observe
    (.acquired conn !state.sharedClaimed)).move thread .idle

/-- The critical section of `acquireShared`. `dialer` is the goroutine that `connectSingle`
would run in. -/
def acquireShared (pool : ConnPool) (thread gen : Nat) (alive : Bool) (dialer : Nat) :
    Option ConnPool :=
  let current := pool.states gen
  match current.shared with
  | some conn =>
    if alive then some (claim pool thread gen conn)
    else
      some ((pool.setState gen (removeConn .single current conn)).move thread
        (.closing conn true))
  | none =>
    match current.connecting with
    | some connect =>
      some ((pool.setState gen { current with sharedWaiters := current.sharedWaiters + 1 }).move
        thread (.waiting gen connect false))
    | none =>
      if dialer ≠ thread ∧ pool.phase dialer = .idle then
        let connect := pool.nextConnect
        let pool := pool.setState gen
          { current with
            connecting := some connect
            sharedWaiters := current.sharedWaiters + 1 }
        some (({ pool with nextConnect := connect + 1 }.move thread
          (.waiting gen connect true)).move dialer (.dialing gen connect))
      else none

/-- The critical section of `acquireOrdered`. -/
def acquireOrdered (pool : ConnPool) (thread gen : Nat) (alive : Bool) : ConnPool :=
  let current := pool.states gen
  match current.idle with
  | conn :: rest =>
    if alive then
      ((pool.setState gen { current with idle := rest }).observe
        (.acquired conn false)).move thread .idle
    else
      (pool.setState gen
        { current with idle := rest, all := current.all.filter (· ≠ conn) }).move thread
          (.closing conn true)
  | [] => pool.move thread (.slot gen)

/-- `collectShared`. -/
def collectShared (pool : ConnPool) (thread gen connect : Nat) (startDial alive : Bool) :
    ConnPool :=
  let state := pool.states gen
  let left := { state with sharedWaiters := state.sharedWaiters - 1 }
  let pool := pool.setState gen left
  if (pool.connects connect).failed then pool.move thread (if startDial then .idle else .entering)
  else if pool.current ≠ some gen then pool.move thread .idle
  else
    match left.shared with
    | none => pool.move thread .entering
    | some conn =>
      if alive then claim pool thread gen conn
      else
        (pool.setState gen (removeConn .single left conn)).move thread (.closing conn true)

/-- The critical section of `connectSingle`. -/
def connectSingle (pool : ConnPool) (thread gen connect : Nat) (conn : Option Nat) : ConnPool :=
  let state := { pool.states gen with connecting := none }
  match conn with
  | none =>
    let failed := { pool.connects connect with failed := true }
    { pool.setState gen state with
      connects := update pool.connects connect failed }.move thread
        (.announcing connect none)
  | some conn =>
    if pool.current = some gen then
      (pool.setState gen { state with shared := some conn, all := conn :: state.all }).move thread
        (.announcing connect none)
    else
      let failed := { pool.connects connect with failed := true }
      { pool.setState gen state with
        connects := update pool.connects connect failed }.move thread
          (.announcing connect (some conn))

/-- The critical section of `dialAndInstall`. -/
def dialAndInstall (pool : ConnPool) (thread gen conn : Nat) : ConnPool :=
  if pool.current = some gen then
    let state := pool.states gen
    ((pool.setState gen { state with all := conn :: state.all }).observe
      (.acquired conn true)).move thread .idle
  else pool.move thread (.closing conn false)

/-- The critical section of `Release`. -/
def release (mode : ConnPoolMode) (pool : ConnPool) (thread conn : Nat) (reuse alive : Bool) :
    ConnPool :=
  let pool := pool.observe (.released conn)
  match pool.current with
  | none => pool.move thread (.closing conn false)
  | some gen =>
    let state := pool.states gen
    if conn ∉ state.all then pool.move thread (.closing conn false)
    else if !reuse || !alive then
      (pool.setState gen (removeConn mode state conn)).move thread (.closing conn false)
    else
      match mode with
      | .single =>
        if state.shared = some conn ∧ state.sharedUsers > 0 then
          pool.setState gen { state with sharedUsers := state.sharedUsers - 1 }
        else pool
      | .ordered =>
        if conn ∈ state.idle then pool
        else pool.setState gen { state with idle := state.idle ++ [conn] }

/-- The critical section of `Invalidate`. -/
def invalidate (mode : ConnPoolMode) (pool : ConnPool) (thread conn : Nat) : ConnPool :=
  match pool.current with
  | none => pool.move thread (.closing conn false)
  | some gen =>
    let state := pool.states gen
    if conn ∉ state.all then pool
    else (pool.setState gen (removeConn mode state conn)).move thread (.closing conn false)

/-- The critical section of `CloseIdle`. -/
def closeIdle (mode : ConnPoolMode) (pool : ConnPool) (thread : Nat) : ConnPool :=
  match pool.current with
  | none => pool
  | some gen =>
    let state := pool.states gen
    match mode, state.shared with
    | .single, some conn =>
      if state.sharedUsers > 0 ∨ state.sharedWaiters > 0 then pool
      else (pool.setState gen (removeConn mode state conn)).move thread (.closing conn false)
    | _, _ => pool

/-- The critical section of `Reset`. -/
def reset (pool : ConnPool) (thread : Nat) : ConnPool :=
  match pool.current with
  | none => pool
  | some gen =>
    { pool with
      current := some pool.generations
      generations := pool.generations + 1 }.move thread (.cancelling gen)

/-- The critical section of `Close`. -/
def shutdown (pool : ConnPool) (thread : Nat) : ConnPool :=
  match pool.current with
  | none => pool
  | some gen => { pool with current := none }.move thread (.cancelling gen)

/-- A dial returns. -/
def dial (pool : ConnPool) (thread : Nat) (result : DialResult) : Option ConnPool :=
  let conn := pool.nextConn
  match pool.phase thread with
  | .dialing gen connect =>
    match result with
    | .failed => some (pool.move thread (.dialed gen connect none))
    | .succeeded =>
      some ({ pool with nextConn := conn + 1 }.move thread (.dialed gen connect (some conn)))
    | .cancelled =>
      some ({ pool with nextConn := conn + 1 }.move thread (.discarding gen connect conn))
  | .installDial gen =>
    match result with
    | .failed => some (pool.move thread .idle)
    | .succeeded => some ({ pool with nextConn := conn + 1 }.move thread (.installing gen conn))
    | .cancelled => some ({ pool with nextConn := conn + 1 }.move thread (.closing conn false))
  | _ => none

/-- A call of `options.Close` outside `closeState`. -/
def close (pool : ConnPool) (thread : Nat) : Option ConnPool :=
  match pool.phase thread with
  | .closing conn retry =>
    some ((pool.observe (.closed conn)).move thread (if retry then .entering else .idle))
  | .discarding gen connect conn =>
    some ((pool.observe (.closed conn)).move thread (.dialed gen connect none))
  | .announcing connect (some conn) =>
    some ((pool.observe (.closed conn)).move thread (.announcing connect none))
  | _ => none

/-- A waiter leaves without collecting. -/
def leaveWait (pool : ConnPool) (thread gen : Nat) (phase : PoolPhase) : ConnPool :=
  let state := pool.states gen
  (pool.setState gen { state with sharedWaiters := state.sharedWaiters - 1 }).move thread phase

/-- One step of the pool. A call starts in an idle goroutine. -/
def poolStep (mode : ConnPoolMode) (pool : ConnPool) : PoolEvent → Option ConnPool
  | .acquire thread =>
    match pool.phase thread with
    | .idle => some (pool.move thread .entering)
    | _ => none
  | .enter thread alive dialer =>
    match pool.phase thread, pool.current with
    | .entering, none => some (pool.move thread .idle)
    | .entering, some gen =>
      match mode with
      | .single => acquireShared pool thread gen alive dialer
      | .ordered => some (acquireOrdered pool thread gen alive)
    | _, _ => none
  | .collect thread alive =>
    match pool.phase thread with
    | .waiting gen connect startDial =>
      if (pool.connects connect).done then
        some (collectShared pool thread gen connect startDial alive)
      else none
    | _ => none
  | .leave thread =>
    match pool.phase thread with
    | .waiting gen _ _ => some (leaveWait pool thread gen .idle)
    | _ => none
  | .wake thread =>
    match pool.phase thread with
    | .waiting gen _ _ =>
      if (pool.states gen).cancelled then
        some (leaveWait pool thread gen (if pool.current.isNone then .idle else .entering))
      else none
    | _ => none
  | .dial thread result => dial pool thread result
  | .install thread =>
    match pool.phase thread with
    | .dialed gen connect conn => some (connectSingle pool thread gen connect conn)
    | .installing gen conn => some (dialAndInstall pool thread gen conn)
    | _ => none
  | .announce thread =>
    match pool.phase thread with
    | .announcing connect none =>
      let done := { pool.connects connect with done := true }
      some ({ pool with connects := update pool.connects connect done }.move thread .idle)
    | _ => none
  | .slot thread acquired =>
    match pool.phase thread with
    | .slot gen => some (pool.move thread (if acquired then .installDial gen else .idle))
    | _ => none
  | .close thread => close pool thread
  | .release thread conn reuse alive =>
    if pool.phase thread = .idle ∧ pool.handedOut conn then
      some (release mode pool thread conn reuse alive)
    else none
  | .invalidate thread conn =>
    if pool.phase thread = .idle ∧ pool.handedOut conn then
      some (invalidate mode pool thread conn)
    else none
  | .closeIdle thread =>
    if pool.phase thread = .idle then some (closeIdle mode pool thread) else none
  | .reset thread => if pool.phase thread = .idle then some (reset pool thread) else none
  | .shutdown thread => if pool.phase thread = .idle then some (shutdown pool thread) else none
  | .cancel thread =>
    match pool.phase thread with
    | .cancelling gen =>
      some ((pool.setState gen { pool.states gen with cancelled := true }).move thread
        (.closingAll gen []))
    | _ => none
  | .closeNext thread conn =>
    match pool.phase thread with
    | .closingAll gen closed =>
      if conn ∈ (pool.states gen).all ∧ conn ∉ closed then
        some ((pool.observe (.closed conn)).move thread (.closingAll gen (conn :: closed)))
      else none
    | _ => none
  | .closeDone thread =>
    match pool.phase thread with
    | .closingAll gen closed =>
      if (pool.states gen).all.all (· ∈ closed) then some (pool.move thread .idle) else none
    | _ => none

section Inversion
variable (mode : ConnPoolMode) (pool : ConnPool)

/-- What a step can do. -/
inductive PoolStep : PoolEvent → ConnPool → Prop where
  | acquire {thread} (here : pool.phase thread = .idle) :
    PoolStep (.acquire thread) (pool.move thread .entering)
  | refuse {thread alive dialer} (here : pool.phase thread = .entering) :
    PoolStep (.enter thread alive dialer) (pool.move thread .idle)
  | order {thread alive dialer gen} (here : pool.phase thread = .entering)
    (current : pool.current = some gen) (ordered : mode = .ordered) :
    PoolStep (.enter thread alive dialer) (acquireOrdered pool thread gen alive)
  | share {thread alive dialer gen next} (here : pool.phase thread = .entering)
    (current : pool.current = some gen) (single : mode = .single)
    (stepped : acquireShared pool thread gen alive dialer = some next) :
    PoolStep (.enter thread alive dialer) next
  | collect {thread alive gen connect startDial}
    (here : pool.phase thread = .waiting gen connect startDial) :
    PoolStep (.collect thread alive) (collectShared pool thread gen connect startDial alive)
  | leave {thread gen connect startDial}
    (here : pool.phase thread = .waiting gen connect startDial) :
    PoolStep (.leave thread) (leaveWait pool thread gen .idle)
  | stop {thread gen connect startDial}
    (here : pool.phase thread = .waiting gen connect startDial) :
    PoolStep (.wake thread) (leaveWait pool thread gen .idle)
  | retry {thread gen connect startDial}
    (here : pool.phase thread = .waiting gen connect startDial) :
    PoolStep (.wake thread) (leaveWait pool thread gen .entering)
  | dial {thread result next} (stepped : dial pool thread result = some next) :
    PoolStep (.dial thread result) next
  | connect {thread gen connect conn} (here : pool.phase thread = .dialed gen connect conn) :
    PoolStep (.install thread) (connectSingle pool thread gen connect conn)
  | install {thread gen conn} (here : pool.phase thread = .installing gen conn) :
    PoolStep (.install thread) (dialAndInstall pool thread gen conn)
  | announce {thread connect connects} (here : pool.phase thread = .announcing connect none) :
    PoolStep (.announce thread) ({ pool with connects := connects }.move thread .idle)
  | slot {thread acquired gen} (here : pool.phase thread = .slot gen) :
    PoolStep (.slot thread acquired) (pool.move thread (.installDial gen))
  | noSlot {thread acquired gen} (here : pool.phase thread = .slot gen) :
    PoolStep (.slot thread acquired) (pool.move thread .idle)
  | close {thread next} (stepped : close pool thread = some next) : PoolStep (.close thread) next
  | release {thread conn reuse alive}
    (allowed : pool.phase thread = .idle ∧ pool.handedOut conn = true) :
    PoolStep (.release thread conn reuse alive) (release mode pool thread conn reuse alive)
  | invalidate {thread conn}
    (allowed : pool.phase thread = .idle ∧ pool.handedOut conn = true) :
    PoolStep (.invalidate thread conn) (invalidate mode pool thread conn)
  | closeIdle {thread} (here : pool.phase thread = .idle) :
    PoolStep (.closeIdle thread) (closeIdle mode pool thread)
  | reset {thread} (here : pool.phase thread = .idle) :
    PoolStep (.reset thread) (reset pool thread)
  | shutdown {thread} (here : pool.phase thread = .idle) :
    PoolStep (.shutdown thread) (shutdown pool thread)
  | cancel {thread gen} (here : pool.phase thread = .cancelling gen) :
    PoolStep (.cancel thread) ((pool.setState gen
      { pool.states gen with cancelled := true }).move thread (.closingAll gen []))
  | closeNext {thread conn gen closed} (here : pool.phase thread = .closingAll gen closed)
    (left : conn ∈ (pool.states gen).all ∧ conn ∉ closed) :
    PoolStep (.closeNext thread conn)
      ((pool.observe (.closed conn)).move thread (.closingAll gen (conn :: closed)))
  | closeDone {thread gen closed} (here : pool.phase thread = .closingAll gen closed)
    (done : (pool.states gen).all.all (· ∈ closed) = true) :
    PoolStep (.closeDone thread) (pool.move thread .idle)

variable {mode pool}

theorem PoolStep.of_eq {event : PoolEvent} {next : ConnPool}
    (stepped : poolStep mode pool event = some next) : PoolStep mode pool event next := by
  cases event with
  | dial thread result => exact .dial stepped
  | close thread => exact .close stepped
  | _ =>
    unfold poolStep at stepped
    dsimp only at stepped
    repeat' split at stepped
    all_goals try cases stepped
    all_goals constructor <;> first | assumption | rfl

end Inversion

def poolExec (mode : ConnPoolMode) (events : List PoolEvent) : Option ConnPool :=
  Library.run (poolStep mode) {} events

end AmneziaBox.Source.Transport
