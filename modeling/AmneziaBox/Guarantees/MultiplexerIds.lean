import AmneziaBox.Source.Transport.Multiplexer

/-!
# Identifiers of the multiplexer

`register` gives out the identifiers in turn and passes over those in the map, so that the
identifier of a query comes back only when every other one has been in use since the query
was registered. As long as fewer queries than there are identifiers were registered at some
time since then, an entry under the identifier is the query's own.
-/
namespace AmneziaBox.Guarantees.MultiplexerIds
open Library Source.Transport Function Option BitVec List

/-! ## The loop of `register` -/

theorem add_one_add_ofNat (queryId : QueryId) (i : Nat) :
    queryId + 1 + BitVec.ofNat 16 i = queryId + BitVec.ofNat 16 (i + 1) := by
  rw [add_assoc, add_comm 1, ofNat_add]
  rfl

variable {queries : QueryId → Option PendingQuery}

theorem isSome_of_busy {queryId : QueryId} (busy : ¬(queries queryId).isNone = true) :
    (queries queryId).isSome = true :=
  ne_none_iff_isSome.mp fun none => busy (isNone_iff_eq_none.mpr none)

theorem nextQueryId_spec {start queryId found : QueryId} {rounds : Nat}
    (searched : nextQueryId queries start rounds queryId = .found found) :
    ∃ k, 0 < k ∧ found = queryId + BitVec.ofNat 16 k ∧ queries found = none ∧
      ∀ i, 0 < i → i < k → (queries (queryId + BitVec.ofNat 16 i)).isSome = true := by
  induction rounds generalizing queryId with
  | zero => cases searched
  | succ rounds ih =>
    unfold nextQueryId at searched
    dsimp only at searched
    split at searched
    · next free =>
      cases searched
      exact ⟨1, Nat.one_pos, rfl, isNone_iff_eq_none.mp free, fun i low high => by omega⟩
    · next busy =>
      split at searched
      · cases searched
      · obtain ⟨k, positive, rfl, none, passed⟩ := ih searched
        refine ⟨k + 1, Nat.succ_pos k, add_one_add_ofNat queryId k, none, fun i low high => ?_⟩
        obtain ⟨j, rfl⟩ : ∃ j, i = j + 1 := ⟨i - 1, by omega⟩
        rw [← add_one_add_ofNat]
        rcases Nat.eq_zero_or_pos j with rfl | positive
        · rw [BitVec.add_zero]
          exact isSome_of_busy busy
        · exact passed j positive (by omega)

/-- A search that fails has passed over the identifiers up to the one it started from. -/
theorem nextQueryId_passed {start queryId : QueryId} {rounds : Nat}
    (failed : nextQueryId queries start rounds queryId = .exhausted) (i : Nat)
    (before : ∀ j < i, queryId + BitVec.ofNat 16 (j + 1) ≠ start) :
    (queries (queryId + BitVec.ofNat 16 (i + 1))).isSome = true := by
  induction rounds generalizing queryId i with
  | zero => cases failed
  | succ rounds ih =>
    unfold nextQueryId at failed
    dsimp only at failed
    split at failed
    · cases failed
    · next busy =>
      cases i with
      | zero => exact isSome_of_busy busy
      | succ i =>
        rw [if_neg (show queryId + 1 ≠ start from before 0 (Nat.succ_pos i))] at failed
        rw [← add_one_add_ofNat]
        refine ih failed i fun j below => ?_
        rw [add_one_add_ofNat]
        exact before (j + 1) (by omega)

/-- It fails only when every identifier is in use. -/
theorem nextQueryId_exhausted {start : QueryId} {rounds : Nat}
    (failed : nextQueryId queries start rounds start = .exhausted) (queryId : QueryId) :
    (queries queryId).isSome = true := by
  -- the identifier is met in one of the rounds, and the start in none before it
  have place : start + BitVec.ofNat 16 ((queryId - start - 1).toNat + 1) = queryId := by
    rw [BitVec.ofNat_add, BitVec.ofNat_toNat, BitVec.setWidth_eq]
    bv_omega
  rw [← place]
  refine nextQueryId_passed failed _ fun j below around => ?_
  have := (queryId - start - 1).isLt
  bv_omega

/-- The loop stops at its start, at the latest. -/
theorem nextQueryId_ends {start queryId : QueryId} (rounds : Nat)
    (around : queryId + BitVec.ofNat 16 (rounds + 1) = start) :
    nextQueryId queries start (rounds + 1) queryId ≠ .running := by
  induction rounds generalizing queryId with
  | zero =>
    have back : queryId + 1 = start := around
    simp only [nextQueryId, if_pos back]
    split <;> nofun
  | succ rounds ih =>
    rw [← add_one_add_ofNat] at around
    unfold nextQueryId
    dsimp only
    split
    · nofun
    · split
      · nofun
      · exact ih around

/-- After as many rounds as there are identifiers it is back there. -/
theorem nextQueryId_returns (queries : QueryId → Option PendingQuery) (start : QueryId) :
    nextQueryId queries start (2 ^ 16) start ≠ .running :=
  nextQueryId_ends 65535 (BitVec.add_zero start)

/-! ## What a step does -/

/-- The entry that `register` makes. -/
def entryOf (retryReadError : Bool) (mux : Mux) (attempt : Attempt) (conn : Nat)
    (created : Bool) : PendingQuery where
  call := attempt.call
  conn := conn
  readEpoch := mux.readEpoch conn
  retry := attempt.retryReadError && retryReadError && !created
  serial := mux.registrations

/-- `register` with the identifier that it has found. -/
def enter (retryReadError : Bool) (mux : Mux) (thread : Nat) (attempt : Attempt) (conn : Nat)
    (created : Bool) (queryId : QueryId) : Mux :=
  ({ mux with
    queryId := queryId
    queries := update mux.queries queryId (some (entryOf retryReadError mux attempt conn created))
    registered := update mux.registered mux.registrations
      ⟨attempt, conn, created, queryId, .armed, .armed⟩
    registrations := mux.registrations + 1 }.observe (.registered mux.registrations queryId)).move
      thread (.writing mux.registrations)

/-- `take` with the entry that it has found. -/
def takeOut (mux : Mux) (thread : Nat) (queryId : QueryId) (cause : TakeCause)
    (pending : PendingQuery) : Mux :=
  ({ mux with queries := update mux.queries queryId none }.observe
    (.taken pending.serial queryId cause)).move thread (.taken cause pending)

/-- Where `dispatch` leaves a goroutine. -/
inductive Starts (call : Nat) (retryReadError : Bool) : MuxPhase → Prop
  | single : Starts call retryReadError (.single call)
  | pooled : Starts call retryReadError (.acquiring ⟨call, retryReadError, true⟩)

section Moves
variable (retryReadError : Bool) (mux : Mux)

/-- With which identifier and why a goroutine is about to call `take`, and where it goes without
an entry. -/
inductive Asks (thread : Nat) : QueryId → TakeCause → MuxPhase → Prop
  | writeFailed {serial} (here : mux.phase thread = .failing serial) :
      Asks thread (mux.registered serial).queryId (.writeFailed serial) (.invalidating serial)
  | contextDone {serial} (here : mux.phase thread = .contextDone serial) :
      Asks thread (mux.registered serial).queryId (.contextDone serial) .idle
  | connDone {serial} (here : mux.phase thread = .connDone serial) :
      Asks thread (mux.registered serial).queryId (.connDone serial) .idle
  | response {conn queryId} (here : mux.phase thread = .received conn queryId) :
      Asks thread queryId (.response conn) (.reading conn)

/-- What a goroutine does with the entry that it has taken, and where it goes. -/
inductive Settles (pending : PendingQuery) : TakeCause → Mux → MuxPhase → Prop
  | response {conn} : Settles pending (.response conn) (mux.observe (.released pending.conn))
      (.calling pending.call (.response conn) (some conn))
  | expired {serial tracked} : Settles pending (.contextDone serial)
      (mux.invalidate pending.conn false tracked) (.calling pending.call .contextError none)
  | cancelled {serial} : Settles pending (.contextDone serial)
      (mux.observe (.released pending.conn)) (.calling pending.call .contextError none)
  | retried {serial phase} (again : pending.retry = true)
      (starts : Starts pending.call false phase) : Settles pending (.connDone serial) mux phase
  | broken {serial} : Settles pending (.connDone serial) mux (.calling pending.call .connError none)
  | rewritten {serial tracked} (first : (mux.registered serial).attempt.firstAttempt = true) :
      Settles pending (.writeFailed serial)
        (mux.invalidate (mux.registered serial).conn false tracked)
        (.acquiring { (mux.registered serial).attempt with firstAttempt := false })
  | unwritten {serial tracked} : Settles pending (.writeFailed serial)
      (mux.invalidate (mux.registered serial).conn false tracked)
      (.calling (mux.registered serial).attempt.call .writeError none)

/-- What can happen in one step, and where the goroutine is that it happens to. -/
inductive Moves : MuxEvent → Mux → Prop
  | exchange {thread single phase} (here : mux.phase thread = .idle)
      (starts : Starts mux.nextCall true phase) :
      Moves (.exchange thread single) ({ mux with nextCall := mux.nextCall + 1 }.move thread phase)
  | create {thread conn loop attempt} (here : mux.phase thread = .acquiring attempt)
      (start : loop ≠ thread ∧ mux.phase loop = .idle) :
      Moves (.acquire thread conn true loop)
        ((mux.move thread (.acquired attempt conn true)).move loop (.reading conn))
  | acquire {thread conn loop attempt} (here : mux.phase thread = .acquiring attempt) :
      Moves (.acquire thread conn false loop) (mux.move thread (.acquired attempt conn false))
  | acquireFailed {thread attempt} (here : mux.phase thread = .acquiring attempt) :
      Moves (.acquireFailed thread) (mux.move thread (.calling attempt.call .acquireError none))
  | exhausted {thread attempt conn created}
      (here : mux.phase thread = .acquired attempt conn created) :
      Moves (.register thread) (mux.move thread (.refused attempt conn))
  | register {thread attempt conn created queryId}
      (here : mux.phase thread = .acquired attempt conn created)
      (searched : nextQueryId mux.queries mux.queryId (2 ^ 16) mux.queryId = .found queryId) :
      Moves (.register thread) (enter retryReadError mux thread attempt conn created queryId)
  | refuse {thread attempt conn} (here : mux.phase thread = .refused attempt conn) :
      Moves (.refuse thread)
        ((mux.observe (.released conn)).move thread (.calling attempt.call .noQueryId none))
  | written {thread serial} (here : mux.phase thread = .writing serial) :
      Moves (.written thread) (mux.move thread .idle)
  | writeFailed {thread serial} (here : mux.phase thread = .writing serial) :
      Moves (.writeFailed thread) (mux.move thread (.failing serial))
  | take {thread queryId cause otherwise pending} (asks : Asks mux thread queryId cause otherwise)
      (found : mux.queries queryId = some pending) :
      Moves (.take thread) (takeOut mux thread queryId cause pending)
  | missed {thread queryId cause otherwise} (asks : Asks mux thread queryId cause otherwise)
      (absent : mux.queries queryId = none) : Moves (.take thread) (mux.move thread otherwise)
  | stop {thread cause pending} (here : mux.phase thread = .taken cause pending) :
      Moves (.stop thread) ((stopWatches mux pending.serial).move thread (.stopped cause pending))
  | settle {thread tracked single cause pending mid after}
      (here : mux.phase thread = .stopped cause pending)
      (settles : Settles mux pending cause mid after) :
      Moves (.settle thread tracked single) (mid.move thread after)
  | invalidate {thread serial tracked} (here : mux.phase thread = .invalidating serial) :
      Moves (.invalidate thread tracked)
        ((mux.invalidate (mux.registered serial).conn false tracked).move thread .idle)
  | callback {thread call answer} (loop : Option Nat)
      (here : mux.phase thread = .calling call answer loop) :
      Moves (.callback thread)
        ((mux.observe (.callback call answer)).move thread (loop.elim .idle .reading))
  | singleDone {thread call} (here : mux.phase thread = .single call) :
      Moves (.singleDone thread) (mux.move thread (.calling call .single none))
  | fireContext {serial thread} (armed : (mux.registered serial).context = .armed)
      (here : mux.phase thread = .idle) :
      Moves (.fireContext serial thread)
        ({ mux with
          registered := update mux.registered serial
            { mux.registered serial with context := .fired } }.move thread (.contextDone serial))
  | fireConn {serial thread} (armed : (mux.registered serial).connection = .armed)
      (here : mux.phase thread = .idle) :
      Moves (.fireConn serial thread)
        ({ mux with
          registered := update mux.registered serial
            { mux.registered serial with connection := .fired } }.move thread (.connDone serial))
  | read {thread conn} (queryId : Option QueryId) {epochs}
      (here : mux.phase thread = .reading conn) :
      Moves (.read thread queryId)
        ({ mux with readEpoch := epochs }.move thread
          (queryId.elim (.reading conn) (.received conn)))
  | readFailed {thread conn tracked} (here : mux.phase thread = .reading conn) :
      Moves (.readFailed thread tracked) ((mux.invalidate conn true tracked).move thread .idle)
  | endContext {call deadline ended} :
      Moves (.endContext call deadline) { mux with contextEnded := ended }
  | cancelConn {conn readFailed} :
      Moves (.cancelConn conn readFailed) (mux.cancel conn readFailed)

end Moves

theorem muxStep_moves {retryReadError : Bool} {mux next : Mux} {event : MuxEvent}
    (stepped : muxStep retryReadError mux event = some next) :
    Moves retryReadError mux event next := by
  have taken : ∀ {thread queryId cause otherwise}, Asks mux thread queryId cause otherwise →
      Moves retryReadError mux (.take thread) (takeEntry mux thread queryId cause otherwise) := by
    intro thread queryId cause otherwise asks
    unfold takeEntry
    split
    · next absent => exact .missed asks absent
    · next found => exact .take asks found
  unfold muxStep at stepped
  cases event with
  | exchange thread single =>
    dsimp only at stepped
    split at stepped
    · next here =>
      cases stepped
      unfold dispatch
      split
      · exact .exchange here .single
      · exact .exchange here .pooled
    · cases stepped
  | acquire thread conn created loop =>
    dsimp only at stepped
    split at stepped
    · next here =>
      cases created with
      | false => exact some.inj stepped ▸ .acquire here
      | true =>
        obtain ⟨start, same⟩ := ite_none_right_eq_some.mp stepped
        exact some.inj same ▸ .create here start
    · cases stepped
  | register thread =>
    dsimp only at stepped
    split at stepped
    · next here =>
      cases stepped
      unfold register
      split
      · next goesOn => exact absurd goesOn (nextQueryId_returns mux.queries mux.queryId)
      · exact .exhausted here
      · next searched => exact .register here searched
    · cases stepped
  | take thread =>
    dsimp only [Source.Transport.take] at stepped
    split at stepped
    · next here => exact some.inj stepped ▸ taken (.writeFailed here)
    · next here => exact some.inj stepped ▸ taken (.contextDone here)
    · next here => exact some.inj stepped ▸ taken (.connDone here)
    · next here => exact some.inj stepped ▸ taken (.response here)
    · cases stepped
  | settle thread tracked single =>
    dsimp only at stepped
    split at stepped
    · next here =>
      cases stepped
      unfold settle dispatch
      split
      · exact .settle here .response
      · dsimp only
        split
        · exact .settle here .expired
        · exact .settle here .cancelled
      · dsimp only
        split
        · next again =>
          split
          · exact .settle here (.retried again.1 .single)
          · exact .settle here (.retried again.1 .pooled)
        · exact .settle here .broken
      · dsimp only
        split
        · next again => exact .settle here (.rewritten (Bool.and_eq_true_iff.mp again).2)
        · exact .settle here .unwritten
    · cases stepped
  | callback thread =>
    dsimp only at stepped
    split at stepped
    · next loop here =>
      cases stepped
      cases loop with
      | none => exact .callback none here
      | some conn => exact .callback (some conn) here
    · cases stepped
  | read thread queryId =>
    dsimp only at stepped
    split at stepped
    · next here =>
      cases stepped
      cases queryId with
      | none => exact .read none here
      | some queryId => exact .read (some queryId) here
    · cases stepped
  | fireContext serial thread =>
    obtain ⟨start, same⟩ := ite_none_right_eq_some.mp stepped
    exact some.inj same ▸ .fireContext start.1 start.2.2
  | fireConn serial thread =>
    obtain ⟨start, same⟩ := ite_none_right_eq_some.mp stepped
    exact some.inj same ▸ .fireConn start.1 start.2.2
  | endContext call deadline =>
    obtain ⟨-, same⟩ := ite_none_right_eq_some.mp stepped
    exact some.inj same ▸ .endContext
  | cancelConn conn readFailed => exact some.inj stepped ▸ .cancelConn
  | _ =>
    dsimp only at stepped
    split at stepped
    · next here =>
      cases stepped
      constructor
      exact here
    · cases stepped

/-! ## What a step does to the map -/

/-- What `register` was called with, and its identifier: the part of a registration that
stays as it is. -/
def Registration.origin (registration : Registration) : Attempt × Nat × Bool × QueryId :=
  (registration.attempt, registration.conn, registration.created, registration.queryId)

/-- The map, the counter and the registrations are as before, up to the functions given to
`context.AfterFunc`. -/
structure Untouched (mux next : Mux) : Prop where
  queryId : next.queryId = mux.queryId
  queries : next.queries = mux.queries
  registrations : next.registrations = mux.registrations
  registered : ∀ serial,
    Registration.origin (next.registered serial) = Registration.origin (mux.registered serial)
  log : next.log = mux.log ∨ ∃ observation, next.log = observation :: mux.log ∧
    (∀ serial queryId, observation ≠ .registered serial queryId) ∧
    ∀ serial queryId cause, observation ≠ .taken serial queryId cause

namespace Untouched
variable {mux next : Mux}

/-- Phases, contexts and read epochs are not part of it. -/
theorem of_eq (queryId : next.queryId = mux.queryId) (queries : next.queries = mux.queries)
    (registrations : next.registrations = mux.registrations)
    (registered : next.registered = mux.registered) (log : next.log = mux.log) :
    Untouched mux next :=
  ⟨queryId, queries, registrations, fun _ => by rw [registered], .inl log⟩

theorem invalidate (mux : Mux) (conn : Nat) (readFailed tracked : Bool) :
    Untouched mux (mux.invalidate conn readFailed tracked) := by
  unfold Mux.invalidate
  have same : ∀ next : Mux, next.queryId = mux.queryId → next.queries = mux.queries →
      next.registrations = mux.registrations → next.registered = mux.registered →
      next.log = mux.log → Untouched mux (next.observe (.invalidated conn)) := by
    intro next queryId queries registrations registered log
    refine ⟨queryId, queries, registrations, fun _ => by rw [← registered]; rfl, .inr ?_⟩
    exact ⟨.invalidated conn, congrArg (List.cons _) log, nofun, nofun⟩
  split <;> exact same _ rfl rfl rfl rfl rfl

/-- Only the functions given to `context.AfterFunc` of one registration change. -/
theorem watches {serial thread : Nat} {registration : Registration} {phase : MuxPhase}
    (same : Registration.origin registration = Registration.origin (mux.registered serial)) :
    Untouched mux ({ mux with
      registered := update mux.registered serial registration }.move thread phase) := by
  refine ⟨rfl, rfl, rfl, fun s => ?_, .inl rfl⟩
  show Registration.origin (update mux.registered serial registration s) = _
  rw [update_apply]
  split
  · next here => rw [here, same]
  · rfl

end Untouched

/-- A step enters a query into the map, takes one out, or leaves the map alone. -/
inductive MapStep (retryReadError : Bool) (mux : Mux) : MuxEvent → Mux → Prop
  | register {thread attempt conn created queryId}
      (here : mux.phase thread = .acquired attempt conn created)
      (searched : nextQueryId mux.queries mux.queryId (2 ^ 16) mux.queryId = .found queryId) :
      MapStep retryReadError mux (.register thread)
        (enter retryReadError mux thread attempt conn created queryId)
  | take {thread queryId cause pending} (found : mux.queries queryId = some pending) :
      MapStep retryReadError mux (.take thread) (takeOut mux thread queryId cause pending)
  | untouched {event next} (untouched : Untouched mux next) :
      MapStep retryReadError mux event next

theorem muxStep_map {retryReadError : Bool} {mux next : Mux} {event : MuxEvent}
    (stepped : muxStep retryReadError mux event = some next) :
    MapStep retryReadError mux event next := by
  cases muxStep_moves stepped with
  | register here searched => exact .register here searched
  | take _ found => exact .take found
  | settle _ settles =>
    refine .untouched ?_
    cases settles with
    | response | cancelled =>
      exact ⟨rfl, rfl, rfl, fun _ => rfl, .inr ⟨_, rfl, nofun, nofun⟩⟩
    | expired | rewritten | unwritten => exact { Untouched.invalidate mux .. with }
    | retried | broken => exact .of_eq rfl rfl rfl rfl rfl
  | stop | fireContext | fireConn => exact .untouched (.watches rfl)
  | refuse | callback =>
    exact .untouched ⟨rfl, rfl, rfl, fun _ => rfl, .inr ⟨_, rfl, nofun, nofun⟩⟩
  | invalidate | readFailed => exact .untouched { Untouched.invalidate mux .. with }
  | exchange | missed | create | acquire | acquireFailed | exhausted | written | writeFailed
  | singleDone | read | endContext | cancelConn => exact .untouched (.of_eq rfl rfl rfl rfl rfl)

/-! ## Identifiers that were in use -/

/-- The identifiers in the map, as the history has it. -/
def present : List MuxObservation → List QueryId
  | [] => []
  | .registered _ queryId :: past => queryId :: present past
  | .taken _ queryId _ :: past => (present past).erase queryId
  | _ :: past => present past

/-- The queries that were in the map when the query was registered, itself, and those
registered since, by their identifiers. -/
def since (serial : Nat) : List MuxObservation → List QueryId
  | [] => []
  | .registered s queryId :: past =>
    queryId :: if s = serial then present past else since serial past
  | _ :: past => since serial past

/-- What an entry of the map says is what was registered. -/
structure Recorded (mux : Mux) (queryId : QueryId) (pending : PendingQuery) : Prop where
  serial : pending.serial < mux.registrations
  queryId : (mux.registered pending.serial).queryId = queryId
  call : (mux.registered pending.serial).attempt.call = pending.call
  conn : (mux.registered pending.serial).conn = pending.conn
  retry : pending.retry = true → (mux.registered pending.serial).attempt.retryReadError = true

structure Mapped (mux : Mux) : Prop where
  recorded : ∀ queryId pending, mux.queries queryId = some pending → Recorded mux queryId pending
  present : ∀ queryId, (mux.queries queryId).isSome = true → queryId ∈ present mux.log

/-- The counter has not come back to the identifier of the registration, and what is in the
map under it is the registration's own entry. -/
structure Clear (mux : Mux) (serial : Nat) : Prop where
  met : ∀ queryId, Spans (mux.registered serial).queryId mux.queryId queryId →
    queryId ∈ since serial mux.log
  held : ∀ queryId, (mux.queries queryId).isSome = true → queryId ∈ since serial mux.log
  own : ∀ pending, mux.queries (mux.registered serial).queryId = some pending →
    pending.serial = serial

section Steps
variable {retryReadError : Bool} {mux next : Mux} {thread conn serial : Nat} {attempt : Attempt}
  {created : Bool} {queryId : QueryId} {event : MuxEvent} {pending : PendingQuery}
  {cause : TakeCause}

theorem enter_queries (id : QueryId) :
    (enter retryReadError mux thread attempt conn created queryId).queries id =
      if id = queryId then some (entryOf retryReadError mux attempt conn created)
      else mux.queries id :=
  update_apply ..

theorem enter_registered (serial : Nat) :
    (enter retryReadError mux thread attempt conn created queryId).registered serial =
      if serial = mux.registrations then ⟨attempt, conn, created, queryId, .armed, .armed⟩
      else mux.registered serial :=
  update_apply ..

/-- What is left in the map after `take`. -/
theorem takeOut_queries {p : PendingQuery} {id : QueryId} :
    (takeOut mux thread queryId cause pending).queries id = some p ↔
      id ≠ queryId ∧ mux.queries id = some p := by
  show update mux.queries queryId none id = some p ↔ _
  rw [update_apply]
  split
  · next same => exact ⟨fun absurd => (by cases absurd), fun both => absurd same both.1⟩
  · next other => exact ⟨fun entry => ⟨other, entry⟩, And.right⟩

theorem Untouched.remembers (untouched : Untouched mux next) :
    present next.log = present mux.log ∧ ∀ serial, since serial next.log = since serial mux.log := by
  rcases untouched.log with same | ⟨observation, same, registers, takes⟩
  · rw [same]
    exact ⟨rfl, fun _ => rfl⟩
  · rw [same]
    cases observation with
    | registered s queryId => exact absurd rfl (registers s queryId)
    | taken s queryId cause => exact absurd rfl (takes s queryId cause)
    | released | invalidated | callback => exact ⟨rfl, fun _ => rfl⟩

theorem origin_queryId {registration other : Registration}
    (same : Registration.origin registration = Registration.origin other) :
    registration.queryId = other.queryId :=
  congrArg (fun origin => origin.2.2.2) same

/-- What is known of the past stays known. -/
structure Grows (mux next : Mux) : Prop where
  registrations : mux.registrations ≤ next.registrations
  origin : ∀ serial, serial < mux.registrations →
    Registration.origin (next.registered serial) = Registration.origin (mux.registered serial)
  log : ∀ observation, observation ∈ mux.log → observation ∈ next.log

theorem Untouched.grows (untouched : Untouched mux next) : Grows mux next where
  registrations := Nat.le_of_eq untouched.registrations.symm
  origin serial _ := untouched.registered serial
  log observation before := by
    rcases untouched.log with same | ⟨_, more, _⟩
    · exact same ▸ before
    · exact more ▸ mem_cons_of_mem _ before

theorem muxStep_grows (stepped : muxStep retryReadError mux event = some next) :
    Grows mux next := by
  cases muxStep_map stepped with
  | register =>
    refine ⟨Nat.le_succ _, fun serial known => ?_, fun _ => mem_cons_of_mem _⟩
    rw [enter_registered, if_neg (Nat.ne_of_lt known)]
  | take => exact ⟨Nat.le_refl _, fun _ _ => rfl, fun _ => mem_cons_of_mem _⟩
  | untouched untouched => exact untouched.grows

theorem Recorded.grows (recorded : Recorded mux queryId pending) (grows : Grows mux next) :
    Recorded next queryId pending := by
  have same := grows.origin pending.serial recorded.serial
  exact
    { serial := Nat.lt_of_lt_of_le recorded.serial grows.registrations
      queryId := (origin_queryId same).trans recorded.queryId
      call := (congrArg (fun origin => origin.1.call) same).trans recorded.call
      conn := (congrArg (fun origin => origin.2.1) same).trans recorded.conn
      retry := fun set =>
        (congrArg (fun origin => origin.1.retryReadError) same).trans (recorded.retry set) }

theorem recorded_new :
    Recorded (enter retryReadError mux thread attempt conn created queryId) queryId
      (entryOf retryReadError mux attempt conn created) := by
  have own : (enter retryReadError mux thread attempt conn created queryId).registered
      (entryOf retryReadError mux attempt conn created).serial =
        ⟨attempt, conn, created, queryId, .armed, .armed⟩ := update_self ..
  constructor
  · exact Nat.lt_succ_self _
  all_goals rw [own]
  · rfl
  · rfl
  · intro retry
    have set : (attempt.retryReadError && retryReadError && !created) = true := retry
    simp only [Bool.and_eq_true] at set
    exact set.1.1

theorem Mapped.untouched (mapped : Mapped mux) (untouched : Untouched mux next) : Mapped next := by
  refine ⟨fun queryId pending entry => ?_, fun queryId entry => ?_⟩
  · rw [untouched.queries] at entry
    exact (mapped.recorded queryId pending entry).grows untouched.grows
  · rw [untouched.queries] at entry
    rw [untouched.remembers.1]
    exact mapped.present queryId entry

theorem Mapped.step (mapped : Mapped mux)
    (stepped : muxStep retryReadError mux event = some next) : Mapped next := by
  have grows := muxStep_grows stepped
  cases muxStep_map stepped with
  | register here searched =>
    refine ⟨fun queryId pending entry => ?_, fun queryId entry => ?_⟩
    · rw [enter_queries] at entry
      split at entry
      · next same =>
        cases entry
        rw [same]
        exact recorded_new
      · exact (mapped.recorded queryId pending entry).grows grows
    · rw [enter_queries] at entry
      split at entry
      · next same => rw [same]; exact mem_cons_self
      · exact mem_cons_of_mem _ (mapped.present queryId entry)
  | take found =>
    refine ⟨fun queryId p entry => ?_, fun queryId entry => ?_⟩
    · exact (mapped.recorded queryId p (takeOut_queries.mp entry).2).grows grows
    · obtain ⟨p, entry⟩ := isSome_iff_exists.mp entry
      obtain ⟨other, before⟩ := takeOut_queries.mp entry
      exact (mem_erase_of_ne other).mpr
        (mapped.present queryId (isSome_iff_exists.mpr ⟨p, before⟩))
  | untouched untouched => exact mapped.untouched untouched

/-- A query that is just registered. -/
theorem clear_new (mapped : Mapped mux) :
    Clear (enter retryReadError mux thread attempt conn created queryId) mux.registrations := by
  have listed : since mux.registrations
      (enter retryReadError mux thread attempt conn created queryId).log =
        queryId :: present mux.log := congrArg (List.cons _) (if_pos rfl)
  constructor
  all_goals
    try rw [listed]
    intro id
  · rw [enter_registered, if_pos rfl]
    intro spans
    rw [eq_of_spans_self spans]
    exact List.mem_cons_self
  · rw [enter_queries]
    split
    · next same => rw [same]; exact fun _ => List.mem_cons_self
    · exact fun entry => List.mem_cons_of_mem _ (mapped.present id entry)
  · rw [enter_registered, if_pos rfl, enter_queries, if_pos rfl]
    intro entry
    cases entry
    rfl

/-- Another query is registered while few enough were in use. -/
theorem Clear.enter (clear : Clear mux serial) (earlier : serial < mux.registrations)
    (few : (since serial mux.log).length < 2 ^ 16)
    (searched : nextQueryId mux.queries mux.queryId (2 ^ 16) mux.queryId = .found queryId) :
    Clear (enter retryReadError mux thread attempt conn created queryId) serial := by
  obtain ⟨k, positive, rfl, free, passed⟩ := nextQueryId_spec searched
  obtain ⟨foreign, onward⟩ := spans_advance clear.met
    (fun i low high => clear.held _ (passed i low high)) positive (exists_notMem_of_length few)
  have other : serial ≠ mux.registrations := by omega
  have listed : since serial (MultiplexerIds.enter retryReadError mux thread attempt conn created
      (mux.queryId + BitVec.ofNat 16 k)).log =
        (mux.queryId + BitVec.ofNat 16 k) :: since serial mux.log :=
    congrArg (List.cons _) (if_neg (Ne.symm other))
  constructor
  all_goals
    try rw [listed]
    intro id
  · rw [enter_registered, if_neg other]
    intro spans
    rcases onward id spans with before | rfl
    · exact List.mem_cons_of_mem _ before
    · exact List.mem_cons_self
  · rw [enter_queries]
    split
    · next same => rw [same]; exact fun _ => List.mem_cons_self
    · exact fun entry => List.mem_cons_of_mem _ (clear.held id entry)
  · rw [enter_registered, if_neg other, enter_queries, if_neg (Ne.symm foreign)]
    exact clear.own id

theorem Clear.takeOut (clear : Clear mux serial) :
    Clear (takeOut mux thread queryId cause pending) serial := by
  refine ⟨clear.met, fun id entry => ?_, fun p entry => ?_⟩
  · obtain ⟨p, entry⟩ := isSome_iff_exists.mp entry
    have before := (takeOut_queries.mp entry).2
    exact clear.held id (isSome_iff_exists.mpr ⟨p, before⟩)
  · exact clear.own p (takeOut_queries.mp entry).2

theorem Clear.untouched (clear : Clear mux serial) (untouched : Untouched mux next) :
    Clear next serial := by
  have same := origin_queryId (untouched.registered serial)
  refine ⟨fun id => ?_, fun id => ?_, fun p => ?_⟩
  · rw [same, untouched.queryId, untouched.remembers.2]
    exact clear.met id
  · rw [untouched.queries, untouched.remembers.2]
    exact clear.held id
  · rw [same, untouched.queries]
    exact clear.own p

/-- The identifier of a query stays its own over a step, if few enough were in use. -/
theorem clear_step (mapped : Mapped mux)
    (stepped : muxStep retryReadError mux event = some next) (known : serial < next.registrations)
    (few : serial < mux.registrations → (since serial mux.log).length < 2 ^ 16)
    (clear : serial < mux.registrations → Clear mux serial) : Clear next serial := by
  cases muxStep_map stepped with
  | register _ searched =>
    by_cases new : serial = mux.registrations
    · rw [new]
      exact clear_new mapped
    · have earlier : serial < mux.registrations := Nat.lt_of_le_of_ne (Nat.le_of_lt_succ known) new
      exact (clear earlier).enter earlier (few earlier) searched
  | take => exact (clear known).takeOut
  | untouched untouched => exact (clear (untouched.registrations ▸ known)).untouched untouched

end Steps

end AmneziaBox.Guarantees.MultiplexerIds
