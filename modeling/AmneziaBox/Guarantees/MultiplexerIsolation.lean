import AmneziaBox.Guarantees.MultiplexerCompletion

/-!
# Queries of the multiplexer do not meet

An entry of the map is taken by its identifier alone. Neither the connection a message was
read from nor the query an event belongs to is compared with the entry. A receive loop that
holds a message of a replaced connection therefore answers a query of the new connection with
it, and a function given to `context.AfterFunc` that comes late takes the entry of another
query once its identifier was given out again.

What is asked for below is what the code leaves to chance: that no message comes with the
identifier of a query of another connection, that no query gets the identifier of a message in
hand of another connection, and that the identifiers have not gone round once before a late
event looks up its own.
-/
namespace AmneziaBox.Guarantees.MultiplexerIsolation
open Library Source.Transport MultiplexerIds MultiplexerCompletion Function

/-! ## Statement -/

/-- The entry of the registration is what the event is about. -/
def Own (mux : Mux) (serial : Nat) : TakeCause → Prop
  | .response conn => (mux.registered serial).conn = conn
  | .contextDone s => s = serial
  | .connDone s => s = serial
  | .writeFailed s => s = serial

/-- A message of the connection was passed to the call, for a query of it on that connection. -/
def Delivered (mux : Mux) (call conn : Nat) : Prop :=
  ∃ serial queryId, .taken serial queryId (.response conn) ∈ mux.log ∧
    serial < mux.registrations ∧ (mux.registered serial).attempt.call = call ∧
    (mux.registered serial).conn = conn

structure Isolated (mux : Mux) : Prop where
  responses : ∀ call conn, .callback call (.response conn) ∈ mux.log → Delivered mux call conn
  takes : ∀ serial queryId cause, .taken serial queryId cause ∈ mux.log →
    serial < mux.registrations ∧ Own mux serial cause
  /-- What a goroutine is about to complete, release or send again. -/
  hands : ∀ thread cause pending, Took cause pending (mux.phase thread) →
    Own mux pending.serial cause ∧ (mux.registered pending.serial).attempt.call = pending.call ∧
    (mux.registered pending.serial).conn = pending.conn

/-- The registration whose identifier the goroutine looks up in `take`. -/
def looksFor : MuxPhase → Option Nat
  | .failing serial => some serial
  | .contextDone serial => some serial
  | .connDone serial => some serial
  | _ => none

def TakenBefore (log : List MuxObservation) (serial : Nat) : Prop :=
  ∃ queryId cause, .taken serial queryId cause ∈ log

/-- What the surroundings have to see to. -/
def Guarded (mux : Mux) : MuxEvent → Prop
  -- a message does not carry the identifier of a query of another connection
  | .read thread (some queryId) => ∀ conn, mux.phase thread = .reading conn →
      ∀ pending, mux.queries queryId = some pending → pending.conn = conn
  -- the identifier of a message in hand of another connection is in use
  | .register thread => ∀ attempt conn created, mux.phase thread = .acquired attempt conn created →
      ∀ loop other queryId, mux.phase loop = .received other queryId →
        other = conn ∨ (mux.queries queryId).isSome = true
  -- a late event comes before the identifiers have gone round
  | .take thread => ∀ serial, looksFor (mux.phase thread) = some serial →
      TakenBefore mux.log serial → (since serial mux.log).length < 2 ^ 16
  | _ => True

/-! ## Steps -/

/-- A phase that says nothing about a query. -/
def Plain : MuxPhase → Prop
  | .writing _ => False
  | .failing _ => False
  | .contextDone _ => False
  | .connDone _ => False
  | .received _ _ => False
  | .taken _ _ => False
  | .stopped _ _ => False
  | .calling _ (.response _) _ => False
  | _ => True

/-- Where a goroutine can be after a step. -/
inductive Reached (mux : Mux) (event : MuxEvent) (next : Mux) (thread : Nat) : MuxPhase → Prop
  | stays : Reached mux event next thread (mux.phase thread)
  | plain {phase : MuxPhase} (plain : Plain phase) : Reached mux event next thread phase
  | read {conn : Nat} {queryId : QueryId} (reading : mux.phase thread = .reading conn)
      (now : event = .read thread (some queryId)) :
      Reached mux event next thread (.received conn queryId)
  | writing (more : mux.registrations < next.registrations) :
      Reached mux event next thread (.writing mux.registrations)
  | failing {serial : Nat} (writing : mux.phase thread = .writing serial) :
      Reached mux event next thread (.failing serial)
  | contextDone {serial : Nat} (armed : (mux.registered serial).context = .armed) :
      Reached mux event next thread (.contextDone serial)
  | connDone {serial : Nat} (armed : (mux.registered serial).connection = .armed) :
      Reached mux event next thread (.connDone serial)
  | taken {queryId : QueryId} {cause : TakeCause} {otherwise : MuxPhase} {pending : PendingQuery}
      (now : event = .take thread) (asks : Asks mux thread queryId cause otherwise)
      (found : mux.queries queryId = some pending)
      (logged : .taken pending.serial queryId cause ∈ next.log) :
      Reached mux event next thread (.taken cause pending)
  | stopped {cause : TakeCause} {pending : PendingQuery}
      (taken : mux.phase thread = .taken cause pending) :
      Reached mux event next thread (.stopped cause pending)
  | calling {conn : Nat} {pending : PendingQuery}
      (stopped : mux.phase thread = .stopped (.response conn) pending) :
      Reached mux event next thread (.calling pending.call (.response conn) (some conn))

/-- What a step can add to the history. -/
inductive Noted (mux : Mux) (event : MuxEvent) : MuxObservation → Prop
  | registered {serial : Nat} {queryId : QueryId} : Noted mux event (.registered serial queryId)
  | released {conn : Nat} : Noted mux event (.released conn)
  | invalidated {conn : Nat} : Noted mux event (.invalidated conn)
  | taken {thread : Nat} {queryId : QueryId} {cause : TakeCause} {otherwise : MuxPhase}
      {pending : PendingQuery} (now : event = .take thread)
      (asks : Asks mux thread queryId cause otherwise)
      (found : mux.queries queryId = some pending) :
      Noted mux event (.taken pending.serial queryId cause)
  | callback {thread call : Nat} {answer : Answer} {loop : Option Nat}
      (calling : mux.phase thread = .calling call answer loop) :
      Noted mux event (.callback call answer)

structure Effect (mux : Mux) (event : MuxEvent) (next : Mux) : Prop where
  phase : ∀ thread, Reached mux event next thread (next.phase thread)
  log : next.log = mux.log ∨ ∃ observation, next.log = observation :: mux.log ∧
    Noted mux event observation
  context : ∀ serial, (next.registered serial).context = .armed →
    (mux.registered serial).context = .armed ∨ serial < next.registrations
  connection : ∀ serial, (next.registered serial).connection = .armed →
    (mux.registered serial).connection = .armed ∨ serial < next.registrations

section Steps
variable {retryReadError : Bool} {mux next : Mux} {event : MuxEvent} {thread : Nat}
  {after : MuxPhase}

theorem reached_of_update (phase : next.phase = update mux.phase thread after)
    (reached : Reached mux event next thread after) (t : Nat) :
    Reached mux event next t (next.phase t) := by
  rw [phase_of_update phase]
  split
  · next here => rw [here]; exact reached
  · exact .stays

/-- One goroutine moves, and the registrations stay as they are. -/
theorem Effect.move (phase : next.phase = update mux.phase thread after)
    (reached : Reached mux event next thread after)
    (registered : next.registered = mux.registered)
    (log : next.log = mux.log ∨ ∃ observation, next.log = observation :: mux.log ∧
      Noted mux event observation) : Effect mux event next where
  phase := reached_of_update phase reached
  log := log
  context _ armed := .inl (registered ▸ armed)
  connection _ armed := .inl (registered ▸ armed)

theorem Effect.invalidate {conn : Nat} {readFailed tracked : Bool} (plain : Plain after) :
    Effect mux event ((mux.invalidate conn readFailed tracked).move thread after) := by
  unfold Mux.invalidate
  split <;> exact .move rfl (.plain plain) rfl (.inr ⟨_, rfl, .invalidated⟩)

theorem effect_settle {cause : TakeCause} {pending : PendingQuery} {mid : Mux}
    (here : mux.phase thread = .stopped cause pending)
    (settles : Settles mux pending cause mid after) : Effect mux event (mid.move thread after) := by
  cases settles with
  | response => exact .move rfl (.calling here) rfl (.inr ⟨_, rfl, .released⟩)
  | cancelled => exact .move rfl (.plain trivial) rfl (.inr ⟨_, rfl, .released⟩)
  | expired | rewritten | unwritten => exact .invalidate trivial
  | retried _ starts => cases starts <;> exact .move rfl (.plain trivial) rfl (.inl rfl)
  | broken => exact .move rfl (.plain trivial) rfl (.inl rfl)

theorem effect_enter {attempt : Attempt} {conn : Nat} {created : Bool} {queryId : QueryId} :
    Effect mux (.register thread)
      (enter retryReadError mux thread attempt conn created queryId) := by
  have armed : ∀ {P : Registration → Prop} serial,
      P ((enter retryReadError mux thread attempt conn created queryId).registered serial) →
      P (mux.registered serial) ∨ serial < mux.registrations + 1 := by
    intro P serial now
    rw [enter_registered] at now
    split at now
    · next same => exact .inr (by omega)
    · exact .inl now
  exact
    { phase := reached_of_update rfl (.writing (Nat.lt_succ_self _))
      log := .inr ⟨_, rfl, .registered⟩
      context := fun serial => armed (P := fun r => r.context = .armed) serial
      connection := fun serial => armed (P := fun r => r.connection = .armed) serial }

/-- Functions given to `context.AfterFunc` end. -/
theorem effect_watches {serial : Nat} {registration : Registration}
    (reached : ∀ next, Reached mux event next thread after)
    (context : registration.context = .armed → (mux.registered serial).context = .armed)
    (connection : registration.connection = .armed → (mux.registered serial).connection = .armed) :
    Effect mux event ({ mux with
      registered := update mux.registered serial registration }.move thread after) := by
  have armed : ∀ {P : Registration → Prop}, (P registration → P (mux.registered serial)) →
      ∀ s, P (update mux.registered serial registration s) → P (mux.registered s) := by
    intro P kept s now
    rw [update_apply] at now
    split at now
    · next here => rw [here]; exact kept now
    · exact now
  exact
    { phase := reached_of_update rfl (reached _)
      log := .inl rfl
      context := fun s now => .inl (armed (P := fun r => r.context = .armed) context s now)
      connection := fun s now => .inl (armed (P := fun r => r.connection = .armed) connection s now) }

theorem Watch.stop_armed {watch : Watch} (armed : watch.stop = .armed) : watch = .armed := by
  cases watch with
  | armed => rfl
  | fired | stopped => exact armed

theorem muxStep_effect (stepped : muxStep retryReadError mux event = some next) :
    Effect mux event next := by
  cases muxStep_moves stepped with
  | exchange _ starts => cases starts <;> exact .move rfl (.plain trivial) rfl (.inl rfl)
  | create =>
    refine ⟨fun t => ?_, .inl rfl, fun _ armed => .inl armed, fun _ armed => .inl armed⟩
    show Reached mux _ _ t (update (update mux.phase _ _) _ _ t)
    rw [update_apply, update_apply]
    split
    · exact .plain trivial
    · split
      · exact .plain trivial
      · exact .stays
  | register => exact effect_enter
  | refuse => exact .move rfl (.plain trivial) rfl (.inr ⟨_, rfl, .released⟩)
  | writeFailed here => exact .move rfl (.failing here) rfl (.inl rfl)
  | take asks found =>
    exact .move rfl (.taken rfl asks found List.mem_cons_self) rfl
      (.inr ⟨_, rfl, .taken rfl asks found⟩)
  | missed asks => cases asks <;> exact .move rfl (.plain trivial) rfl (.inl rfl)
  | stop here => exact effect_watches (fun _ => .stopped here) Watch.stop_armed Watch.stop_armed
  | settle here settles => exact effect_settle here settles
  | callback loop here =>
    refine .move rfl (.plain ?_) rfl (.inr ⟨_, rfl, .callback here⟩)
    cases loop <;> trivial
  | fireContext armed => exact effect_watches (fun _ => .contextDone armed) nofun id
  | fireConn armed => exact effect_watches (fun _ => .connDone armed) id nofun
  | read queryId here =>
    cases queryId with
    | none => exact .move rfl (.plain trivial) rfl (.inl rfl)
    | some queryId => exact .move rfl (.read here rfl) rfl (.inl rfl)
  | invalidate | readFailed => exact .invalidate trivial
  | acquire | acquireFailed | exhausted | written | singleDone =>
    exact .move rfl (.plain trivial) rfl (.inl rfl)
  | endContext | cancelConn =>
    exact ⟨fun _ => .stays, .inl rfl, fun _ armed => .inl armed, fun _ armed => .inl armed⟩

end Steps

/-! ## Whole runs -/

/-- The registration a goroutine writes for or looks up. -/
def concerns : MuxPhase → Option Nat
  | .writing serial => some serial
  | phase => looksFor phase

theorem Plain.concerns {phase : MuxPhase} (plain : Plain phase) : concerns phase = none := by
  cases phase <;> first | rfl | exact plain.elim

structure Apart (mux : Mux) : Prop where
  mapped : Mapped mux
  /-- Identifiers come back only after they have gone round. -/
  clear : ∀ serial, serial < mux.registrations → (since serial mux.log).length < 2 ^ 16 →
    Clear mux serial
  /-- A query is in the map until it is taken. -/
  kept : ∀ serial, serial < mux.registrations → TakenBefore mux.log serial ∨
    ∃ pending, mux.queries (mux.registered serial).queryId = some pending ∧ pending.serial = serial
  known : ∀ thread serial, concerns (mux.phase thread) = some serial → serial < mux.registrations
  context : ∀ serial, (mux.registered serial).context = .armed → serial < mux.registrations
  connection : ∀ serial, (mux.registered serial).connection = .armed → serial < mux.registrations
  loops : ∀ thread conn queryId, mux.phase thread = .received conn queryId →
    ∀ pending, mux.queries queryId = some pending → pending.conn = conn
  hands : ∀ thread cause pending, Took cause pending (mux.phase thread) →
    ∃ queryId, Recorded mux queryId pending ∧ .taken pending.serial queryId cause ∈ mux.log
  callings : ∀ thread call conn loop, mux.phase thread = .calling call (.response conn) loop →
    Delivered mux call conn
  responses : ∀ call conn, .callback call (.response conn) ∈ mux.log → Delivered mux call conn
  takes : ∀ serial queryId cause, .taken serial queryId cause ∈ mux.log →
    serial < mux.registrations ∧ Own mux serial cause

theorem Apart.isolated {mux : Mux} (apart : Apart mux) : Isolated mux where
  responses := apart.responses
  takes := apart.takes
  hands thread cause pending took := by
    obtain ⟨queryId, recorded, logged⟩ := apart.hands thread cause pending took
    exact ⟨(apart.takes _ _ _ logged).2, recorded.call, recorded.conn⟩

section Runs
variable {retryReadError : Bool} {mux next : Mux} {event : MuxEvent} {thread serial : Nat}
  {queryId : QueryId} {cause : TakeCause} {pending : PendingQuery}

/-- The entry under the identifier of a query is the query's own, if the identifiers have not
gone round since it was taken. -/
theorem Apart.own (apart : Apart mux) (known : serial < mux.registrations)
    (few : TakenBefore mux.log serial → (since serial mux.log).length < 2 ^ 16)
    (found : mux.queries (mux.registered serial).queryId = some pending) :
    pending.serial = serial := by
  rcases apart.kept serial known with before | ⟨p, here, same⟩
  · exact (apart.clear serial known (few before)).own pending found
  · obtain rfl : pending = p := Option.some.inj (found.symm.trans here)
    exact same

theorem Apart.own_of_asks (apart : Apart mux) (guarded : Guarded mux (.take thread))
    {otherwise : MuxPhase} (asks : Asks mux thread queryId cause otherwise)
    (found : mux.queries queryId = some pending) : Own mux pending.serial cause := by
  have looks : ∀ serial, looksFor (mux.phase thread) = some serial →
      mux.queries (mux.registered serial).queryId = some pending → serial = pending.serial := by
    intro serial looks found
    have known : concerns (mux.phase thread) = some serial := by
      cases here : mux.phase thread <;> rw [here] at looks <;> first | exact looks | cases looks
    exact (apart.own (apart.known thread serial known) (guarded serial looks) found).symm
  cases asks with
  | response here =>
    have conn := apart.loops _ _ _ here pending found
    exact (apart.mapped.recorded _ _ found).conn.trans conn
  | contextDone here => exact looks _ (by rw [here]; rfl) found
  | connDone here => exact looks _ (by rw [here]; rfl) found
  | writeFailed here => exact looks _ (by rw [here]; rfl) found

theorem own_grows (grows : Grows mux next) (known : serial < mux.registrations)
    (own : Own mux serial cause) : Own next serial cause := by
  cases cause with
  | response conn =>
    have same : (next.registered serial).conn = (mux.registered serial).conn :=
      congrArg (fun o => o.2.1) (grows.origin serial known)
    exact same.trans own
  | contextDone | connDone | writeFailed => exact own

variable {call conn : Nat}

theorem delivered_grows (grows : Grows mux next) (delivered : Delivered mux call conn) :
    Delivered next call conn := by
  obtain ⟨serial, queryId, logged, known, rfl, rfl⟩ := delivered
  have same := grows.origin serial known
  exact ⟨serial, queryId, grows.log _ logged, Nat.lt_of_lt_of_le known grows.registrations,
    congrArg (fun o => o.1.call) same, congrArg (fun o => o.2.1) same⟩

theorem since_mono (stepped : muxStep retryReadError mux event = some next)
    (known : serial < mux.registrations) :
    (since serial mux.log).length ≤ (since serial next.log).length := by
  cases muxStep_map stepped with
  | register =>
    show _ ≤ (since serial (.registered mux.registrations _ :: mux.log)).length
    rw [since, if_neg (Nat.ne_of_gt known)]
    exact Nat.le_succ _
  | take => exact Nat.le_refl _
  | untouched untouched => rw [untouched.remembers.2]

/-- A query is in the map until it is taken. -/
abbrev Kept (mux : Mux) : Prop :=
  ∀ serial, serial < mux.registrations → TakenBefore mux.log serial ∨
    ∃ pending, mux.queries (mux.registered serial).queryId = some pending ∧ pending.serial = serial

theorem kept_step (kept : Kept mux) (stepped : muxStep retryReadError mux event = some next) :
    Kept next := by
  intro serial known
  have grows := muxStep_grows stepped
  have logged : TakenBefore mux.log serial → TakenBefore next.log serial :=
    fun ⟨queryId, cause, logged⟩ => ⟨queryId, cause, grows.log _ logged⟩
  cases muxStep_map stepped with
  | @register _ attempt conn created _ _ searched =>
    rw [enter_registered]
    by_cases new : serial = mux.registrations
    · refine .inr ⟨entryOf retryReadError mux attempt conn created, ?_, new.symm⟩
      rw [if_pos new, enter_queries, if_pos rfl]
    · rw [if_neg new]
      have known : serial < mux.registrations := Nat.lt_of_le_of_ne (Nat.le_of_lt_succ known) new
      refine (kept serial known).imp logged ?_
      rintro ⟨pending, entry, same⟩
      refine ⟨pending, ?_, same⟩
      have free := (nextQueryId_spec searched).choose_spec.2.2.1
      rw [enter_queries, if_neg, entry]
      intro clash
      rw [clash, free] at entry
      cases entry
  | @take _ found cause taken here =>
    rcases kept serial known with before | ⟨pending, entry, same⟩
    · exact .inl (logged before)
    · by_cases there : (mux.registered serial).queryId = found
      · rw [there, here] at entry
        cases entry
        exact .inl ⟨found, cause, same ▸ List.mem_cons_self⟩
      · exact .inr ⟨pending, (update_of_ne there ..).trans entry, same⟩
  | untouched untouched =>
    rw [untouched.registrations] at known
    rw [untouched.queries, origin_queryId (untouched.registered serial)]
    exact (kept serial known).imp_left logged

section Apart
variable (apart : Apart mux) (stepped : muxStep retryReadError mux event = some next)
include apart stepped

theorem Apart.clear_next (known : serial < next.registrations)
    (few : (since serial next.log).length < 2 ^ 16) : Clear next serial :=
  have before : serial < mux.registrations → (since serial mux.log).length < 2 ^ 16 :=
    fun known => Nat.lt_of_le_of_lt (since_mono stepped known) few
  clear_step apart.mapped stepped known before fun known => apart.clear serial known (before known)

theorem Apart.known_next (concerned : concerns (next.phase thread) = some serial) :
    serial < next.registrations := by
  have grows := (muxStep_grows stepped).registrations
  have earlier : ∀ phase, mux.phase thread = phase → concerns phase = some serial →
      serial < next.registrations := fun phase here there =>
    Nat.lt_of_lt_of_le (apart.known thread serial (here ▸ there)) grows
  have reached := (muxStep_effect stepped).phase thread
  generalize next.phase thread = phase at concerned reached
  cases reached with
  | stays => exact earlier _ rfl concerned
  | plain plain => rw [plain.concerns] at concerned; cases concerned
  | writing more =>
    cases concerned
    exact more
  | failing writing => exact earlier _ writing concerned
  | contextDone armed =>
    cases concerned
    exact Nat.lt_of_lt_of_le (apart.context _ armed) grows
  | connDone armed =>
    cases concerned
    exact Nat.lt_of_lt_of_le (apart.connection _ armed) grows
  | read | taken | stopped | calling => cases concerned

/-- A message in hand is for a query of its connection, or for none. -/
theorem Apart.loops_next (guarded : Guarded mux event)
    (received : next.phase thread = .received conn queryId)
    (found : next.queries queryId = some pending) : pending.conn = conn := by
  have reached := (muxStep_effect stepped).phase thread
  generalize next.phase thread = phase at received reached
  cases reached with
  | read reading now =>
    cases received
    subst now
    cases muxStep_map stepped with
    | untouched untouched =>
      rw [untouched.queries] at found
      exact guarded _ reading _ found
  | stays =>
    cases muxStep_map stepped with
    | @register t attempt other created new acquired searched =>
      rw [enter_queries] at found
      split at found
      · next same =>
        -- the identifier of the message was free, so the query is of the same connection
        cases found
        have free := (nextQueryId_spec searched).choose_spec.2.2.1
        rcases guarded attempt other created acquired thread conn queryId received with eq | busy
        · exact eq.symm
        · rw [same, free] at busy
          cases busy
      · exact apart.loops thread conn queryId received pending found
    | take => exact apart.loops thread conn queryId received pending (takeOut_queries.mp found).2
    | untouched untouched =>
      rw [untouched.queries] at found
      exact apart.loops thread conn queryId received pending found
  | plain plain => rw [received] at plain; exact plain.elim
  | writing | failing | contextDone | connDone | taken | stopped | calling => cases received

/-- What is taken is recorded, in the history too. -/
theorem Apart.hands_next (took : Took cause pending (next.phase thread)) :
    ∃ queryId, Recorded next queryId pending ∧ .taken pending.serial queryId cause ∈ next.log := by
  have grows := muxStep_grows stepped
  have earlier : Took cause pending (mux.phase thread) → ∃ queryId,
      Recorded next queryId pending ∧ .taken pending.serial queryId cause ∈ next.log := by
    intro before
    obtain ⟨queryId, recorded, logged⟩ := apart.hands thread cause pending before
    exact ⟨queryId, recorded.grows grows, grows.log _ logged⟩
  have reached := (muxStep_effect stepped).phase thread
  generalize next.phase thread = phase at took reached
  cases reached with
  | stays => exact earlier took
  | plain plain => cases phase <;> first | exact took.elim | exact plain.elim
  | stopped taken =>
    obtain ⟨rfl, rfl⟩ := took
    exact earlier (taken ▸ ⟨rfl, rfl⟩)
  | @taken queryId _ _ _ _ _ found logged =>
    obtain ⟨rfl, rfl⟩ := took
    exact ⟨queryId, (apart.mapped.recorded queryId _ found).grows grows, logged⟩
  | read | writing | failing | contextDone | connDone | calling => exact took.elim

theorem Apart.callings_next {loop : Option Nat}
    (calling : next.phase thread = .calling call (.response conn) loop) :
    Delivered next call conn := by
  have grows := muxStep_grows stepped
  have reached := (muxStep_effect stepped).phase thread
  generalize next.phase thread = phase at calling reached
  cases reached with
  | stays => exact delivered_grows grows (apart.callings thread call conn loop calling)
  | plain plain => rw [calling] at plain; exact plain.elim
  | @calling _ pending stopped =>
    cases calling
    obtain ⟨queryId, recorded, logged⟩ :=
      apart.hands thread (.response conn) pending (stopped ▸ ⟨rfl, rfl⟩)
    exact delivered_grows grows ⟨pending.serial, queryId, logged, recorded.serial, recorded.call,
      (apart.takes _ _ _ logged).2⟩
  | read | writing | failing | contextDone | connDone | taken | stopped => cases calling

theorem Apart.responses_next (logged : .callback call (.response conn) ∈ next.log) :
    Delivered next call conn := by
  have grows := muxStep_grows stepped
  rcases (muxStep_effect stepped).log with same | ⟨observation, more, noted⟩
  · exact delivered_grows grows (apart.responses call conn (same ▸ logged))
  · rw [more] at logged
    rcases List.mem_cons.mp logged with rfl | before
    · cases noted with
      | callback calling => exact delivered_grows grows (apart.callings _ call conn _ calling)
    · exact delivered_grows grows (apart.responses call conn before)

theorem Apart.takes_next (guarded : Guarded mux event)
    (logged : .taken serial queryId cause ∈ next.log) :
    serial < next.registrations ∧ Own next serial cause := by
  have grows := muxStep_grows stepped
  have earlier : serial < mux.registrations → Own mux serial cause →
      serial < next.registrations ∧ Own next serial cause := fun known own =>
    ⟨Nat.lt_of_lt_of_le known grows.registrations, own_grows grows known own⟩
  have before : .taken serial queryId cause ∈ mux.log →
      serial < next.registrations ∧ Own next serial cause := fun logged =>
    earlier (apart.takes serial queryId cause logged).1 (apart.takes serial queryId cause logged).2
  rcases (muxStep_effect stepped).log with same | ⟨observation, more, noted⟩
  · exact before (same ▸ logged)
  · rw [more] at logged
    rcases List.mem_cons.mp logged with rfl | old
    · cases noted with
      | taken now asks found =>
        subst now
        exact earlier (apart.mapped.recorded queryId _ found).serial
          (apart.own_of_asks guarded asks found)
    · exact before old

theorem apart_step (guarded : Guarded mux event) : Apart next where
  mapped := apart.mapped.step stepped
  clear _ known few := apart.clear_next stepped known few
  kept := kept_step apart.kept stepped
  known _ _ concerned := apart.known_next stepped concerned
  context serial armed := ((muxStep_effect stepped).context serial armed).elim
    (fun before => Nat.lt_of_lt_of_le (apart.context serial before)
      (muxStep_grows stepped).registrations) id
  connection serial armed := ((muxStep_effect stepped).connection serial armed).elim
    (fun before => Nat.lt_of_lt_of_le (apart.connection serial before)
      (muxStep_grows stepped).registrations) id
  loops _ _ _ received _ found := apart.loops_next stepped guarded received found
  hands _ _ _ took := apart.hands_next stepped took
  callings _ _ _ _ calling := apart.callings_next stepped calling
  responses _ _ logged := apart.responses_next stepped logged
  takes _ _ _ logged := apart.takes_next stepped guarded logged

end Apart

theorem initial_apart : Apart {} where
  mapped := ⟨nofun, nofun⟩
  clear _ known := absurd known (Nat.not_lt_zero _)
  kept _ known := absurd known (Nat.not_lt_zero _)
  known := nofun
  context := nofun
  connection := nofun
  loops := nofun
  hands _ _ _ took := took.elim
  callings := nofun
  responses := nofun
  takes := nofun

end Runs

/-- In every run with guarded events, a response is passed to a query of the connection that
it was read from, and an event of a query takes no entry but the query's own. -/
theorem queries_isolated {retryReadError : Bool} {events : List MuxEvent} {mux : Mux}
    (guarded : Along (muxStep retryReadError) Guarded {} events)
    (ran : muxExec retryReadError events = some mux) : Isolated mux :=
  have apart : Apart mux :=
    run_invariant_along (fun _ _ _ apart guarded stepped => apart_step apart stepped guarded)
      initial_apart guarded ran
  apart.isolated

/-- A receive loop holds a message of a connection while the connection is replaced, and a
query of the new connection gets the identifier of the message. -/
def foreignMessage : List MuxEvent :=
  [.exchange 0 false, .acquire 0 0 true 1, .register 0, .written 0, .read 1 (some 2),
    .cancelConn 0 false, .exchange 2 false, .acquire 2 1 true 3, .register 2, .written 2,
    .take 1, .stop 1, .settle 1 false false, .callback 1]

/-- The second call, whose only query is on the second connection, gets the message of the
first one, whatever the server of the second one answers. -/
theorem foreignMessage_delivered :
    ∃ mux, muxExec true foreignMessage = some mux ∧
      .callback 1 (.response 0) ∈ mux.log ∧ mux.registrations = 2 ∧
      (mux.registered 0).attempt.call = 0 ∧
      (mux.registered 1).attempt.call = 1 ∧ (mux.registered 1).conn = 1 ∧ ¬ Isolated mux := by
  refine ⟨_, rfl, List.mem_cons_self, rfl, rfl, rfl, rfl, fun isolated => ?_⟩
  obtain ⟨serial, queryId, _, known, call, conn⟩ := isolated.responses 1 0 List.mem_cons_self
  match serial, known, call, conn with
  | 0, _, call, _ => cases call
  | 1, _, _, conn => cases conn
  | _ + 2, known, _, _ => exact absurd known (Nat.not_lt.mpr (Nat.le_add_left 2 _))

/-- The connection is replaced while a message is in hand whose query still waits for it. -/
def ownMessage : List MuxEvent :=
  [.exchange 0 false, .acquire 0 0 true 1, .register 0, .written 0, .read 1 (some 1),
    .cancelConn 0 false, .exchange 2 false, .acquire 2 1 true 3, .register 2, .take 1]

theorem ownMessage_isolated :
    Along (muxStep true) Guarded {} ownMessage ∧
    ∃ mux, muxExec true ownMessage = some mux ∧ Isolated mux ∧
      .taken 0 1 (.response 0) ∈ mux.log ∧ (mux.registered 0).conn = 0 := by
  have guarded : Along (muxStep true) Guarded {} ownMessage := by
    refine ⟨trivial, fun _ stepped => ?_⟩
    cases stepped
    refine ⟨trivial, fun _ stepped => ?_⟩
    cases stepped
    refine ⟨fun _ _ _ _ loop _ _ received => ?_, fun _ stepped => ?_⟩
    · match loop, received with
      | 0, received | 1, received | _ + 2, received => cases received
    cases stepped
    refine ⟨trivial, fun _ stepped => ?_⟩
    cases stepped
    refine ⟨fun _ reading _ found => ?_, fun _ stepped => ?_⟩
    · cases reading
      cases found
      rfl
    cases stepped
    iterate 3
      refine ⟨trivial, fun _ stepped => ?_⟩
      cases stepped
    refine ⟨fun _ _ _ _ loop _ _ received => .inr ?_, fun _ stepped => ?_⟩
    · match loop, received with
      | 1, received => cases received; rfl
      | 0, received | 2, received | 3, received | _ + 4, received => cases received
    cases stepped
    exact ⟨nofun, fun _ _ => trivial⟩
  obtain ⟨mux, ran⟩ : ∃ mux, muxExec true ownMessage = some mux := ⟨_, rfl⟩
  refine ⟨guarded, mux, ran, queries_isolated guarded ran, ?_⟩
  cases ran
  exact ⟨List.mem_cons_self, rfl⟩

/-! ## Identifiers of pending queries -/

/-- The loop of `register` ends within 65536 rounds. Either every identifier is in use and
`register` fails, or it enters the query under one that is free. In every run, queries that wait
to be taken have different identifiers. -/
theorem identifiers_allocated (retryReadError : Bool) :
    (∀ (mux : Mux) (thread : Nat) (attempt : Attempt) (conn : Nat) (created : Bool),
      nextQueryId mux.queries mux.queryId (2 ^ 16) mux.queryId ≠ .running ∧
      ((∀ queryId, (mux.queries queryId).isSome = true) ∧
          nextQueryId mux.queries mux.queryId (2 ^ 16) mux.queryId = .exhausted ∧
          register retryReadError mux thread attempt conn created =
            mux.move thread (.refused attempt conn) ∨
        ∃ queryId, mux.queries queryId = none ∧
          nextQueryId mux.queries mux.queryId (2 ^ 16) mux.queryId = .found queryId ∧
          register retryReadError mux thread attempt conn created =
            enter retryReadError mux thread attempt conn created queryId)) ∧
    ∀ events mux, muxExec retryReadError events = some mux → ∀ one two,
      (one < mux.registrations ∧ ¬TakenBefore mux.log one) →
      (two < mux.registrations ∧ ¬TakenBefore mux.log two) →
      (mux.registered one).queryId = (mux.registered two).queryId → one = two := by
  refine ⟨fun mux thread attempt conn created => ?_, ?_⟩
  · have returns := nextQueryId_returns mux.queries mux.queryId
    refine ⟨returns, ?_⟩
    unfold register
    cases searched : nextQueryId mux.queries mux.queryId (2 ^ 16) mux.queryId with
    | running => exact absurd searched returns
    | exhausted => exact .inl ⟨nextQueryId_exhausted searched, rfl, rfl⟩
    | found queryId =>
      obtain ⟨_, _, _, free, _⟩ := nextQueryId_spec searched
      exact .inr ⟨queryId, free, rfl, rfl⟩
  · intro events mux ran one two first second same
    have start : Kept {} := fun _ known => absurd known (Nat.not_lt_zero _)
    have kept : Kept mux := run_invariant (fun _ _ _ => kept_step) start ran
    obtain ⟨pending, entry, rfl⟩ := (kept one first.1).resolve_left first.2
    obtain ⟨other, found, rfl⟩ := (kept two second.1).resolve_left second.2
    rw [same, found] at entry
    cases entry
    rfl

end AmneziaBox.Guarantees.MultiplexerIsolation
