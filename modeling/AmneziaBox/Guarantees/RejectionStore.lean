import AmneziaBox.Library.History
import AmneziaBox.Source.DNS.LegacyExchange

/-!
# The store of rejected responses

A response that the address limit of a rule refuses is remembered under the server, the name and
the type of the question, without the rule. A later exchange of any limited rule with that
server then counts as rejected and the next rule is tried. Compared with the client that has no
such store, a sequence of queries gets the same answers from the same rules exactly if, without
the store, no exchange succeeds or fails for which a rejection was seen before.

The two clients are run side by side. Their caches stay the same, since a rejected response is
not cached, and the store holds what the client without it has seen refused.
-/
namespace AmneziaBox.Guarantees.RejectionStore
open Library Source.Adapter Source.DNS List

/-! ## Statement -/

def withRDRC (config : ClientOptions) : ClientOptions := { config with storeRDRC := true }
def withoutRDRC (config : ClientOptions) : ClientOptions := { config with storeRDRC := false }

/-- An address limit refused a response to the question. -/
def Refused (log : List ClientObservation) (key : SaveCacheKey) : Prop :=
  .limited key .refused ∈ log ∨ .refreshRefused key ∈ log

/-- What was refused once for a question is rejected by every limit. -/
def Consistent : ClientObservation → List ClientObservation → Prop
  | .limited key verdict, past => Refused past key → verdict = .refused ∨ verdict = .unusable
  | _, _ => True

/-- The client with the store beside the one without it. -/
structure Coupled (stored plain : Client) : Prop where
  cache : stored.cache = plain.cache
  dnsCache : stored.dnsCache = plain.dnsCache
  backgroundRefresh : stored.backgroundRefresh = plain.backgroundRefresh
  rdrc : ∀ key, stored.rdrc key = true ↔ Refused plain.log key

/-- The history goes on, without a new inconsistency. -/
structure Keeps (client next : Client) : Prop where
  log : client.log <:+ next.log
  consistent : Always Consistent client.log → Always Consistent next.log

theorem Keeps.refl (client : Client) : Keeps client client := ⟨suffix_refl _, id⟩

theorem Keeps.trans {first second third : Client} (one : Keeps first second)
    (two : Keeps second third) : Keeps first third :=
  ⟨one.log.trans two.log, fun consistent => two.consistent (one.consistent consistent)⟩

theorem Keeps.of_log {client next : Client} (same : next.log = client.log) : Keeps client next :=
  ⟨same ▸ suffix_refl _, fun consistent => same ▸ consistent⟩

theorem Keeps.observe (client : Client) {observation : ClientObservation}
    (consistent : Consistent observation client.log) : Keeps client (client.observe observation) :=
  ⟨suffix_cons .., fun always => ⟨consistent, always⟩⟩

/-- An inconsistency stays in the history. -/
theorem inconsistent_of_suffix {log past : List ClientObservation} (suffix : past <:+ log)
    (broken : ¬ Always Consistent past) : ¬ Always Consistent log := by
  obtain ⟨later, rfl⟩ := suffix
  exact fun always => broken always.suffix

section Steps
variable (wire : Wire) (config : ClientOptions) (servers : Servers) {stored plain : Client}

/-- The client without the store notes something that is no new refusal. -/
theorem Coupled.right {right : ClientObservation} (coupled : Coupled stored plain)
    (same : ∀ key, Refused (right :: plain.log) key ↔ Refused plain.log key) :
    Coupled stored (plain.observe right) :=
  { coupled with rdrc := fun key => (coupled.rdrc key).trans (same key).symm }

theorem Coupled.left (coupled : Coupled stored plain) (left : ClientObservation) :
    Coupled (stored.observe left) plain :=
  { coupled with }

variable {log : List ClientObservation}

theorem refused_other {right : ClientObservation}
    (silent : ∀ key, right ≠ .limited key .refused ∧ right ≠ .refreshRefused key)
    (key : SaveCacheKey) : Refused (right :: log) key ↔ Refused log key := by
  simp [Refused, Ne.symm (silent key).1, Ne.symm (silent key).2]

section Coupled
variable (coupled : Coupled stored plain)
include coupled

theorem Coupled.observe {left right : ClientObservation}
    (silent : ∀ key, right ≠ .limited key .refused ∧ right ≠ .refreshRefused key) :
    Coupled (stored.observe left) (plain.observe right) :=
  (coupled.right (refused_other silent)).left left

/-! ## The caches -/

theorem load_coupled (key : DNSCacheKey) (now : Nat) :
    ∃ loaded stored' plain', loadResponse wire (withRDRC config) stored key now = (loaded, stored') ∧
      loadResponse wire (withoutRDRC config) plain key now = (loaded, plain') ∧
      Coupled stored' plain' ∧ plain'.log = plain.log := by
  have served : ∀ message expireAt now, serve (withRDRC config) message expireAt now =
      serve (withoutRDRC config) message expireAt now := fun _ _ _ => rfl
  have place : (withRDRC config).storeDNS = (withoutRDRC config).storeDNS := rfl
  unfold loadResponse
  simp only [served, place, coupled.dnsCache, coupled.cache]
  split
  · exact ⟨_, _, _, rfl, rfl, coupled, rfl⟩
  · split
    · exact ⟨_, _, _, rfl, rfl, coupled, rfl⟩
    · split
      · exact ⟨_, _, _, rfl, rfl, coupled, rfl⟩
      · exact ⟨_, _, _, rfl, rfl, ⟨rfl, rfl, coupled.backgroundRefresh, coupled.rdrc⟩, rfl⟩

theorem refresh_coupled (refresh : Refresh) :
    Coupled (backgroundRefreshDNS stored refresh) (backgroundRefreshDNS plain refresh) ∧
      (backgroundRefreshDNS plain refresh).log = plain.log := by
  unfold backgroundRefreshDNS
  rw [coupled.backgroundRefresh]
  split
  · exact ⟨coupled, rfl⟩
  · exact ⟨{ coupled with backgroundRefresh := rfl }, rfl⟩

theorem answer_coupled (now : Nat) (transport : DNSTransport)
    (operation : ExchangeOperation) :
    ∃ cached stored' plain',
      answerFromCache wire (withRDRC config) stored now transport operation = (cached, stored') ∧
      answerFromCache wire (withoutRDRC config) plain now transport operation = (cached, plain') ∧
      Coupled stored' plain' ∧ Keeps plain plain' := by
  obtain ⟨loaded, stored', plain', left, right, coupled, log⟩ :=
    load_coupled wire config coupled operation.cacheKey now
  unfold answerFromCache
  rw [left, right]
  cases loaded with
  | none => exact ⟨_, _, _, rfl, rfl, coupled, .of_log log⟩
  | some loaded =>
    dsimp only
    split
    · exact ⟨_, _, _, rfl, rfl, coupled, .of_log log⟩
    · have refreshed : ∀ refresh, Coupled
          (if loaded.isStale then backgroundRefreshDNS stored' refresh else stored')
          (if loaded.isStale then backgroundRefreshDNS plain' refresh else plain') ∧
          (if loaded.isStale then backgroundRefreshDNS plain' refresh else plain').log =
            plain.log := by
        intro refresh
        obtain ⟨next, same⟩ := refresh_coupled coupled refresh
        split
        · exact ⟨next, same.trans log⟩
        · exact ⟨coupled, log⟩
      obtain ⟨next, same⟩ := refreshed
        { transport := transport
          key := operation.cacheKey
          message := operation.message
          options := operation.options
          responseChecker := operation.responseChecker }
      split
      · exact ⟨_, _, _, rfl, rfl, next, .of_log same⟩
      · exact ⟨_, _, _, rfl, rfl, next.observe fun _ => ⟨nofun, nofun⟩,
          (Keeps.of_log same).trans (.observe _ trivial)⟩

theorem storeCache_coupled (key : DNSCacheKey) (message : Msg)
    (timeToLive : BitVec 32) (now : Nat) :
    (storeCache wire (withRDRC config) stored key message timeToLive now = none ∧
      storeCache wire (withoutRDRC config) plain key message timeToLive now = none) ∨
    ∃ stored' plain',
      storeCache wire (withRDRC config) stored key message timeToLive now = some stored' ∧
      storeCache wire (withoutRDRC config) plain key message timeToLive now = some plain' ∧
      Coupled stored' plain' ∧ plain'.log = plain.log := by
  have place : (withRDRC config).storeDNS = (withoutRDRC config).storeDNS := rfl
  unfold storeCache
  rw [place, coupled.dnsCache, coupled.cache]
  split
  · exact .inl ⟨rfl, rfl⟩
  · split
    · cases wire.pack message with
      | none => exact .inl ⟨rfl, rfl⟩
      | some rawMessage =>
        exact .inr ⟨_, _, rfl, rfl, ⟨rfl, rfl, coupled.backgroundRefresh, coupled.rdrc⟩, rfl⟩
    · exact .inr ⟨_, _, rfl, rfl, ⟨rfl, rfl, coupled.backgroundRefresh, coupled.rdrc⟩, rfl⟩

theorem storeResponse_coupled (moment : Moment)
    (transport : DNSTransport) (key : DNSCacheKey) (options : DNSQueryOptions) (response : Msg) :
    Coupled (storeResponse wire (withRDRC config) stored moment transport key options response)
      (storeResponse wire (withoutRDRC config) plain moment transport key options response) ∧
    Keeps plain (storeResponse wire (withoutRDRC config) plain moment transport key options
      response) := by
  unfold storeResponse
  split
  · exact ⟨coupled, .refl _⟩
  · next key _ =>
    dsimp only
    rcases storeCache_coupled wire config coupled key
      (applyResponseOptions key.question response options).1
      (applyResponseOptions key.question response options).2 moment.now with
      ⟨left, right⟩ | ⟨stored', plain', left, right, next, log⟩
    · rw [left, right]
      exact ⟨coupled, .refl _⟩
    · rw [left, right]
      exact ⟨next.observe fun _ => ⟨nofun, nofun⟩, (Keeps.of_log log).trans (.observe _ trivial)⟩

end Coupled

theorem storeResponse_log (config : ClientOptions) (client : Client) (moment : Moment)
    (transport : DNSTransport) (key : DNSCacheKey) (options : DNSQueryOptions) (response : Msg) :
    client.log <:+
      (storeResponse wire config client moment transport key options response).log := by
  unfold storeResponse storeCache
  split
  · exact suffix_refl _
  · dsimp only
    split
    · exact suffix_refl _
    · next next store =>
      have log : next.log = client.log := by
        split at store
        · cases store
        · split at store
          · obtain ⟨_, _, rfl⟩ := Option.map_eq_some_iff.mp store
            rfl
          · cases store
            rfl
      show client.log <:+ _ :: next.log
      rw [log]
      exact suffix_cons ..

/-! ## Exchanges -/

variable {key : SaveCacheKey}

/-- A refusal is put into the store, and the other client notes it. -/
theorem Coupled.refuse {right : ClientObservation} (coupled : Coupled stored plain)
    (noted : ∀ other, Refused (right :: plain.log) other ↔ other = key ∨ Refused plain.log other) :
    Coupled (saveRDRC (withRDRC config) stored key) (plain.observe right) where
  cache := coupled.cache
  dnsCache := coupled.dnsCache
  backgroundRefresh := coupled.backgroundRefresh
  rdrc other := by
    show Function.update stored.rdrc key true other = true ↔ Refused (right :: plain.log) other
    rw [Function.update_apply, noted]
    split
    · next same => exact ⟨fun _ => .inl same, fun _ => rfl⟩
    · next different =>
      exact (coupled.rdrc other).trans ⟨.inr, fun either => either.resolve_left different⟩

theorem refused_limited {other : SaveCacheKey} :
    Refused (.limited key .refused :: log) other ↔ other = key ∨ Refused log other := by
  simp [Refused, or_assoc]

theorem refused_refresh {other : SaveCacheKey} :
    Refused (.refreshRefused key :: log) other ↔ other = key ∨ Refused log other := by
  simp only [Refused, mem_cons, ClientObservation.refreshRefused.injEq, reduceCtorEq,
    false_or]
  tauto

variable {operation : ExchangeOperation} {response : Msg} {transport : DNSTransport}

/-- A response that is refused has met a limit. -/
theorem checker_of_refuses (refused : refuses operation.responseChecker response = true) :
    operation.responseChecker.isSome = true := by
  cases checker : operation.responseChecker with
  | none => rw [checker] at refused; cases refused
  | some => rfl

theorem limited_of_refuses (refused : refuses operation.responseChecker response = true) :
    operation.limited = !operation.disableCache := by
  rw [ExchangeOperation.limited, checker_of_refuses refused, Bool.and_true]

/-- The verdict on an exchange that both clients send. -/
theorem note_coupled (operation : ExchangeOperation) (coupled : Coupled stored plain)
    {verdict : LimitVerdict} (other : verdict ≠ .refused) (key : SaveCacheKey) :
    Coupled (if operation.limited then stored.observe (.limited key verdict) else stored)
      (if operation.limited then plain.observe (.limited key verdict) else plain) := by
  split
  · exact coupled.observe fun _ => ⟨fun same => other (by cases same; rfl), nofun⟩
  · exact coupled

theorem note_keeps (fresh : operation.limited = true → ¬ Refused plain.log key)
    (verdict : LimitVerdict) :
    Keeps plain (if operation.limited then plain.observe (.limited key verdict) else plain) := by
  split
  · next limited => exact .observe _ fun refused => absurd refused (fresh limited)
  · exact .refl _

section
variable (coupled : Coupled stored plain) (finish : Moment)
include coupled finish

/-- Both clients send, since no rejection is known. -/
theorem send_coupled
    (fresh : operation.limited = true → ¬ Refused plain.log (rdrcKey transport operation.question)) :
    ∃ result stored' plain',
      sendExchange wire (withRDRC config) servers stored finish transport operation =
        (result, stored') ∧
      sendExchange wire (withoutRDRC config) servers plain finish transport operation =
        (result, plain') ∧
      Coupled stored' plain' ∧ Keeps plain plain' := by
  unfold sendExchange
  generalize exchangeToTransport servers transport operation.message = upstream
  have keeps := note_keeps fresh (verdictOf operation upstream)
  cases upstream with
  | error err =>
    have other : verdictOf operation (.error err) ≠ .refused := by
      rw [verdictOf]
      cases err.isRejection <;> simp
    exact ⟨_, _, _, rfl, rfl, note_coupled operation coupled other _, keeps⟩
  | ok response =>
    unfold finishExchange
    dsimp only
    cases refused : refuses operation.responseChecker response with
    | true =>
      have limited := limited_of_refuses refused
      cases cacheable : rcodeCacheable response with
      | false =>
        have other : verdictOf operation (.ok response) ≠ .refused := by
          simp [verdictOf, refused, cacheable]
        simp only [Bool.not_false, Bool.or_true, if_true]
        exact ⟨_, _, _, rfl, rfl, note_coupled operation coupled other _, keeps⟩
      | true =>
        have verdict : verdictOf operation (.ok response) = .refused := by
          simp [verdictOf, refused, cacheable]
        rw [verdict] at keeps ⊢
        cases disabled : operation.disableCache with
        | true =>
          simp only [limited, disabled, Bool.not_true, Bool.false_eq_true, if_false, if_true]
          exact ⟨_, _, _, rfl, rfl, coupled, .refl _⟩
        | false =>
          simp only [limited, disabled, Bool.not_false, if_true]
            at keeps ⊢
          exact ⟨_, _, _, rfl, rfl, (coupled.left _).refuse config fun _ => refused_limited, keeps⟩
    | false =>
      have other : verdictOf operation (.ok response) ≠ .refused := by
        simp [verdictOf, refused]
      have noted := note_coupled operation coupled other (rdrcKey transport operation.question)
      simp only [Bool.false_eq_true, if_false]
      split
      · exact ⟨_, _, _, rfl, rfl, noted, keeps⟩
      · obtain ⟨next, more⟩ := storeResponse_coupled wire config noted finish transport
          operation.cacheKey operation.options response
        exact ⟨_, _, _, rfl, rfl, next, keeps.trans more⟩

/-- Only the client without the store sends, since a rejection is known. Either the exchange
is rejected there too, or the history is inconsistent. -/
theorem send_known (limited : operation.limited = true)
    (known : Refused plain.log (rdrcKey transport operation.question))
    {result : Except DNSError Msg} {plain' : Client}
    (sent : sendExchange wire (withoutRDRC config) servers plain finish transport operation =
      (result, plain')) :
    (isRejected result = true ∧ Coupled stored plain' ∧ Keeps plain plain') ∨
    (isRejected result = false ∧ plain.log <:+ plain'.log ∧ ¬ Always Consistent plain'.log) := by
  have rejected : ∀ verdict, verdict = .refused ∨ verdict = .unusable →
      Coupled stored (plain.observe (.limited (rdrcKey transport operation.question) verdict)) ∧
      Keeps plain (plain.observe (.limited (rdrcKey transport operation.question) verdict)) := by
    intro verdict cases
    refine ⟨coupled.right fun other => ?_, .observe _ fun _ => cases⟩
    rcases cases with rfl | rfl
    · rw [refused_limited]
      exact ⟨fun either => either.elim (fun same => same ▸ known) id, .inr⟩
    · exact refused_other (fun _ => by simp) other
  have broken : ∀ verdict, verdict = .accepted ∨ verdict = .failed → ¬ Always Consistent
      (.limited (rdrcKey transport operation.question) verdict :: plain.log) := by
    rintro verdict (rfl | rfl) ⟨consistent, _⟩
    · exact absurd (consistent known) (by simp)
    · exact absurd (consistent known) (by simp)
  unfold sendExchange at sent
  dsimp only at sent
  rw [if_pos limited] at sent
  generalize exchangeToTransport servers transport operation.message = upstream at sent
  cases upstream with
  | error err =>
    cases sent
    cases rejection : err.isRejection with
    | true =>
      have verdict : verdictOf operation (.error err) = .unusable := by
        simp [verdictOf, rejection]
      rw [verdict]
      exact .inl ⟨rejection, rejected _ (.inr rfl)⟩
    | false =>
      have verdict : verdictOf operation (.error err) = .failed := by
        simp [verdictOf, rejection]
      rw [verdict]
      exact .inr ⟨rejection, suffix_cons .., broken _ (.inr rfl)⟩
  | ok response =>
    unfold finishExchange at sent
    dsimp only at sent
    cases refused : refuses operation.responseChecker response with
    | true =>
      have verdict : verdictOf operation (.ok response) = .refused ∨
          verdictOf operation (.ok response) = .unusable := by
        unfold verdictOf
        cases rcodeCacheable response <;> simp [refused]
      have kept : ∀ client : Client, (if (operation.disableCache || !rcodeCacheable response) = true
          then client else saveRDRC (withoutRDRC config) client
            (rdrcKey transport operation.question)) = client := by
        intro client
        split <;> rfl
      rw [refused, kept] at sent
      cases sent
      exact .inl ⟨rfl, rejected _ verdict⟩
    | false =>
      have verdict : verdictOf operation (.ok response) = .accepted := by
        simp [verdictOf, refused]
      rw [refused, verdict] at sent
      cases sent
      refine .inr ⟨rfl, ?_⟩
      split
      · exact ⟨suffix_cons .., broken _ (.inl rfl)⟩
      · have later := storeResponse_log wire (withoutRDRC config) (plain.observe (.limited
          (rdrcKey transport operation.question) .accepted)) finish transport operation.cacheKey
          operation.options response
        exact ⟨(suffix_cons ..).trans later, inconsistent_of_suffix later (broken _ (.inl rfl))⟩

theorem finishRefresh_coupled (refresh : Refresh) :
    Coupled (finishRefresh wire (withRDRC config) servers stored finish refresh)
      (finishRefresh wire (withoutRDRC config) servers plain finish refresh) ∧
    Keeps plain (finishRefresh wire (withoutRDRC config) servers plain finish refresh) := by
  unfold finishRefresh
  have ended : Coupled
      { stored with backgroundRefresh :=
        stored.backgroundRefresh.filter (·.key != refresh.key) }
      { plain with backgroundRefresh :=
        plain.backgroundRefresh.filter (·.key != refresh.key) } :=
    { coupled with backgroundRefresh := by rw [coupled.backgroundRefresh] }
  split
  · exact ⟨ended, .of_log rfl⟩
  · split
    · exact ⟨(ended.refuse config fun _ => refused_refresh).left _,
        ⟨suffix_cons .., fun always => ⟨trivial, always⟩⟩⟩
    · split
      · exact ⟨ended, .of_log rfl⟩
      · obtain ⟨next, more⟩ := storeResponse_coupled wire config ended finish refresh.transport
          refresh.key refresh.options _
        exact ⟨next, ⟨more.log, more.consistent⟩⟩

end

/-- How an exchange goes for the two clients: alike, or rejected for both, or rejected for the
client with the store alone. -/
inductive Together (plain : Client) (checker : Option (Option Msg → Bool)) :
    Except DNSError Msg × Client → Except DNSError Msg × Client → Prop
  | same {result : Except DNSError Msg} {stored' plain' : Client}
      (coupled : Coupled stored' plain') (keeps : Keeps plain plain') :
      Together plain checker (result, stored') (result, plain')
  | rejected {left right : Except DNSError Msg} {stored' plain' : Client}
      (limited : checker.isSome = true) (leftRejected : isRejected left = true)
      (rightRejected : isRejected right = true)
      (coupled : Coupled stored' plain') (keeps : Keeps plain plain') :
      Together plain checker (left, stored') (right, plain')
  | apart {left right : Except DNSError Msg} {stored' plain' : Client}
      (limited : checker.isSome = true) (leftRejected : isRejected left = true)
      (rightServed : isRejected right = false) (log : plain.log <:+ plain'.log)
      (broken : ¬ Always Consistent plain'.log) :
      Together plain checker (left, stored') (right, plain')

theorem exchange_together (coupled : Coupled stored plain) (start finish : Moment)
    (query : ClientQuery) :
    Together plain query.responseChecker
      (stored.exchange wire (withRDRC config) servers start finish query)
      (plain.exchange wire (withoutRDRC config) servers start finish query) := by
  unfold Client.exchange beginExchange
  cases query.message.question with
  | nil => exact .same coupled (.refl _)
  | cons question rest =>
    dsimp only
    cases strategyRejected question query.options with
    | true => exact .same coupled (.refl _)
    | false =>
      have operation_eq : operationFor (withRDRC config) start query question =
          operationFor (withoutRDRC config) start query question := rfl
      rw [operation_eq]
      generalize made : operationFor (withoutRDRC config) start query question = operation
      have checker : operation.responseChecker = query.responseChecker := by rw [← made]; rfl
      obtain ⟨cached, stored', plain', left, right, coupled, keeps⟩ : ∃ cached stored' plain',
          (if operation.disableCache then (none, stored) else
            answerFromCache wire (withRDRC config) stored start.now query.transport operation) =
              (cached, stored') ∧
          (if operation.disableCache then (none, plain) else
            answerFromCache wire (withoutRDRC config) plain start.now query.transport operation) =
              (cached, plain') ∧ Coupled stored' plain' ∧ Keeps plain plain' := by
        split
        · exact ⟨_, _, _, rfl, rfl, coupled, .refl _⟩
        · exact answer_coupled wire config coupled start.now query.transport operation
      rw [left, right]
      cases cached with
      | some result => exact .same coupled keeps
      | none =>
        have off : (withoutRDRC config).storeRDRC = false := rfl
        have on : (withRDRC config).storeRDRC = true := rfl
        simp only [proceed, off, on, Bool.and_false, Bool.false_and, Bool.false_eq_true, if_false,
          Bool.and_true]
        by_cases loopback : query.contextTransport = some query.transport.tag
        · simp only [if_pos loopback]
          exact .same coupled keeps
        · simp only [if_neg loopback]
          by_cases known : (operation.limited &&
            stored'.rdrc (rdrcKey query.transport operation.question)) = true
          · simp only [if_pos known]
            rw [Bool.and_eq_true] at known
            generalize sent : sendExchange wire (withoutRDRC config) servers plain' finish
              query.transport operation = outcome
            obtain ⟨result, plain''⟩ := outcome
            have limited : query.responseChecker.isSome = true := by
              rw [← checker]
              exact (Bool.and_eq_true _ _ ▸ known.1).2
            rcases send_known wire config servers coupled finish known.1
              ((coupled.rdrc _).mp known.2) sent with
              ⟨rejected, next, more⟩ | ⟨served, log, broken⟩
            · exact .rejected limited rfl rejected next (keeps.trans more)
            · exact .apart limited rfl served (keeps.log.trans log) broken
          · simp only [if_neg known]
            have fresh : operation.limited = true →
                ¬ Refused plain'.log (rdrcKey query.transport operation.question) := by
              intro limited refused
              exact known (by rw [limited, (coupled.rdrc _).mpr refused]; rfl)
            obtain ⟨result, stored'', plain'', left, right, next, more⟩ :=
              send_coupled wire config servers coupled finish fresh
            rw [left, right]
            exact .same next (keeps.trans more)

theorem clientExchange_together (query : LegacyQuery) (round : Nat)
    (coupled : Coupled stored plain) (transport : Option DNSTransport) (options : DNSQueryOptions)
    (check : Option (Option Msg → Bool)) :
    Together plain check
      (clientExchange wire (withRDRC config) servers query round stored transport options check)
      (clientExchange wire (withoutRDRC config) servers query round plain transport options
        check) := by
  cases transport with
  | none => exact .same coupled (.refl _)
  | some transport =>
    exact exchange_together wire config servers coupled (query.clock round).1 (query.clock round).2
      ⟨transport, query.message, options, check, query.contextTransport⟩

/-- Every client without the store is one beside some client with it. -/
theorem exists_coupled (plain : Client) : ∃ stored, Coupled stored plain := by
  classical
  exact ⟨{ plain with rdrc := fun key => decide (Refused plain.log key) }, rfl, rfl, rfl,
    fun _ => decide_eq_true_iff⟩

theorem clientExchange_log (query : LegacyQuery) (round : Nat) (plain : Client)
    (transport : Option DNSTransport) (options : DNSQueryOptions)
    (check : Option (Option Msg → Bool)) :
    plain.log <:+ (clientExchange wire (withoutRDRC config) servers query round plain transport
      options check).2.log := by
  obtain ⟨stored, coupled⟩ := exists_coupled plain
  have together :=
    clientExchange_together wire config servers query round coupled transport options check
  generalize clientExchange wire (withRDRC config) servers query round stored transport options
    check = left at together
  generalize clientExchange wire (withoutRDRC config) servers query round plain transport options
    check = right at together ⊢
  cases together with
  | same _ keeps | rejected _ _ _ _ keeps => exact keeps.log
  | apart _ _ _ log => exact log

end Steps

/-! ## Queries -/

section Queries
variable (wire : Wire) (config : ClientOptions) (router : Router) (rules : List DNSRule)
  (servers : Servers) {stored plain stored' plain' : Client} {left right : LegacyAnswer}

section
variable {fuel start : Nat} {metadata : InboundContext} (query : LegacyQuery)
include query

/-- The rounds of one query: the same rule gives the same answer, or the history is
inconsistent and another rule answers. -/
theorem rounds_together (inside : start ≤ rules.length) (coupled : Coupled stored plain)
    (leftRan : legacyRounds router rules query.message query.options
      (clientExchange wire (withRDRC config) servers query) fuel start metadata stored = some (left, stored'))
    (rightRan : legacyRounds router rules query.message query.options
      (clientExchange wire (withoutRDRC config) servers query) fuel start metadata plain = some (right, plain')) :
    (left = right ∧ Coupled stored' plain' ∧ Keeps plain plain') ∨
    (left ≠ right ∧ ¬ Always Consistent plain'.log) := by
  induction fuel generalizing start metadata stored plain with
  | zero => cases leftRan
  | succ fuel ih =>
    unfold legacyRounds at leftRan rightRan
    have bounds := @matchDNS_index router rules true (isAddressQuery query.message) metadata
      query.options start
    generalize matchDNS router rules true start (isAddressQuery query.message) metadata
      query.options = round at leftRan rightRan bounds
    obtain ⟨found, dnsOptions, metadata'⟩ := round
    dsimp only at leftRan rightRan bounds
    split at leftRan
    · next result here =>
      rw [here] at rightRan
      cases leftRan
      cases rightRan
      exact .inl ⟨rfl, coupled, .refl _⟩
    · next here =>
      rw [here] at rightRan
      have together := clientExchange_together wire config servers query fuel coupled
        found.transport (finalizeExchangeOptions router dnsOptions)
        (addressLimitResponseCheck found.rule metadata')
      generalize clientExchange wire (withRDRC config) servers query fuel stored found.transport
        (finalizeExchangeOptions router dnsOptions)
        (addressLimitResponseCheck found.rule metadata') = leftOutcome at together leftRan
      generalize clientExchange wire (withoutRDRC config) servers query fuel plain found.transport
        (finalizeExchangeOptions router dnsOptions)
        (addressLimitResponseCheck found.rule metadata') = rightOutcome at together rightRan
      -- after a rejection both go on behind the rule that was rejected
      have onward : ∀ {stored'' plain'' next}, Coupled stored'' plain'' → Keeps plain plain'' →
          next ≤ rules.length →
          legacyRounds router rules query.message query.options
            (clientExchange wire (withRDRC config) servers query) fuel next metadata' stored'' =
              some (left, stored') →
          legacyRounds router rules query.message query.options
            (clientExchange wire (withoutRDRC config) servers query) fuel next metadata' plain'' =
              some (right, plain') →
          (left = right ∧ Coupled stored' plain' ∧ Keeps plain plain') ∨
            (left ≠ right ∧ ¬ Always Consistent plain'.log) := by
        intro stored'' plain'' next coupled keeps inside leftRan rightRan
        refine (ih inside coupled leftRan rightRan).imp_left ?_
        rintro ⟨same, coupled, more⟩
        exact ⟨same, coupled, keeps.trans more⟩
      cases together with
      | same coupled keeps =>
        split at leftRan
        · next rejected =>
          rw [if_pos rejected] at rightRan
          rw [Bool.and_eq_true] at rejected
          obtain ⟨index, rule, chosen, next⟩ := next_of_check rejected.1
          have range := bounds inside chosen
          exact onward coupled keeps (Nat.le_trans (Nat.le_of_eq next) (by omega)) leftRan rightRan
        · next served =>
          rw [if_neg served] at rightRan
          cases leftRan
          cases rightRan
          exact .inl ⟨rfl, coupled, keeps⟩
      | rejected limited leftRejected rightRejected coupled keeps =>
        rw [limited, leftRejected] at leftRan
        rw [limited, rightRejected] at rightRan
        obtain ⟨index, rule, chosen, next⟩ := next_of_check limited
        have range := bounds inside chosen
        exact onward coupled keeps (Nat.le_trans (Nat.le_of_eq next) (by omega)) leftRan rightRan
      | apart limited leftRejected rightServed log broken =>
        rw [limited, leftRejected, if_pos (Bool.and_self true)] at leftRan
        rw [limited, rightServed] at rightRan
        cases rightRan
        obtain ⟨index, rule, chosen, next⟩ := next_of_check limited
        have range := bounds inside chosen
        rw [next] at leftRan
        refine .inr ⟨fun same => ?_, broken⟩
        have answered : left.rule = some index := by rw [same, chosen]; rfl
        have later := legacyRounds_rule (by omega) leftRan answered
        omega

theorem rounds_log
    (ran : legacyRounds router rules query.message query.options
      (clientExchange wire (withoutRDRC config) servers query) fuel start metadata plain = some (right, plain')) :
    plain.log <:+ plain'.log := by
  induction fuel generalizing start metadata plain with
  | zero => cases ran
  | succ fuel ih =>
    unfold legacyRounds at ran
    dsimp only at ran
    split at ran
    · cases ran
      exact suffix_refl _
    · split at ran
      · exact (clientExchange_log wire config servers query fuel plain ..).trans (ih ran)
      · cases ran
        exact clientExchange_log wire config servers query fuel plain ..

end

theorem run_log {events : List LegacyEvent} {answers : List LegacyAnswer}
    (ran : legacyRun wire (withoutRDRC config) router rules servers events plain =
      some (answers, plain')) : plain.log <:+ plain'.log := by
  induction events generalizing plain answers with
  | nil =>
    cases ran
    exact suffix_refl _
  | cons event rest ih =>
    unfold legacyRun at ran
    cases event with
    | query query =>
      dsimp only at ran
      split at ran
      · cases ran
      · next exchanged =>
        obtain ⟨⟨_, _⟩, rest, same⟩ := Option.map_eq_some_iff.mp ran
        cases same
        exact (rounds_log wire config router rules servers query exchanged).trans (ih rest)
    | refreshed finish index =>
      dsimp only at ran
      split at ran
      · exact ih ran
      · next refresh _ =>
        obtain ⟨stored, coupled⟩ := exists_coupled plain
        exact (finishRefresh_coupled wire config servers coupled finish refresh).2.log.trans (ih ran)
    | evict | cleanup | clear =>
      have later := ih ran
      exact later

theorem exchangeLegacyOn_isSome (config : ClientOptions) (client : Client) (query : LegacyQuery) :
    ∃ answer next, exchangeLegacyOn wire config router rules servers client query =
      some (answer, next) := by
  have some : (exchangeLegacyOn wire config router rules servers client query).isSome = true :=
    legacyRounds_isSome (Nat.zero_le _) (Nat.le_of_eq (Nat.zero_add _).symm)
  obtain ⟨⟨answer, next⟩, ran⟩ := Option.isSome_iff_exists.mp some
  exact ⟨answer, next, ran⟩

/-- Every sequence of queries is answered. -/
theorem legacyRun_isSome (config : ClientOptions) (events : List LegacyEvent) (client : Client) :
    ∃ answers next, legacyRun wire config router rules servers events client =
      some (answers, next) := by
  induction events generalizing client with
  | nil => exact ⟨_, _, rfl⟩
  | cons event rest ih =>
    unfold legacyRun
    cases event with
    | query query =>
      obtain ⟨answer, next, exchanged⟩ :=
        exchangeLegacyOn_isSome wire router rules servers config client query
      obtain ⟨answers, last, ran⟩ := ih next
      exact ⟨answer :: answers, last, by dsimp only; rw [exchanged]; dsimp only; rw [ran]; rfl⟩
    | refreshed finish index =>
      dsimp only
      split
      · exact ih _
      · exact ih _
    | evict | cleanup | clear => exact ih _

theorem run_together {events : List LegacyEvent} {answers : List LegacyAnswer}
    (coupled : Coupled stored plain) (consistent : Always Consistent plain.log)
    (ran : legacyRun wire (withoutRDRC config) router rules servers events plain =
      some (answers, plain')) :
    (∃ stored', legacyRun wire (withRDRC config) router rules servers events stored =
      some (answers, stored')) ↔ Always Consistent plain'.log := by
  induction events generalizing stored plain answers with
  | nil =>
    cases ran
    exact ⟨fun _ => consistent, fun _ => ⟨stored, rfl⟩⟩
  | cons event rest ih =>
    unfold legacyRun at ran ⊢
    cases event with
    | query query =>
      dsimp only at ran ⊢
      obtain ⟨left, stored'', leftRan⟩ :=
        exchangeLegacyOn_isSome wire router rules servers (withRDRC config) stored query
      rw [leftRan]
      split at ran
      · cases ran
      · next right plain'' rightRan =>
        obtain ⟨⟨tail, _⟩, later, same⟩ := Option.map_eq_some_iff.mp ran
        cases same
        rcases rounds_together wire config router rules servers query (Nat.zero_le _) coupled
          leftRan rightRan with ⟨rfl, next, keeps⟩ | ⟨different, broken⟩
        · rw [← ih next (keeps.consistent consistent) later]
          constructor
          · rintro ⟨stored', both⟩
            obtain ⟨⟨_, _⟩, leftLater, same⟩ := Option.map_eq_some_iff.mp both
            cases same
            exact ⟨_, leftLater⟩
          · rintro ⟨stored', leftLater⟩
            exact ⟨stored', by rw [leftLater]; rfl⟩
        · constructor
          · rintro ⟨stored', both⟩
            obtain ⟨⟨_, _⟩, _, same⟩ := Option.map_eq_some_iff.mp both
            cases same
            exact absurd rfl different
          · intro always
            exact absurd always (inconsistent_of_suffix
              (run_log wire config router rules servers later) broken)
    | refreshed finish index =>
      dsimp only at ran ⊢
      rw [coupled.backgroundRefresh]
      split at ran
      · exact ih coupled consistent ran
      · next refresh _ =>
        obtain ⟨next, keeps⟩ := finishRefresh_coupled wire config servers coupled finish refresh
        exact ih next (keeps.consistent consistent) ran
    | evict key =>
      refine ih ?_ ?_ ran
      · exact { coupled with cache := congrArg (Function.update · key none) coupled.cache }
      · exact consistent
    | cleanup key =>
      refine ih ?_ ?_ ran
      · exact { coupled with dnsCache := congrArg (Function.update · key none) coupled.dnsCache }
      · exact consistent
    | clear =>
      refine ih ?_ ?_ ran
      · exact { coupled with cache := rfl, dnsCache := rfl }
      · exact consistent

/-- Over any sequence of queries, the store of rejected responses changes neither an answer nor
the rule that gives it exactly if, without the store, every exchange of a limited rule is
rejected for whose question a limit has refused a response before. -/
theorem rejection_store_transparent_iff (events : List LegacyEvent) :
    ∃ answers plain, legacyRun wire (withoutRDRC config) router rules servers events {} =
      some (answers, plain) ∧
    ((∃ stored, legacyRun wire (withRDRC config) router rules servers events {} =
      some (answers, stored)) ↔ Always Consistent plain.log) := by
  obtain ⟨answers, plain, ran⟩ :=
    legacyRun_isSome wire router rules servers (withoutRDRC config) events {}
  have start : Coupled {} {} := ⟨rfl, rfl, rfl, by simp [Refused]⟩
  exact ⟨answers, plain, ran, run_together wire config router rules servers start trivial ran⟩

end Queries

/-! ## Two limits for one server -/

/-- A rule that takes the answers of a server in one range. -/
def limitedTo (server : String) (address : Addr) : DNSRule where
  tree := .default { destinationIPCIDRItems := [.ipCIDR fun addr => addr == address] }
  action := .route server false {}

def answerWith (address : Addr) : Msg where
  id := 1
  response := true
  question := [⟨"example.org.", typeA, 1⟩]
  answer := [{ name := "example.org.", data := .a address, ttl := 60 }]

/-- One server has the second address, the default server the third. -/
def twoServers : Servers := fun transport _ =>
  if transport.tag == "first" then .response (answerWith (.ipv4 2)) else .response (answerWith (.ipv4 3))

def twoLimits : List DNSRule := [limitedTo "first" (.ipv4 1), limitedTo "first" (.ipv4 2)]

def twoServerRouter : Router where
  transport server := if server == "first" then some { tag := "first" } else none
  defaultTransport := { tag := "default" }

def askOnce : LegacyEvent :=
  .query
    { metadata := { queryType := typeA }
      message := { id := 1, question := [⟨"example.org.", typeA, 1⟩] }
      options := {}
      clock := fun _ => (⟨0, fun _ => 0⟩, ⟨0, fun _ => 0⟩) }

/-- The first rule refuses the answer and the second, with the same server, would take it. With
the store the second is passed over and the default server answers. -/
theorem refusal_hides_second_limit :
    (legacyRun default (withoutRDRC {}) twoServerRouter twoLimits twoServers [askOnce] {}).map
      (·.1.map LegacyAnswer.rule) = some [some 1] ∧
    (legacyRun default (withRDRC {}) twoServerRouter twoLimits twoServers [askOnce] {}).map
      (·.1.map LegacyAnswer.rule) = some [none] := by
  constructor <;> decide +kernel

end AmneziaBox.Guarantees.RejectionStore
