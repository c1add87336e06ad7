import AmneziaBox.Source.DNS.Client

/-!
# The legacy exchange over the client

`exchangeLegacy` of `dns/router.go` with the client of `dns/client.go`, whose caches change from
one round to the next and from one query to the next. `legacyRounds` is the loop of
`legacyLoop` with a state; for a client without state the two are the same.
-/
namespace AmneziaBox.Source.DNS
open Adapter Rule

/-- Which rule answers, if not the default server, and what `exchangeLegacy` returns. -/
structure LegacyAnswer where
  rule : Option Nat
  result : ExchangeResult
  deriving DecidableEq

def isRejected : Except DNSError Msg → Bool
  | .error err => err.isRejection
  | .ok _ => false

/-- An exchange in some round, with the state of the client before and after it. -/
abbrev Exchange (σ : Type) := Nat → σ → Option DNSTransport → DNSQueryOptions →
  Option (Option Msg → Bool) → Except DNSError Msg × σ

/-- What a rule returns without a query. -/
def actionResult (message : Msg) (rule : Option (Nat × DNSRule)) : Option ExchangeResult :=
  rule.bind fun (_, rule) => (exchangeCaller (fun _ _ _ => .error .drop) message).onAction rule.action

section
variable {σ : Type} (router : Router) (rules : List DNSRule) (message : Msg)
  (options : DNSQueryOptions) (exchange : Exchange σ)

/-- The loop of `exchangeLegacy`; the rounds count down. -/
def legacyRounds : Nat → Nat → InboundContext → σ → Option (LegacyAnswer × σ)
  | 0, _, _, _ => none
  | fuel + 1, start, metadata, state =>
    let (found, dnsOptions, metadata) :=
      matchDNS router rules true start (isAddressQuery message) metadata options
    match actionResult message found.rule with
    | some result => some (⟨found.rule.map Prod.fst, result⟩, state)
    | none =>
      let responseCheck := addressLimitResponseCheck found.rule metadata
      let (answer, state) := exchange fuel state found.transport
        (finalizeExchangeOptions router dnsOptions) responseCheck
      if responseCheck.isSome && isRejected answer then
        let next := (found.rule.map fun (index, _) => index + 1).getD 0
        legacyRounds fuel next metadata state
      else some (⟨found.rule.map Prod.fst, .ofClient found.transport answer⟩, state)

end

/-- A query to the router. The clock gives the moments at which the exchange of a round begins
and ends. -/
structure LegacyQuery where
  metadata : InboundContext
  message : Msg
  options : DNSQueryOptions
  contextTransport : Option String := none
  clock : Nat → Moment × Moment

section
variable (wire : Wire) (config : ClientOptions) (router : Router) (rules : List DNSRule)
  (servers : Servers)

/-- The exchange of one round. A rule without a server does not get this far. -/
def clientExchange (query : LegacyQuery) : Exchange Client :=
  fun round client transport options responseCheck =>
    match transport with
    | none => (.error (.other "missing transport"), client)
    | some transport =>
      client.exchange wire config servers (query.clock round).1 (query.clock round).2
        { transport := transport
          message := query.message
          options := options
          responseChecker := responseCheck
          contextTransport := query.contextTransport }

def exchangeLegacyOn (client : Client) (query : LegacyQuery) : Option (LegacyAnswer × Client) :=
  legacyRounds router rules query.message query.options (clientExchange wire config servers query)
    (legacyFuel rules) 0 query.metadata client

/-- What happens to the client of a router in legacy mode. -/
inductive LegacyEvent where
  | query (query : LegacyQuery)
  /-- The background refresh at this place ends. -/
  | refreshed (finish : Moment) (index : Nat)
  | evict (key : DNSCacheKey)
  | cleanup (key : SaveCacheKey)
  | clear

/-- The answers to a sequence of queries, and the client after it. -/
def legacyRun : List LegacyEvent → Client → Option (List LegacyAnswer × Client)
  | [], client => some ([], client)
  | .query query :: rest, client =>
    match exchangeLegacyOn wire config router rules servers client query with
    | none => none
    | some (answer, client) =>
      (legacyRun rest client).map fun (answers, client) => (answer :: answers, client)
  | .refreshed finish index :: rest, client =>
    match client.backgroundRefresh[index]? with
    | none => legacyRun rest client
    | some refresh => legacyRun rest (finishRefresh wire config servers client finish refresh)
  | .evict key :: rest, client =>
    legacyRun rest { client with cache := Function.update client.cache key none }
  | .cleanup key :: rest, client =>
    legacyRun rest { client with dnsCache := Function.update client.dnsCache key none }
  | .clear :: rest, client =>
    legacyRun rest { client with cache := fun _ => none, dnsCache := fun _ => none }

end

/-! ## The rounds end -/

section
variable {router : Router} {rules : List DNSRule} {allowFakeIP isAddressQuery : Bool} {index : Nat}
  {metadata : InboundContext} {options : DNSQueryOptions}

/-- `matchDNS` finds a rule among those it was given. -/
theorem matchDNSFrom_index {found : Nat × DNSRule}
    (chosen : (matchDNSFrom router allowFakeIP isAddressQuery rules index metadata options).1.rule =
      some found) : index ≤ found.1 ∧ found.1 < index + rules.length := by
  induction rules generalizing index metadata options with
  | nil => cases chosen
  | cons rule rest ih =>
    have later : ∀ {metadata options},
        (matchDNSFrom router allowFakeIP isAddressQuery rest (index + 1) metadata options).1.rule =
          some found → index ≤ found.1 ∧ found.1 < index + (rule :: rest).length := by
      intro metadata options chosen
      obtain ⟨low, high⟩ := ih chosen
      rw [List.length_cons]
      omega
    have here : some (index, rule) = some found →
        index ≤ found.1 ∧ found.1 < index + (rule :: rest).length := by
      rintro ⟨⟩
      rw [List.length_cons]
      omega
    unfold matchDNSFrom at chosen
    dsimp only at chosen
    split at chosen
    · exact later chosen
    · split at chosen
      · split at chosen
        · split at chosen
          · exact later chosen
          · split at chosen
            · exact later chosen
            · exact here chosen
        · exact later chosen
        · exact here chosen
        · exact here chosen
        · exact later chosen
      · exact later chosen

variable {start : Nat}

theorem matchDNS_index {found : Nat × DNSRule} (inside : start ≤ rules.length)
    (chosen : (matchDNS router rules allowFakeIP start isAddressQuery metadata options).1.rule =
      some found) : start ≤ found.1 ∧ found.1 < rules.length := by
  obtain ⟨low, high⟩ := matchDNSFrom_index chosen
  rw [List.length_drop] at high
  omega

/-- Only a rule has a response check, so a rejection leads to the rule behind it. -/
theorem next_of_check {found : Option (Nat × DNSRule)}
    (check : (addressLimitResponseCheck found metadata).isSome = true) :
    ∃ index rule, found = some (index, rule) ∧
      (found.map fun (index, _) => index + 1).getD 0 = index + 1 := by
  cases found with
  | none => cases check
  | some pair => exact ⟨pair.1, pair.2, rfl, rfl⟩

variable {σ : Type} {message : Msg} {exchange : Exchange σ}

section
variable {fuel : Nat} {state : σ} (inside : start ≤ rules.length)
include inside

/-- One round for each rule and one for the default server are enough. -/
theorem legacyRounds_isSome (enough : rules.length + 1 ≤ start + fuel) :
    (legacyRounds router rules message options exchange fuel start metadata state).isSome := by
  induction fuel generalizing start metadata state with
  | zero => omega
  | succ fuel ih =>
    unfold legacyRounds
    dsimp only
    split
    · rfl
    · split
      · next rejected =>
        rw [Bool.and_eq_true] at rejected
        obtain ⟨index, rule, chosen, next⟩ := next_of_check rejected.1
        have bounds := matchDNS_index inside chosen
        rw [next]
        exact ih (by omega) (by omega)
      · rfl

/-- A rule that answers is none of those before the start. -/
theorem legacyRounds_rule {after : σ} {answer : LegacyAnswer} {index : Nat}
    (ran : legacyRounds router rules message options exchange fuel start metadata state =
      some (answer, after))
    (rule : answer.rule = some index) : start ≤ index := by
  induction fuel generalizing start metadata state with
  | zero => cases ran
  | succ fuel ih =>
    have chosen_le : ∀ {metadata},
        ((matchDNS router rules true start (DNS.isAddressQuery message) metadata options).1.rule.map
          Prod.fst) = some index → start ≤ index := by
      intro metadata chosen
      obtain ⟨found, here, rfl⟩ := Option.map_eq_some_iff.mp chosen
      exact (matchDNS_index inside here).1
    unfold legacyRounds at ran
    dsimp only at ran
    split at ran
    · cases ran
      exact chosen_le rule
    · split at ran
      · next rejected =>
        rw [Bool.and_eq_true] at rejected
        obtain ⟨found, _, chosen, next⟩ := next_of_check rejected.1
        have bounds := matchDNS_index inside chosen
        rw [next] at ran
        have := ih (by omega) ran
        omega
      · cases ran
        exact chosen_le rule

end

end

end AmneziaBox.Source.DNS
