import AmneziaBox.Library.Machine
import AmneziaBox.Source.DNS.LegacyRouter
import AmneziaBox.Source.DNS.Message
import Mathlib.Logic.Function.Basic

/-!
# The DNS client and its caches

`dns/client.go`: cache keys, TTLs, `beginExchange`, `finishExchange`, `storeCache`,
`loadResponse` and the background refresh of optimistic answers; the parts of
`extension_edns0_subnet.go` that a query passes through. The memory cache is a map, and what
its capacity makes it forget is an event. The persistent cache and the store of rejected
responses are the maps that `experimental/cachefile` keeps, with expiry times in whole seconds.

One exchange is modelled at a time, so `cacheLock` is always free. Moments carry the clock, in
milliseconds, and the environment hash of a transport. `dns.Msg` packs into bytes by a codec
outside the repository.
-/
namespace AmneziaBox.Source.DNS
open Adapter Function

/-! ## Options of a query -/

/-- Which values of an HTTPS record `applyResponseOptions` leaves. -/
def keepsHint (strategy : DomainStrategy) (value : SVCBValue) : Bool :=
  match strategy with
  | .ipv4Only => value.key != svcbIPv6Hint
  | .ipv6Only => value.key != svcbIPv4Hint
  | _ => true

def filterHints (strategy : DomainStrategy) (record : Record) : Record :=
  match record.data with
  | .https values => { record with data := .https (values.filter (keepsHint strategy)) }
  | _ => record

/-- `applyResponseOptions`: the response that is stored and passed on, and its TTL. -/
def applyResponseOptions (question : Question) (response : Msg) (options : DNSQueryOptions) :
    Msg × BitVec 32 :=
  let response :=
    if question.qtype = typeHTTPS ∧ (options.strategy = .ipv4Only ∨ options.strategy = .ipv6Only)
    then { response with answer := response.answer.map (filterHints options.strategy) }
    else response
  let timeToLive := computeTimeToLive response
  let timeToLive := options.rewriteTTL.getD timeToLive
  (normalizeTTL response timeToLive, timeToLive)

/-! ## Client subnets -/

/-- `netip.Prefix` as a value: an invalid one has no bits but may have an address. -/
structure KeyPrefix where
  addr : Addr := .invalid
  bits : Option Nat := none
  deriving DecidableEq, Repr

def KeyPrefix.ofSubnet (subnet : Prefix) : KeyPrefix := ⟨subnet.addr, some subnet.bits⟩

/-- `clientSubnetFromMessage`: the first subnet option decides. -/
def clientSubnetFromMessage (message : Msg) : KeyPrefix :=
  let options := message.extra.flatMap fun record =>
    match record.data with
    | .opt options => options
    | _ => []
  let subnet : Option (Nat × Addr) := options.findSome? fun option =>
    match option with
    | .subnet _ sourceNetmask address => some (sourceNetmask, address)
    | .other _ => none
  match subnet with
  | none => {}
  | some (sourceNetmask, address) =>
    if address.isValid then
      let addr := address.unmap
      ⟨addr, if sourceNetmask ≤ addr.bitLen then some sourceNetmask else none⟩
    else {}

def subnetOption (subnet : Prefix) : EDNS0 :=
  .subnet (match subnet.addr with | .ipv4 _ => 1 | _ => 2) (subnet.bits % 256) subnet.addr

/-- Replace the first subnet option; `none` if there is none. -/
def replaceSubnet (subnet : Prefix) : List EDNS0 → Option (List EDNS0)
  | [] => none
  | .subnet _ _ _ :: rest => some (subnetOption subnet :: rest)
  | option :: rest => (replaceSubnet subnet rest).map (option :: ·)

/-- The search of `setClientSubnet`: a record that is not an OPT record makes it forget the
OPT record before it, so that a subnet option goes into the last record if that is one. -/
def setSubnetIn (subnet : Prefix) : List Record → List Record
  | [] => [{ name := ".", data := .opt [subnetOption subnet], rrclass := 0 }]
  | record :: rest =>
    match record.data with
    | .opt options =>
      match replaceSubnet subnet options with
      | some options => { record with data := .opt options } :: rest
      | none =>
        if rest.isEmpty then [{ record with data := .opt (options ++ [subnetOption subnet]) }]
        else record :: setSubnetIn subnet rest
    | _ => record :: setSubnetIn subnet rest

def setClientSubnet (message : Msg) (subnet : Prefix) : Msg :=
  { message with extra := setSubnetIn subnet message.extra }

def isOPT (record : Record) : Bool := record.data matches .opt _

def isSubnet (option : EDNS0) : Bool := option matches .subnet _ _ _

def optionsOf (record : Record) : List EDNS0 :=
  match record.data with
  | .opt options => options
  | _ => []

/-- The search ends with an OPT record. -/
def findsOPT : List Record → Bool
  | [] => false
  | record :: rest =>
    isOPT record && ((optionsOf record).any isSubnet || rest.isEmpty) || findsOPT rest

/-- `setClientSubnet` as a function on messages in memory: what it returns, and what its argument is
afterwards. -/
def setClientSubnetWith (message : Msg) (subnet : Prefix) (clone : Bool) : Msg × Msg :=
  let result := setClientSubnet message subnet
  if !findsOPT message.extra then
    -- a shallow copy and one more record; the others are those of the argument
    (result, message)
  else if clone then
    -- the record that was found is written in `message.Copy()`, which shares nothing
    (result, message)
  else
    -- it is written in the argument, which is returned
    (result, result)

/-! ## Configuration and state -/

/-- What the client uses from elsewhere: the wire form of a message. -/
structure Wire where
  pack : Msg → Option (List (BitVec 8))
  unpack : List (BitVec 8) → Option Msg
  unpack_pack : ∀ message bytes, pack message = some bytes → unpack bytes = some message

/-- No message has a wire form, which is enough without a persistent cache. -/
instance : Inhabited Wire := ⟨⟨fun _ => none, fun _ => none, nofun⟩⟩

structure ClientOptions where
  disableCache : Bool := false
  disableExpire : Bool := false
  /-- In milliseconds; zero if optimistic answers are off. -/
  optimisticTimeout : Nat := 0
  clientSubnet : Option Prefix := none
  /-- `dnsCache` is set. -/
  storeDNS : Bool := false
  /-- `rdrc` is set. -/
  storeRDRC : Bool := false

structure Moment where
  now : Nat
  environmentHash : DNSTransport → BitVec 64

structure DNSCacheKey where
  question : Question
  transportTag : String
  clientSubnet : KeyPrefix
  environment : BitVec 64
  deriving DecidableEq

/-- `saveCacheKey`: a transport name, a question name and a question type. -/
structure SaveCacheKey where
  transportName : String
  questionName : String
  qType : Nat
  deriving DecidableEq

structure CacheEntry where
  message : Msg
  expireAt : Nat

structure PersistentEntry where
  rawMessage : List (BitVec 8)
  expireAt : Nat

/-- A goroutine of `backgroundRefreshDNS`. -/
structure Refresh where
  transport : DNSTransport
  key : DNSCacheKey
  message : Msg
  options : DNSQueryOptions
  responseChecker : Option (Option Msg → Bool)

/-- What became of a query for a rule with an address limit that may be cached. -/
inductive LimitVerdict where
  | accepted
  /-- The limit refused a response that could have been cached. -/
  | refused
  /-- Rejected for its response code, or by the transport. -/
  | unusable
  | failed
  deriving DecidableEq

inductive ClientObservation where
  | stored (key : DNSCacheKey) (options : DNSQueryOptions) (upstream : Msg) (now : Nat)
  | answered (key : DNSCacheKey) (options : DNSQueryOptions) (response : Msg) (stale : Bool)
      (now : Nat)
  | limited (key : SaveCacheKey) (verdict : LimitVerdict)
  | refreshRefused (key : SaveCacheKey)

structure Client where
  cache : DNSCacheKey → Option CacheEntry := fun _ => none
  dnsCache : SaveCacheKey → Option PersistentEntry := fun _ => none
  rdrc : SaveCacheKey → Bool := fun _ => false
  backgroundRefresh : List Refresh := []
  /-- The latest first. -/
  log : List ClientObservation := []

def Client.observe (client : Client) (observation : ClientObservation) : Client :=
  { client with log := observation :: client.log }

/-! ## Keys -/

def digitChar (digit : Nat) : Char :=
  if digit < 10 then Char.ofNat (48 + digit) else Char.ofNat (87 + digit)

/-- The loop of `strconv.FormatUint`. -/
def formatDigits (base : Nat) : Nat → Nat → List Char → List Char
  | 0, _, done => done
  | rounds + 1, n, done =>
    if n / base = 0 then digitChar (n % base) :: done
    else formatDigits base rounds (n / base) (digitChar (n % base) :: done)

/-- `strconv.FormatUint`. A number has no more digits than it counts, except zero. -/
def formatUint (base n : Nat) : List Char := formatDigits base (n + 1) n []

/-- The last `count` digits of the number in this base, the highest first: the bytes and the
groups of an address. -/
def fields (base : Nat) : Nat → Nat → List Nat
  | 0, _ => []
  | count + 1, n => fields base count (n / base) ++ [n % base]

/-- `netip.Addr.string4`. -/
def string4 (value : Nat) : List Char :=
  ['.'].intercalate ((fields 256 4 value).map (formatUint 10))

/-- The first loop of `netip.Addr.appendTo6`: the first of the longest runs of at least two zero
groups, by its start and its end. -/
def zeroRun (groups : List Nat) : Nat × Nat :=
  (List.range 8).foldl (fun zero i =>
    let length := ((groups.drop i).takeWhile (· == 0)).length
    if 2 ≤ length ∧ zero.2 - zero.1 < length then (i, i + length) else zero) (255, 255)

/-- Groups with colons between them. -/
def appendHex (groups : List Nat) : List Char := [':'].intercalate (groups.map (formatUint 16))

/-- The second loop of `netip.Addr.appendTo6`. -/
def string6 (groups : List Nat) : List Char :=
  let zero := zeroRun groups
  appendHex (groups.take zero.1) ++
    if zero.1 < groups.length then ':' :: ':' :: appendHex (groups.drop zero.2) else []

/-- `netip.Addr.String`. -/
def addrString : Addr → List Char
  | .invalid => "invalid IP".toList
  | .ipv4 value => string4 value.toNat
  | .ipv6 value =>
    if value >>> 32 = 0xffff then "::ffff:".toList ++ string4 (value.truncate 32).toNat
    else string6 (fields 65536 8 value.toNat)

/-- `netip.Prefix.String`. -/
def Prefix.string (subnet : Prefix) : List Char :=
  addrString subnet.addr ++ '/' :: formatUint 10 subnet.bits

def DNSCacheKey.persistentName (key : DNSCacheKey) : String :=
  let name := key.transportTag
  let name :=
    match key.clientSubnet.bits with
    | some bits => name ++ "\x00" ++ String.ofList (Prefix.string ⟨key.clientSubnet.addr, bits⟩)
    | none => name
  if key.environment ≠ 0 then name ++ "\x01" ++ String.ofList (formatUint 36 key.environment.toNat)
  else name

def DNSCacheKey.saveKey (key : DNSCacheKey) : SaveCacheKey :=
  ⟨key.persistentName, key.question.name, key.question.qtype⟩

section
variable (wire : Wire) (config : ClientOptions)

def newCacheKey (moment : Moment) (transport : DNSTransport) (question : Question) (message : Msg)
    (options : DNSQueryOptions) : DNSCacheKey where
  question := question
  transportTag := transport.tag
  clientSubnet :=
    if options.removeClientSubnet then {}
    else match options.clientSubnet.or config.clientSubnet with
      | some subnet => .ofSubnet subnet
      | none => clientSubnetFromMessage message
  environment := moment.environmentHash transport

/-- `finishCacheKey`: nothing is stored if the environment has changed. -/
def finishCacheKey (moment : Moment) (transport : DNSTransport) (key : DNSCacheKey) :
    Option DNSCacheKey :=
  let environment := moment.environmentHash transport
  if environment = key.environment ∨ key.environment = 0 then
    some { key with environment := environment }
  else none

def prepareExchangeMessage (message : Msg) (options : DNSQueryOptions) : Msg :=
  if options.removeClientSubnet then removeClientSubnet message
  else match options.clientSubnet.or config.clientSubnet with
    | some subnet => setClientSubnet message subnet
    | none => message

/-! ## Caches -/

/-- `storeCache`; `none` if nothing is stored. Without expiry the time of an entry is never
read. -/
def storeCache (client : Client) (key : DNSCacheKey) (message : Msg) (timeToLive : BitVec 32)
    (now : Nat) : Option Client :=
  if timeToLive = 0 then none
  else
    let expireAt := now + 1000 * timeToLive.toNat
    if config.storeDNS then
      (wire.pack message).map fun rawMessage =>
        let entry : PersistentEntry := ⟨rawMessage, expireAt / 1000 * 1000⟩
        { client with dnsCache := update client.dnsCache key.saveKey (some entry) }
    else some { client with cache := update client.cache key (some ⟨message, expireAt⟩) }

structure Loaded where
  response : Msg
  ttl : Nat
  isStale : Bool

/-- What `loadResponse` and `loadPersistentResponse` make of an entry. -/
def serve (message : Msg) (expireAt now : Nat) : Option Loaded :=
  if config.disableExpire then some ⟨message, 0, false⟩
  else if expireAt < now then
    if 0 < config.optimisticTimeout ∧ now < expireAt + config.optimisticTimeout then
      some ⟨normalizeTTL message 1, 0, true⟩
    else none
  else
    let nowTTL := (expireAt - now) / 1000
    some ⟨normalizeTTL message (BitVec.ofNat 32 nowTTL), nowTTL, false⟩

/-- `loadResponse`; the memory cache drops an entry that is too old. -/
def loadResponse (client : Client) (key : DNSCacheKey) (now : Nat) : Option Loaded × Client :=
  if config.storeDNS then
    ((client.dnsCache key.saveKey).bind fun entry =>
      (wire.unpack entry.rawMessage).bind fun message => serve config message entry.expireAt now,
      client)
  else
    match client.cache key with
    | none => (none, client)
    | some entry =>
      match serve config entry.message entry.expireAt now with
      | some loaded => (some loaded, client)
      | none => (none, { client with cache := update client.cache key none })

def rcodeCacheable (response : Msg) : Bool :=
  response.rcode == rcodeSuccess || response.rcode == rcodeNameError

def saveRDRC (client : Client) (key : SaveCacheKey) : Client :=
  if config.storeRDRC then { client with rdrc := update client.rdrc key true } else client

/-! ## Exchange -/

structure ExchangeOperation where
  message : Msg
  question : Question
  messageId : BitVec 16
  options : DNSQueryOptions
  responseChecker : Option (Option Msg → Bool)
  disableCache : Bool
  cacheKey : DNSCacheKey

/-- The exchange has an address limit and may be cached, so that a rejection is remembered. -/
def ExchangeOperation.limited (operation : ExchangeOperation) : Bool :=
  !operation.disableCache && operation.responseChecker.isSome

/-- What `beginExchange` returns. -/
inductive Begun where
  | done (result : Except DNSError Msg)
  | ready (operation : ExchangeOperation)

/-- A query as it comes to the client; `contextTransport` is the transport whose own query
this is. -/
structure ClientQuery where
  transport : DNSTransport
  message : Msg
  options : DNSQueryOptions
  responseChecker : Option (Option Msg → Bool)
  contextTransport : Option String := none

def isSimpleRequest (message : Msg) : Bool :=
  message.question.length == 1 && message.ns.isEmpty &&
    match message.extra with
    | [] => true
    | [record] =>
      match record.data with
      | .opt options => decide (0 < record.rrclass) && record.ttl == 0 &&
          options.all fun option => option.option == edns0SUBNET
      | _ => false
    | _ => false

def strategyRejected (question : Question) (options : DNSQueryOptions) : Bool :=
  question.qtype == typeA && options.strategy == .ipv6Only ||
    question.qtype == typeAAAA && options.strategy == .ipv4Only

def backgroundRefreshDNS (client : Client) (refresh : Refresh) : Client :=
  if client.backgroundRefresh.any (·.key == refresh.key) then client
  else { client with backgroundRefresh := client.backgroundRefresh ++ [refresh] }

def operationFor (moment : Moment) (query : ClientQuery) (question : Question) :
    ExchangeOperation :=
  let message := prepareExchangeMessage config query.message query.options
  { message := message
    question := question
    messageId := message.id
    options := query.options
    responseChecker := query.responseChecker
    disableCache :=
      !isSimpleRequest query.message || config.disableCache || query.options.disableCache
    cacheKey := newCacheKey config moment query.transport question message query.options }

/-- The lookup in the cache: an answer, or the client with which the exchange goes on. -/
def answerFromCache (client : Client) (now : Nat) (transport : DNSTransport)
    (operation : ExchangeOperation) : Option (Except DNSError Msg) × Client :=
  match loadResponse wire config client operation.cacheKey now with
  | (none, client) => (none, client)
  | (some loaded, client) =>
    if loaded.isStale && operation.options.disableOptimisticCache then (none, client)
    else
      let client :=
        if loaded.isStale then
          backgroundRefreshDNS client
            { transport := transport
              key := operation.cacheKey
              message := operation.message
              options := operation.options
              responseChecker := operation.responseChecker }
        else client
      if operation.responseChecker.any fun checker => !checker (some loaded.response) then
        (some (.error .responseRejectedCached), client)
      else
        let response := { loaded.response with id := operation.messageId }
        (some (.ok response), client.observe
          (.answered operation.cacheKey operation.options response loaded.isStale now))

def rdrcKey (transport : DNSTransport) (question : Question) : SaveCacheKey :=
  ⟨transport.tag, question.name, question.qtype⟩

/-- The rest of `beginExchange`, when the cache has no answer. -/
def proceed (client : Client) (query : ClientQuery) (operation : ExchangeOperation) : Begun :=
  if query.contextTransport = some query.transport.tag then
    .done (.error (.other ("DNS query loopback in transport[" ++ query.transport.tag ++ "]")))
  else if operation.limited && config.storeRDRC &&
      client.rdrc (rdrcKey query.transport operation.question) then
    .done (.error .responseRejectedCached)
  else .ready operation

def beginExchange (client : Client) (moment : Moment) (query : ClientQuery) : Begun × Client :=
  match query.message.question with
  | [] => (.done (.ok (fixedResponseStatus query.message rcodeFormatError)), client)
  | question :: _ =>
    if strategyRejected question query.options then
      (.done (.ok (fixedResponseStatus query.message rcodeSuccess)), client)
    else
      let operation := operationFor config moment query question
      match (if operation.disableCache then (none, client)
        else answerFromCache wire config client moment.now query.transport operation) with
      | (some result, client) => (.done result, client)
      | (none, client) => (proceed config client query operation, client)

/-- The answer of a transport. -/
inductive ServerResult where
  | response (message : Msg)
  /-- An error that is a response code. -/
  | rcode (code : Nat)
  | failed (err : DNSError)

abbrev Servers := DNSTransport → Msg → ServerResult

/-- `exchangeToTransport`. -/
def exchangeToTransport (servers : Servers) (transport : DNSTransport) (message : Msg) :
    Except DNSError Msg :=
  match servers transport message with
  | .response response => .ok (stripDNSPadding response)
  | .rcode code => .ok (fixedResponseStatus message code)
  | .failed err => .error err

/-- Whether the address limit of a rule refuses the response. -/
def refuses (responseChecker : Option (Option Msg → Bool)) (response : Msg) : Bool :=
  responseChecker.any fun checker => !rcodeCacheable response || !checker (some response)

/-- The part of `finishExchange` and of a background refresh that stores a response. -/
def storeResponse (client : Client) (moment : Moment) (transport : DNSTransport)
    (key : DNSCacheKey) (options : DNSQueryOptions) (response : Msg) : Client :=
  match finishCacheKey moment transport key with
  | none => client
  | some key =>
    let (answer, timeToLive) := applyResponseOptions key.question response options
    match storeCache wire config client key answer timeToLive moment.now with
    | none => client
    | some client => client.observe (.stored key options response moment.now)

def finishExchange (client : Client) (moment : Moment) (transport : DNSTransport)
    (operation : ExchangeOperation) (response : Msg) : Except DNSError Msg × Client :=
  let disableCache := operation.disableCache || !rcodeCacheable response
  if refuses operation.responseChecker response then
    (.error .responseRejected,
      if disableCache then client
      else saveRDRC config client (rdrcKey transport operation.question))
  else
    let client :=
      if disableCache then client
      else storeResponse wire config client moment transport operation.cacheKey operation.options
        response
    let answer := (applyResponseOptions operation.question response operation.options).1
    (.ok (matchEdns0 operation.message { answer with id := operation.messageId }), client)

/-- The errors after which the next rule is tried. -/
def DNSError.isRejection : DNSError → Bool
  | .responseRejected => true
  | .responseRejectedCached => true
  | _ => false

def verdictOf (operation : ExchangeOperation) : Except DNSError Msg → LimitVerdict
  | .error err => if err.isRejection then .unusable else .failed
  | .ok response =>
    if refuses operation.responseChecker response then
      if rcodeCacheable response then .refused else .unusable
    else .accepted

/-- The part of `Exchange` after `beginExchange`. -/
def sendExchange (servers : Servers) (client : Client) (finish : Moment)
    (transport : DNSTransport) (operation : ExchangeOperation) : Except DNSError Msg × Client :=
  let upstream := exchangeToTransport servers transport operation.message
  let client :=
    if operation.limited then
      client.observe
        (.limited (rdrcKey transport operation.question) (verdictOf operation upstream))
    else client
  match upstream with
  | .error err => (.error err, client)
  | .ok response => finishExchange wire config client finish transport operation response

/-- `Exchange`, begun and finished at two moments. -/
def Client.exchange (servers : Servers) (client : Client) (start finish : Moment)
    (query : ClientQuery) : Except DNSError Msg × Client :=
  match beginExchange wire config client start query with
  | (.done result, client) => (result, client)
  | (.ready operation, client) =>
    sendExchange wire config servers client finish query.transport operation

/-- The end of a goroutine of `backgroundRefreshDNS`. -/
def finishRefresh (servers : Servers) (client : Client) (finish : Moment) (refresh : Refresh) :
    Client :=
  let client := { client with
    backgroundRefresh := client.backgroundRefresh.filter (·.key != refresh.key) }
  match exchangeToTransport servers refresh.transport refresh.message with
  | .error _ => client
  | .ok response =>
    if refuses refresh.responseChecker response then
      let key := rdrcKey refresh.transport refresh.key.question
      (saveRDRC config client key).observe (.refreshRefused key)
    else if !rcodeCacheable response then client
    else storeResponse wire config client finish refresh.transport refresh.key refresh.options
      response

/-! ## Runs -/

inductive ClientEvent where
  | exchange (servers : Servers) (start finish : Moment) (query : ClientQuery)
  | refreshed (servers : Servers) (finish : Moment) (refresh : Nat)
  /-- The memory cache is full. -/
  | evict (key : DNSCacheKey)
  /-- `cleanupDNSCache`. -/
  | cleanup (key : SaveCacheKey)
  /-- `ClearCache`. -/
  | clear

def clientStep (client : Client) : ClientEvent → Option Client
  | .exchange servers start finish query =>
    some (client.exchange wire config servers start finish query).2
  | .refreshed servers finish index =>
    client.backgroundRefresh[index]?.map fun refresh =>
      finishRefresh wire config servers client finish refresh
  | .evict key => some { client with cache := update client.cache key none }
  | .cleanup key => some { client with dnsCache := update client.dnsCache key none }
  | .clear => some { client with cache := fun _ => none, dnsCache := fun _ => none }

def clientExec (events : List ClientEvent) : Option Client :=
  Library.run (clientStep wire config) {} events

end

end AmneziaBox.Source.DNS
