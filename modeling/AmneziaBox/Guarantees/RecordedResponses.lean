import AmneziaBox.Guarantees.ExchangeInvariant

/-!
# The named responses that a rule is judged on

A rule bound to a tag waits for the future of that tag, and is then judged on the map
of named responses. Whether the future is resolved is read from the future, the map is
written by `settleDNSFutures`; a future that completes after the settling pass has
looked at it counts as resolved without being in the map. A judgement shows the
response of a resolved future exactly when the future is settled, and in a run in
which no future completes at an inspection every judgement does.
-/
namespace AmneziaBox.Guarantees.RecordedResponses
open Source.Adapter Source.Rule Source.DNS ExchangeInvariant Function WalkControl Walker List
open Source.DNS.Walk (Moved Inspected Observed)
open Source.DNS.Example

/-! ## Futures and the map of named responses -/

def response (future : Future) : Option Msg := future.answer.toOption

def EvaluatesTo (tag : String) (rule : DNSRule) : Prop :=
  ∃ server speculative options, rule.action = .evaluate server tag speculative options

/-- No two `evaluate` actions of the list have the same tag. -/
def DistinctTags (rules : List DNSRule) : Prop :=
  ∀ (i j : Nat) (first second : DNSRule) (tag : String), tag ≠ "" → rules[i]? = some first →
    rules[j]? = some second → EvaluatesTo tag first → EvaluatesTo tag second → i = j

/-- The maps hold the answer and the server of every settled tagged future, and no answer
for an open one. -/
structure Filed (walker : Walker) (position : Nat) (state : Walk) : Prop where
  origin : ∀ (i : Nat) (future : Future), state.futures[i]? = some future → future.tag ≠ "" →
    ∃ k < position, ∃ rule, walker.rules[k]? = some rule ∧ EvaluatesTo future.tag rule
  distinct : ∀ (i j : Nat) (first second : Future), state.futures[i]? = some first →
    state.futures[j]? = some second → first.tag = second.tag → first.tag ≠ "" → i = j
  named : ∀ tag i, state.namedFutures tag = some i →
    ∃ future, state.futures[i]? = some future ∧ future.tag = tag
  filed : ∀ (i : Nat) (future : Future), state.futures[i]? = some future → future.tag ≠ "" →
    state.namedResponses future.tag = if future.settled then response future else none
  absent : ∀ tag, (∀ (i : Nat) (future : Future), state.futures[i]? = some future →
    future.tag ≠ tag) → state.namedResponses tag = none
  transport : ∀ (i : Nat) (future : Future), state.futures[i]? = some future → future.tag ≠ "" →
    future.settled = true → state.namedTransports future.tag = some future.transport

/-- A later list of futures: the same queries, of which `settles` are settled. -/
def Continues (before after : List Future) (settles : Nat → Bool) : Prop :=
  ∀ i, (after[i]? = none ↔ before[i]? = none) ∧
    ∀ future, before[i]? = some future → ∃ later, after[i]? = some later ∧
      later.tag = future.tag ∧ later.answer = future.answer ∧ later.transport = future.transport ∧
      later.settled = (future.settled || settles i)

variable {settles : Nat → Bool} {i : Nat}

theorem Continues.before {before after : List Future} (continues : Continues before after settles)
    {later : Future} (found : after[i]? = some later) :
    ∃ future, before[i]? = some future ∧ later.tag = future.tag ∧ later.answer = future.answer ∧
      later.transport = future.transport ∧ later.settled = (future.settled || settles i) := by
  obtain ⟨missing, each⟩ := continues i
  cases old : before[i]? with
  | none => rw [missing.mpr old] at found; cases found
  | some future =>
    obtain ⟨other, here, same⟩ := each future old
    cases found.symm.trans here
    exact ⟨future, rfl, same⟩

variable {before after : Walk}

theorem moved_continues (moved : Moved before after) :
    Continues before.futures after.futures fun _ => false := by
  obtain ⟨completes, futures⟩ := moved.futures
  intro i
  rw [futures]
  refine ⟨Option.map_eq_none_iff, fun future found => ?_⟩
  rw [found]
  exact ⟨_, rfl, rfl, rfl, rfl, (Bool.or_false _).symm⟩

variable {walker : Walker} {position : Nat}

section
variable (filed : Filed walker position before)
include filed

/-- A step that settles the futures `settles` and files their answers. -/
theorem Filed.of_continues (namedFutures : after.namedFutures = before.namedFutures)
    (continues : Continues before.futures after.futures settles)
    (responses : ∀ (i : Nat) (future : Future), before.futures[i]? = some future →
      future.tag ≠ "" → after.namedResponses future.tag =
        if settles i then response future else before.namedResponses future.tag)
    (others : ∀ tag, (∀ (i : Nat) (future : Future), before.futures[i]? = some future →
      future.tag ≠ tag) → after.namedResponses tag = before.namedResponses tag)
    (transports : ∀ (i : Nat) (future : Future), before.futures[i]? = some future →
      future.tag ≠ "" → after.namedTransports future.tag =
        if settles i then some future.transport else before.namedTransports future.tag) :
    Filed walker position after where
  origin i later found tagged := by
    obtain ⟨future, old, tag, -⟩ := continues.before found
    rw [tag] at tagged ⊢
    exact filed.origin i future old tagged
  distinct i j first second foundFirst foundSecond same tagged := by
    obtain ⟨future, old, tag, -⟩ := continues.before foundFirst
    obtain ⟨other, otherOld, otherTag, -⟩ := continues.before foundSecond
    rw [tag] at same tagged
    exact filed.distinct i j future other old otherOld (same.trans otherTag) tagged
  named tag i launched := by
    rw [namedFutures] at launched
    obtain ⟨future, old, same⟩ := filed.named tag i launched
    obtain ⟨later, found, tagSame, -⟩ := (continues i).2 future old
    exact ⟨later, found, tagSame.trans same⟩
  filed i later found tagged := by
    obtain ⟨future, old, tag, answer, -, settled⟩ := continues.before found
    rw [tag] at tagged ⊢
    have sameResponse : response later = response future := by rw [response, response, answer]
    rw [responses i future old tagged, filed.filed i future old tagged, settled, sameResponse]
    cases future.settled <;> cases settles i <;> rfl
  absent tag unused := by
    have unusedBefore : ∀ (i : Nat) (future : Future), before.futures[i]? = some future →
        future.tag ≠ tag := by
      intro i future old same
      obtain ⟨later, found, tagSame, -⟩ := (continues i).2 future old
      exact unused i later found (tagSame.trans same)
    rw [others tag unusedBefore]
    exact filed.absent tag unusedBefore
  transport i later found tagged isSettled := by
    obtain ⟨future, old, tag, -, transport, settled⟩ := continues.before found
    rw [tag] at tagged ⊢
    rw [transports i future old tagged, transport]
    split
    · rfl
    · rename_i unsettled
      refine filed.transport i future old tagged ?_
      simpa [settled, unsettled] using isSettled

theorem Filed.moved (moved : Moved before after) :
    Filed walker position after :=
  filed.of_continues (congrArg namedFutures moved.control) (moved_continues moved)
    (fun i future _ _ => by rw [moved.namedResponses]; rfl)
    (fun tag _ => by rw [moved.namedResponses])
    fun i future _ _ => by rw [moved.namedTransports]; rfl

theorem Filed.congr (namedFutures : after.namedFutures = before.namedFutures)
    (futures : after.futures = before.futures)
    (responses : after.namedResponses = before.namedResponses)
    (transports : after.namedTransports = before.namedTransports) :
    Filed walker position after := by
  constructor
  · rw [futures]; exact filed.origin
  · rw [futures]; exact filed.distinct
  · rw [futures, namedFutures]; exact filed.named
  · rw [futures, responses]; exact filed.filed
  · rw [futures, responses]; exact filed.absent
  · rw [futures, transports]; exact filed.transport

end

variable {state : Walk}

theorem Filed.mono {later : Nat} (filed : Filed walker position state) (le : position ≤ later) :
    Filed walker later state := by
  refine { filed with origin := fun i future found tagged => ?_ }
  obtain ⟨k, below, rule⟩ := filed.origin i future found tagged
  exact ⟨k, Nat.lt_of_lt_of_le below le, rule⟩

/-! ## Settling -/

theorem markSettled_continues (state : Walk) (index : Nat) :
    Continues state.futures (state.markSettled index).futures fun i => decide (index = i) := by
  intro i
  simp only [Walk.markSettled, getElem?_modify]
  refine ⟨Option.map_eq_none_iff, fun future found => ?_⟩
  rw [found]
  by_cases chosen : index = i
  · exact ⟨{ future with settled := true }, by simp [chosen], rfl, rfl, rfl, by simp [chosen]⟩
  · exact ⟨future, by simp [chosen], rfl, rfl, rfl, by simp [chosen]⟩

theorem Continues.trans {first second third : List Future} {settles' : Nat → Bool}
    (start : Continues first second settles) (next : Continues second third settles') :
    Continues first third fun i => settles i || settles' i := by
  intro i
  refine ⟨(next i).1.trans (start i).1, fun future found => ?_⟩
  obtain ⟨middle, middleFound, tag, answer, transport, settled⟩ := (start i).2 future found
  obtain ⟨later, laterFound, tag', answer', transport', settled'⟩ := (next i).2 middle middleFound
  exact ⟨later, laterFound, tag'.trans tag, answer'.trans answer, transport'.trans transport, by
    rw [settled', settled, Bool.or_assoc]⟩

theorem answerOf_eq {future : Future} (found : state.futures[i]? = some future) :
    state.answerOf i = response future := by
  unfold Walk.answerOf response
  rw [found]
  obtain ⟨tag, transport, answer, done, settled⟩ := future
  cases answer <;> rfl

theorem settleFuture_filed (walker : Walker) (filed : Filed walker position state) (index : Nat) :
    Filed walker position (walker.settleFuture state index) := by
  rcases walker.settleFuture_cases state index with
    ⟨result, -⟩ | ⟨inspected, -⟩ |
    ⟨future, resolved, viewed, found, unsettled, first, -, second, stored⟩
  · rwa [result]
  · exact filed.moved inspected.toMoved
  · have continues := ((moved_continues first.toMoved).trans
      (markSettled_continues resolved index)).trans (moved_continues second.toMoved)
    -- the update goes to another tag, since tags are not shared
    have otherTag (i : Nat) (other : Future) (here : state.futures[i]? = some other)
        (tagged : other.tag ≠ "") (chosen : index ≠ i) : other.tag ≠ future.tag := fun same =>
      chosen (filed.distinct index i future other found here same.symm (same ▸ tagged))
    refine filed.of_continues ?_ (stored.futures ▸ continues) ?_ ?_ ?_
    · exact congrArg namedFutures
        ((stored.control.trans second.control).trans first.control)
    · intro i other here tagged
      have kept : viewed.namedResponses = state.namedResponses :=
        second.namedResponses.trans first.namedResponses
      simp only [Bool.false_or, Bool.or_false, decide_eq_true_eq]
      rw [stored.responses, kept]
      by_cases chosen : index = i
      · subst chosen
        cases found.symm.trans here
        obtain ⟨later, laterFound, -, answer, -⟩ := (continues index).2 future found
        rw [answerOf_eq laterFound]
        simp [tagged, response, answer]
      · rw [if_neg chosen]
        split
        · rfl
        · rw [update_of_ne (otherTag i other here tagged chosen)]
    · intro tag unused
      rw [stored.responses, second.namedResponses, Walk.markSettled, first.namedResponses]
      split
      · rfl
      · rw [update_of_ne (unused index future found).symm]
    · intro i other here tagged
      simp only [Bool.false_or, Bool.or_false, decide_eq_true_eq]
      rw [stored.transports, second.namedTransports, Walk.markSettled, first.namedTransports]
      by_cases chosen : index = i
      · subst chosen
        cases found.symm.trans here
        simp [tagged]
      · rw [if_neg chosen]
        split
        · rfl
        · rw [update_of_ne (otherTag i other here tagged chosen)]

theorem settleDNSFutures_filed (walker : Walker) (filed : Filed walker position state) :
    Filed walker position (walker.settleDNSFutures state) := by
  unfold settleDNSFutures
  generalize range state.futures.length = indices
  induction indices generalizing state with
  | nil => exact filed
  | cons index rest ih => exact ih (settleFuture_filed walker filed index)

theorem Continues.length {before after : List Future} (continues : Continues before after settles) :
    after.length = before.length := by
  have same := fun i => (continues i).1
  simp only [getElem?_eq_none_iff] at same
  exact Nat.le_antisymm ((same _).mpr (Nat.le_refl _)) ((same _).mp (Nat.le_refl _))

theorem settleFuture_continues (walker : Walker) (state : Walk) (index : Nat) :
    ∃ settles, Continues state.futures (walker.settleFuture state index).futures settles := by
  rcases walker.settleFuture_cases state index with
    ⟨result, -⟩ | ⟨inspected, -⟩ | ⟨future, resolved, viewed, -, -, first, -, second, stored⟩
  · rw [result]
    exact ⟨_, moved_continues (.refl state)⟩
  · exact ⟨_, moved_continues inspected.toMoved⟩
  · rw [stored.futures]
    exact ⟨_, ((moved_continues first.toMoved).trans (markSettled_continues resolved index)).trans
      (moved_continues second.toMoved)⟩

theorem settleDNSFutures_continues (walker : Walker) (state : Walk) :
    ∃ settles, Continues state.futures (walker.settleDNSFutures state).futures settles := by
  unfold settleDNSFutures
  generalize range state.futures.length = indices
  induction indices generalizing state with
  | nil => exact ⟨_, moved_continues (.refl state)⟩
  | cons index rest ih =>
    obtain ⟨_, first⟩ := settleFuture_continues walker state index
    obtain ⟨_, others⟩ := ih (walker.settleFuture state index)
    exact ⟨_, first.trans others⟩

theorem settleDNSFutures_length (walker : Walker) (state : Walk) :
    (walker.settleDNSFutures state).futures.length = state.futures.length := by
  obtain ⟨_, continues⟩ := settleDNSFutures_continues walker state
  exact continues.length

/-! ## An undisturbed pass settles everything that is done -/

def CoveredAt (state : Walk) (i : Nat) : Prop :=
  ∀ future, state.futures[i]? = some future → future.done = true → future.settled = true

/-- Unless completions disturb the inspections, all futures that are done are settled. -/
def Covered (walker : Walker) (state : Walk) : Prop :=
  walker.schedule.Undisturbed → ∀ i, CoveredAt state i

theorem CoveredAt.of_futures (covered : CoveredAt before i)
    (futures : after.futures = before.futures) : CoveredAt after i := by
  unfold CoveredAt
  rw [futures]
  exact covered

theorem Covered.of_futures (covered : Covered walker before)
    (futures : after.futures = before.futures) : Covered walker after := fun undisturbed i =>
  (covered undisturbed i).of_futures futures

theorem Covered.inspected (covered : Covered walker before)
    (inspected : Inspected walker.schedule before after) : Covered walker after :=
  fun undisturbed i => (covered undisturbed i).of_futures (inspected.undisturbed undisturbed)

theorem markSettled_coveredAt (state : Walk) (index : Nat) :
    CoveredAt (state.markSettled index) index ∧
      ∀ i, CoveredAt state i → CoveredAt (state.markSettled index) i := by
  constructor
  · intro later found _
    obtain ⟨_, _, _, _, _, settled⟩ := (markSettled_continues state index).before found
    simpa using settled
  · intro i covered later found done
    by_cases chosen : index = i
    · obtain ⟨_, _, _, _, _, settled⟩ := (markSettled_continues state index).before found
      simpa [chosen] using settled
    · have same : state.futures[i]? = some later := by
        simpa [Walk.markSettled, chosen] using found
      exact covered later same done

theorem settleFuture_coveredAt (undisturbed : walker.schedule.Undisturbed) (state : Walk)
    (index : Nat) :
    CoveredAt (walker.settleFuture state index) index ∧
      ∀ i, CoveredAt state i → CoveredAt (walker.settleFuture state index) i := by
  rcases walker.settleFuture_cases state index with
    ⟨result, settled⟩ | ⟨inspected, open_⟩ |
    ⟨future, resolved, viewed, found, unsettled, first, -, second, stored⟩
  · rw [result]
    exact ⟨fun future found _ => settled future found, fun i covered => covered⟩
  · refine ⟨fun future found done => ?_, fun i covered =>
      covered.of_futures (inspected.undisturbed undisturbed)⟩
    rw [Walk.isDone, found] at open_
    exact absurd (done.symm.trans open_) (by simp)
  · have futures : (walker.settleFuture state index).futures =
        (resolved.markSettled index).futures :=
      stored.futures.trans (second.undisturbed undisturbed)
    obtain ⟨here, others⟩ := markSettled_coveredAt resolved index
    exact ⟨here.of_futures futures, fun i covered =>
      (others i (covered.of_futures (first.undisturbed undisturbed))).of_futures futures⟩

theorem settleDNSFutures_covered (walker : Walker) (state : Walk) :
    Covered walker (walker.settleDNSFutures state) := by
  intro undisturbed
  -- the turns up to an index cover the futures up to it
  have turns (n : Nat) : ∀ i < n, CoveredAt ((List.range n).foldl walker.settleFuture state) i := by
    induction n with
    | zero => exact fun i below => absurd below (Nat.not_lt_zero i)
    | succ n ih =>
      rw [List.range_succ, List.foldl_append]
      intro i below
      obtain ⟨here, kept⟩ := settleFuture_coveredAt undisturbed
        ((List.range n).foldl walker.settleFuture state) n
      rcases Nat.lt_succ_iff_lt_or_eq.mp below with earlier | rfl
      · exact kept i (ih i earlier)
      · exact here
  intro i future found done
  have below : i < state.futures.length :=
    settleDNSFutures_length walker state ▸ (List.getElem?_eq_some_iff.mp found).1
  exact turns _ i below future found done

/-! ## What a judgement shows -/

/-- The rule is bound to the tag, and its future was resolved with this response. -/
structure Resolved (judgement : Judgement) (tag : String) (future : Future) (answer : Msg) : Prop where
  bound : tag ∈ judgement.rule.tree.matchResponseTags
  launched : ∃ i, judgement.namedFutures tag = some i ∧ judgement.futures[i]? = some future
  done : future.done = true
  ok : future.answer = .ok answer

/-- The map of named responses that the rule was judged on holds the response. -/
def Shows (judgement : Judgement) : Prop :=
  ∀ tag future answer, Resolved judgement tag future answer → judgement.named tag = some answer

/-- The map holds the response of a future exactly when the future is settled. -/
def ShowsSettled (judgement : Judgement) : Prop :=
  ∀ tag future answer, Resolved judgement tag future answer →
    (judgement.named tag = some answer ↔ future.settled = true)

/-- A walk in which the judgements so far are as they should be. -/
structure Kept (walker : Walker) (position : Nat) (state : Walk) : Prop where
  filed : Filed walker position state
  showsSettled : ∀ judgement, .judged judgement ∈ state.events → ShowsSettled judgement
  shows_ : walker.schedule.Undisturbed → ∀ judgement, .judged judgement ∈ state.events →
    Shows judgement

section Steps
variable {later : Nat}

section
variable (kept : Kept walker position before)
include kept

/-- A step that judges nothing. -/
theorem Kept.extend (filed : Filed walker later after) {new : List WalkEvent}
    (events : after.events = new ++ before.events)
    (free : ∀ event ∈ new, ∀ judgement, event ≠ .judged judgement) : Kept walker later after := by
  have old : ∀ judgement, .judged judgement ∈ after.events → .judged judgement ∈ before.events := by
    intro judgement member
    rw [events] at member
    rcases mem_append.mp member with added | old
    · exact absurd rfl (free _ added judgement)
    · exact old
  exact ⟨filed, fun judgement member => kept.showsSettled judgement (old judgement member),
    fun undisturbed judgement member => kept.shows_ undisturbed judgement (old judgement member)⟩

/-- A step without an event. -/
theorem Kept.silent (filed : Filed walker later after) (events : after.events = before.events) :
    Kept walker later after :=
  kept.extend filed (events.trans (nil_append _).symm) (by simp)

theorem Kept.moved (moved : Moved before after) :
    Kept walker position after :=
  kept.silent (kept.filed.moved moved) moved.events

theorem Kept.congr (namedFutures : after.namedFutures = before.namedFutures)
    (futures : after.futures = before.futures)
    (responses : after.namedResponses = before.namedResponses)
    (transports : after.namedTransports = before.namedTransports)
    (events : after.events = before.events) : Kept walker position after :=
  kept.silent (kept.filed.congr namedFutures futures responses transports) events

end

section
variable (kept : Kept walker position state)
include kept

theorem Kept.settle :
    Kept walker position (walker.settleDNSFutures state) :=
  kept.silent (settleDNSFutures_filed walker kept.filed)
    (walker.settleDNSFutures_observed state).events

theorem Kept.mono (le : position ≤ later) :
    Kept walker later state :=
  kept.silent (kept.filed.mono le) rfl

theorem Kept.record {event : WalkEvent} (free : ∀ judgement, event ≠ .judged judgement) :
    Kept walker position (state.record event) :=
  kept.extend (kept.filed.congr rfl rfl rfl rfl) singleton_append.symm (by simpa using free)

/-- A rule is judged while every resolved future of its tags is settled. -/
theorem Kept.judge (index : Nat) (rule : DNSRule) (options : DNSQueryOptions) (answer : Option Msg)
    (covered : rule.tree.matchResponseTags ≠ [] → Covered walker state) :
    Kept walker position (state.judge index rule options answer).2 := by
  have exact_ : ShowsSettled (state.judgement index rule options answer) := by
    rintro tag future response' ⟨bound, ⟨i, launched, found⟩, done, ok⟩
    obtain ⟨same, sameFound, tagSame⟩ := kept.filed.named tag i launched
    cases found.symm.trans sameFound
    obtain ⟨_, _, _, tagged⟩ := DNSRuleTree.mem_matchResponseTags.mp bound
    have filed := kept.filed.filed i future found (tagSame ▸ tagged)
    change state.namedResponses tag = _ ↔ _
    rw [← tagSame, filed]
    cases future.settled <;> simp [response, ok, Except.toOption]
  refine ⟨kept.filed.congr rfl rfl rfl rfl, ?_, ?_⟩
  · intro judgement member
    rcases mem_cons.mp member with same | old
    · obtain rfl := WalkEvent.judged.inj same
      exact exact_
    · exact kept.showsSettled judgement old
  · intro undisturbed judgement member
    rcases mem_cons.mp member with same | old
    · obtain rfl := WalkEvent.judged.inj same
      intro tag future answer resolved
      obtain ⟨i, -, found⟩ := resolved.launched
      have covered := covered (ne_nil_of_mem resolved.bound) undisturbed i
      exact (exact_ tag future answer resolved).mpr (covered future found resolved.done)
    · exact kept.shows_ undisturbed judgement old

end

/-! ## Launching a query -/

/-- A new future, under a tag that no other future has. -/
theorem Filed.append (filed : Filed walker position state) (le : position ≤ later) {new : Future}
    (unsettled : new.settled = false)
    (fresh : new.tag ≠ "" → ∀ (i : Nat) (future : Future), state.futures[i]? = some future →
      future.tag ≠ new.tag)
    (origin : new.tag ≠ "" → ∃ k < later, ∃ rule, walker.rules[k]? = some rule ∧
      EvaluatesTo new.tag rule) :
    Filed walker later { state with futures := state.futures ++ [new] } := by
  have cases_ : ∀ (i : Nat) (future : Future), (state.futures ++ [new])[i]? = some future →
      state.futures[i]? = some future ∨ (i = state.futures.length ∧ future = new) := by
    intro i future found
    rw [List.getElem?_append] at found
    split at found
    · exact .inl found
    · rename_i outside
      rw [List.getElem?_singleton] at found
      split at found
      · exact .inr ⟨by omega, (Option.some.inj found).symm⟩
      · cases found
  have filed := filed.mono le
  refine ⟨?_, ?_, ?_, ?_, ?_, ?_⟩
  · intro i future found tagged
    rcases cases_ i future found with old | ⟨-, rfl⟩
    · exact filed.origin i future old tagged
    · exact origin tagged
  · intro i j first second foundFirst foundSecond same tagged
    rcases cases_ i first foundFirst with old | ⟨rfl, rfl⟩ <;>
      rcases cases_ j second foundSecond with other | ⟨rfl, rfl⟩
    · exact filed.distinct i j first second old other same tagged
    · exact absurd same (fresh (same ▸ tagged) i first old)
    · exact absurd same.symm (fresh tagged j second other)
    · rfl
  · intro tag i launched
    obtain ⟨future, found, same⟩ := filed.named tag i launched
    refine ⟨future, ?_, same⟩
    rw [List.getElem?_append_left (List.getElem?_eq_some_iff.mp found).1]
    exact found
  · intro i future found tagged
    rcases cases_ i future found with old | ⟨-, rfl⟩
    · exact filed.filed i future old tagged
    · rw [unsettled]
      exact filed.absent future.tag (fresh tagged)
  · intro tag unused
    refine filed.absent tag fun i future found => unused i future ?_
    rw [List.getElem?_append_left (List.getElem?_eq_some_iff.mp found).1]
    exact found
  · intro i future found tagged settled
    rcases cases_ i future found with old | ⟨-, rfl⟩
    · exact filed.transport i future old tagged settled
    · rw [unsettled] at settled
      cases settled

/-- A query launched under no tag. -/
theorem Filed.launch_untagged (filed : Filed walker position state) (transport : DNSTransport)
    (options : DNSQueryOptions) :
    Filed walker position (walker.launchDNSEvaluate "" transport options state).2 := by
  refine Filed.moved ?_ (walker.arrive_moved .launch _)
  exact filed.append (Nat.le_refl _) rfl (fun tagged => absurd rfl tagged)
    (fun tagged => absurd rfl tagged)

variable {rule : DNSRule}

/-- The query of the `evaluate` rule at the position, launched under its tag. -/
theorem Filed.launch (filed : Filed walker position state) (distinct : DistinctTags walker.rules)
    {tag : String} (isRule : walker.rules[position]? = some rule) (evaluates : EvaluatesTo tag rule)
    (tagged : tag ≠ "") (transport : DNSTransport) (options : DNSQueryOptions) :
    let launched := walker.launchDNSEvaluate tag transport options state
    Filed walker (position + 1) { launched.2 with
      namedFutures := update launched.2.namedFutures tag (some launched.1) } := by
  intro launched
  have moved := walker.arrive_moved .launch { state with futures := state.futures ++
    [{ tag := tag, transport := transport, answer := walker.client.evaluate state.futures.length
        transport (finalizeExchangeOptions walker.router options) }] }
  have after : Filed walker (position + 1) launched.2 := by
    refine Filed.moved ?_ moved
    refine filed.append (Nat.le_succ _) rfl (fun _ i future found same => ?_)
      (fun _ => ⟨position, Nat.lt_succ_self _, rule, isRule, evaluates⟩)
    -- an older future with this tag would come from another rule with the same tag
    obtain ⟨k, below, other, otherRule, otherEvaluates⟩ :=
      filed.origin i future found (by rw [same]; exact tagged)
    rw [same] at otherEvaluates
    have := distinct k position other rule tag tagged otherRule isRule otherEvaluates evaluates
    omega
  refine ⟨after.origin, after.distinct, ?_, after.filed, after.absent, after.transport⟩
  intro other i named
  by_cases same : other = tag
  · subst same
    dsimp only at named
    rw [update_self] at named
    cases named
    obtain ⟨completes, futures⟩ := moved.futures
    have last := futures state.futures.length
    rw [getElem?_concat_length] at last
    exact ⟨_, last, rfl⟩
  · dsimp only at named
    rw [update_of_ne same] at named
    exact after.named other i named

/-! ## The run -/

theorem finishPendingExchange_kept (fuel : Nat) (exchange : PendingExchange)
    (kept : Kept walker position state) :
    Kept walker position (walker.finishPendingExchange fuel exchange state).2 := by
  unfold finishPendingExchange
  split
  · rename_i future _
    have waited := kept.moved
      (walker.waitUntil_moved (fun state => state.isDone future) fuel state)
    generalize walker.waitUntil (fun state => state.isDone future) fuel state = result at *
    obtain ⟨outcome, after⟩ := result
    cases outcome with
    | ready => exact waited.record (by simp)
    | failed | waiting => exact waited
  · have sent : Kept walker position (state.record (.sent exchange)) := kept.record (by simp)
    exact sent.record (by simp)

/-- That the judgements are as they should be, as an invariant of an exchange. -/
def recorded (walker : Walker) : Predicates where
  passed := Kept walker
  settled := Covered walker
  sweeping position _ _ := Kept walker position
  pending _ state := (∃ position, Kept walker position state) ∧ state.armedRules = []
  due _ state := ∃ position, Kept walker position state
  ended state := ∃ position, Kept walker position state

theorem recorded_preserved (distinct : DistinctTags walker.rules) :
    (recorded walker).Preserved walker := by
  constructor
  case stable => exact fun _ => ⟨Kept.moved, Kept.settle⟩
  case judge => exact fun response _ kept settled => kept.judge _ _ _ response settled
  case advance => exact fun _ kept => kept.mono (Nat.le_succ _)
  case update =>
    exact fun _ _ kept => kept.extend ((kept.filed.mono (Nat.le_succ _)).congr rfl rfl rfl rfl)
      singleton_append.symm (by simp)
  case anonymous | terminal | index => exact fun _ kept => kept.congr rfl rfl rfl rfl rfl
  case speculate | sweep | unready => exact fun kept => kept.record (by simp)
  case effect => exact fun kept _ => kept.record (by simp)
  case launch =>
    exact fun transport options kept => kept.silent (kept.filed.launch_untagged transport options)
      (walker.launchDNSEvaluate_observed ..).events
  case launchTagged =>
    intro _ _ _ _ tag _ _ transport options walked action tagged kept
    exact kept.silent (kept.filed.launch distinct walked.isRule ⟨_, _, _, action⟩ tagged
      transport options) (walker.launchDNSEvaluate_observed tag transport options _).events
  case arm =>
    intro rule state kept _ _
    have looked := kept.moved (walker.newArmedRule_inspected rule state).toMoved
    exact looked.extend ((looked.filed.mono (Nat.le_succ _)).congr rfl rfl rfl rfl)
      singleton_append.symm (by simp)
  case settled => exact settleDNSFutures_covered walker
  case inspected => exact Covered.inspected
  case unchanged => exact Covered.of_futures
  case looked => exact fun kept inspected => kept.moved inspected.toMoved
  case missed => exact fun response kept covered _ _ => kept.judge _ _ _ response fun _ => covered
  case commits =>
    intro position kept_ armed rest _ commit response kept covered _ judged _ _
    have acted := (kept.judge armed.ruleIndex armed.rule armed.options response
      fun _ => covered).moved (walker.commitArmed_inspected armed judged.2).toMoved
    have done : Kept walker position ({ (walker.commitArmed armed judged.2).2 with
        armedRules := kept_ ++ rest }.record (.committed armed.ruleIndex)) :=
      acted.extend (acted.filed.congr rfl rfl rfl rfl) singleton_append.symm (by simp)
    cases commit <;> exact ⟨_, done⟩
  case swept => exact fun kept => kept.congr rfl rfl rfl rfl rfl
  case suspend => exact fun kept noneArmed _ _ => ⟨⟨_, kept⟩, noneArmed⟩
  case stablePending =>
    refine fun _ => ⟨?_, ?_⟩
    · rintro _ _ ⟨⟨_, kept⟩, noneArmed⟩ moved
      exact ⟨⟨_, kept.moved moved⟩, (congrArg armedRules moved.control).trans noneArmed⟩
    · rintro state ⟨⟨_, kept⟩, noneArmed⟩
      exact ⟨⟨_, kept.settle⟩,
        (congrArg armedRules (walker.settleDNSFutures_observed state).control).trans noneArmed⟩
  case noneArmed => exact And.right
  case sweptPending =>
    rintro _ state ⟨⟨_, kept⟩, -⟩
    have swept : Kept walker _ (state.record .swept) := kept.record (by simp)
    exact ⟨⟨_, swept.congr rfl rfl rfl rfl rfl⟩, rfl⟩
  case disarm =>
    rintro _ _ ⟨_, kept⟩
    exact ⟨⟨_, kept.congr rfl rfl rfl rfl rfl⟩, rfl⟩
  case due | endedPending => exact And.left
  case ended => exact fun kept => ⟨_, kept⟩
  case finish =>
    rintro exchange _ fuel ⟨_, kept⟩
    exact ⟨_, finishPendingExchange_kept fuel exchange kept⟩

theorem exchangeWithRules_kept (distinct : DistinctTags walker.rules) (fuel : Nat)
    (metadata : InboundContext) (options : DNSQueryOptions) :
    ∃ position, Kept walker position (walker.exchangeWithRules fuel metadata options).2 :=
  (recorded_preserved distinct).exchangeWithRules fuel
    ⟨⟨by simp, by simp, by simp, by simp, by simp, by simp⟩, by simp, by simp⟩

end Steps

/-! ## What every judgement of a run shows -/

/-- The resolved futures of the tags are settled when the rule is judged. -/
def SettledBefore (judgement : Judgement) : Prop :=
  ∀ tag future answer, Resolved judgement tag future answer → future.settled = true

/-- In every run of `exchangeWithRules` a rule is judged on the responses of the futures
of its tags that have resolved, exactly when the last settling pass has seen them
resolved. That is so throughout when futures complete while a query is launched, between
two rules or while the walk waits. -/
theorem judgement_shows_iff_settled (walker : Walker) (distinct : DistinctTags walker.rules)
    (fuel : Nat) (metadata : InboundContext) (options : DNSQueryOptions) :
    (∀ judgement, .judged judgement ∈ (walker.exchangeWithRules fuel metadata options).2.events →
      (Shows judgement ↔ SettledBefore judgement)) ∧
    (walker.schedule.Undisturbed →
      ∀ judgement, .judged judgement ∈ (walker.exchangeWithRules fuel metadata options).2.events →
        Shows judgement) := by
  obtain ⟨position, kept⟩ := exchangeWithRules_kept distinct fuel metadata options
  exact ⟨fun judgement member => forall₄_congr (kept.showsSettled judgement member), kept.shows_⟩

/-! ## A completion in the window -/

/-- `match_response: t`, `response_rcode: NOERROR`, answered by the evaluated response. -/
def respondRule : DNSRule where
  tree := .default
    { items := [fun input => input.dnsResponse.any fun response => response.rcode == 0]
      matchResponse := true
      matchResponseTag := "t" }
  action := .respond

def fallbackRule : DNSRule where
  tree := .default { items := [fun input => input.domain == "example.org"] }
  action := .route "b" false {}

/-- Both servers answer positively, by this schedule. -/
def exampleWalker (schedule : Schedule) : Walker where
  router := { transport := fun server => some ⟨server, false⟩, defaultTransport := ⟨"default", false⟩ }
  client := { evaluate := fun _ _ _ => .ok positiveAnswer, exchange := fun _ _ => .ok positiveAnswer }
  schedule := schedule
  rules := [evaluateRule, respondRule, fallbackRule]
  message := question
  allowFakeIP := true

/-- The future completes while the walk waits. -/
def waitingSchedule : Schedule where
  running _ _ := []
  waiting _ := .ok 0

/-- The future completes between the settling pass and the check whether to wait. -/
def windowSchedule : Schedule where
  running point count := if point = .inspect ∧ count = 4 then [.complete 0, .signal 0] else []
  waiting _ := .ok 0

theorem distinctTags_of_pairwise {rules : List DNSRule}
    (apart : rules.Pairwise fun first second =>
      ∀ tag, EvaluatesTo tag first → ¬ EvaluatesTo tag second) : DistinctTags rules := by
  intro i j first second tag _ foundFirst foundSecond evaluates evaluates'
  obtain ⟨inside, rfl⟩ := List.getElem?_eq_some_iff.mp foundFirst
  obtain ⟨inside', rfl⟩ := List.getElem?_eq_some_iff.mp foundSecond
  rcases Nat.lt_trichotomy i j with before | same | behind
  · exact absurd evaluates' (pairwise_iff_getElem.mp apart i j _ _ before tag evaluates)
  · exact same
  · exact absurd evaluates (pairwise_iff_getElem.mp apart j i _ _ behind tag evaluates')

theorem exampleWalker_distinctTags (schedule : Schedule) :
    DistinctTags (exampleWalker schedule).rules :=
  distinctTags_of_pairwise (by simp [exampleWalker, EvaluatesTo, respondRule, fallbackRule])

/-- The rule bound to the tag missed, and the resolved response is not in its map. -/
def missesTag (tag : String) : WalkEvent → Bool
  | .judged judgement =>
    !judgement.matched && judgement.rule.tree.matchResponseTags.contains tag &&
      match (judgement.namedFutures tag).bind (judgement.futures[·]?) with
      | some { done := true, answer := .ok answer, .. } => judgement.named tag != some answer
      | _ => false
  | _ => false

theorem not_shows_of_missesTag {tag : String} {event : WalkEvent}
    (misses : missesTag tag event = true) :
    ∃ judgement, event = .judged judgement ∧ judgement.matched = false ∧ ¬Shows judgement := by
  cases event with
  | judged judgement =>
    simp only [missesTag, Bool.and_eq_true, Bool.not_eq_true'] at misses
    obtain ⟨⟨unmatched, bound⟩, misses⟩ := misses
    refine ⟨judgement, rfl, unmatched, fun shows_ => ?_⟩
    split at misses
    · rename_i answer _ found
      obtain ⟨i, launched, inside⟩ := Option.bind_eq_some_iff.mp found
      have resolved : Resolved judgement tag _ answer :=
        ⟨contains_iff_mem.mp bound, ⟨i, launched, inside⟩, rfl, rfl⟩
      simp [shows_ tag _ answer resolved] at misses
    · cases misses
  | _ => simp [missesTag] at misses

/-- The response of server `a` has arrived when the bound rule is judged; the rule misses
and the query goes to server `b`. -/
theorem completion_in_window_is_missed :
    DistinctTags (exampleWalker windowSchedule).rules ∧
    (∃ judgement, .judged judgement ∈
        ((exampleWalker windowSchedule).exchangeWithRules 2 exampleQuery {}).2.events ∧
      judgement.matched = false ∧ ¬Shows judgement) ∧
    ((exampleWalker windowSchedule).exchangeWithRules 2 exampleQuery {}).1 =
      some { response := some positiveAnswer, transport := some ⟨"b", false⟩ } ∧
    ((exampleWalker waitingSchedule).exchangeWithRules 4 exampleQuery {}).1 =
      some { response := some positiveAnswer, transport := some ⟨"a", false⟩ } := by
  have misses : ((exampleWalker windowSchedule).exchangeWithRules 2 exampleQuery {}).2.events.any
      (missesTag "t") = true := by decide +kernel
  obtain ⟨event, member, missed⟩ := any_eq_true.mp misses
  obtain ⟨judgement, rfl, unmatched, hidden⟩ := not_shows_of_missesTag missed
  exact ⟨exampleWalker_distinctTags _, ⟨judgement, member, unmatched, hidden⟩, by decide +kernel,
    by decide +kernel⟩

/-- When the future completes while the walk waits, the bound rule is judged on it. -/
theorem awaited_response_is_shown :
    DistinctTags (exampleWalker waitingSchedule).rules ∧ waitingSchedule.Undisturbed ∧
    ((exampleWalker waitingSchedule).exchangeWithRules 4 exampleQuery {}).2.events.any
      (fun event => match event with
        | .judged judgement => judgement.index == 1 && judgement.matched
        | _ => false) = true ∧
    ∀ judgement, .judged judgement ∈
        ((exampleWalker waitingSchedule).exchangeWithRules 4 exampleQuery {}).2.events →
      Shows judgement ∧ SettledBefore judgement := by
  have undisturbed : waitingSchedule.Undisturbed := by
    intro n future member
    cases member
  obtain ⟨exactly, always⟩ := judgement_shows_iff_settled (exampleWalker waitingSchedule)
    (exampleWalker_distinctTags _) 4 exampleQuery {}
  refine ⟨exampleWalker_distinctTags _, undisturbed, by decide +kernel, fun judgement member => ?_⟩
  have shown := always undisturbed judgement member
  exact ⟨shown, (exactly judgement member).mp shown⟩

end AmneziaBox.Guarantees.RecordedResponses
