import AmneziaBox.Guarantees.PendingCounters

/-!
# What queries make a flush write

A flush writes its batch in one transaction, and loses a batch that cannot be written. The root
name has no domain left without its dot, and the entry for its FakeIP address is the one that
cannot be written. A query that has to reserve addresses flushes what was there before it, so it
spoils the entries since then.
-/
namespace AmneziaBox.Guarantees.FlushedQueries
open Library Source.Adapter Source.DNS Source.FakeIP Source.CacheFile List

def Tagged : QueryEvent → Prop
  | .respond key _ | .reject key => key.transportName ≠ ""
  | .exchange .. | .flush .. => True

/-- The batch is written without an error, in whatever order. -/
def Writable (s : QueryState) : Prop :=
  ∀ order : FlushOrder, order.Lists s.pending → (s.written order).isSome = true

/-- The question gets a new FakeIP address: its domain is not too long, has none yet, and there is a
range for the family. -/
def Allocates (s : QueryState) (name : String) (isIPv6 : Bool) : Prop :=
  (fqdnToDomain name).utf8ByteSize ≤ 255 ∧
    s.fakeIPFile.fakeIPLoadDomain (fqdnToDomain name) isIPv6 = none ∧
    (s.allocation.current isIPv6).isValid = true

/-- A query that gets a new FakeIP address gets a valid one, for a name that is not the root. -/
def Harmless (store : Store) (s : QueryState) : QueryEvent → Prop
  | .exchange name isIPv6 order => order.Lists s.pending → Allocates s name isIPv6 →
    name ≠ "" ∧ name ≠ "." ∧ (advance store isIPv6 s.allocation).1.isValid = true
  | _ => True

instance (s : QueryState) (name : String) (isIPv6 : Bool) : Decidable (Allocates s name isIPv6) :=
  inferInstanceAs (Decidable (_ ∧ _ ∧ _))

instance (store : Store) (s : QueryState) : (event : QueryEvent) → Decidable (Harmless store s event)
  | .exchange .. => inferInstanceAs (Decidable (_ → _ → _ ∧ _ ∧ _))
  | .respond .. | .reject _ | .flush _ => isTrue trivial

/-! ## The transaction -/

theorem foldlM_isSome {α σ : Type} {put : σ → α → Option σ} {fine : α → Prop}
    (puts : ∀ s item, (put s item).isSome = true ↔ fine item) (items : List α) (s : σ) :
    (items.foldlM put s).isSome = true ↔ ∀ item ∈ items, fine item := by
  induction items generalizing s with
  | nil => simp
  | cons item rest ih =>
    rw [foldlM_cons, forall_mem_cons, ← puts s item]
    cases here : put s item with
    | none => simp
    | some t => simpa using ih t

theorem putAll_isSome (items : List (Sigma fun _ : Addr => String)) (database : Database) :
    (putAll items database).isSome = true ↔
      ∀ item ∈ items, item.1.isValid = true ∧ item.2 ≠ "" := by
  have folded : putAll items database =
      items.foldlM (fun database item => putFakeIP database item.1 item.2) database := by
    induction items generalizing database with
    | nil => rfl
    | cons item rest ih => exact congrArg _ (funext ih)
  rw [folded]
  refine foldlM_isSome (fun database item => ?_) items database
  unfold putFakeIP
  cases item.1.isValid <;> by_cases empty : item.2 = "" <;> simp [empty]
  all_goals split <;> rfl

theorem writePending_isSome {dnsCache rdrc expiresAt fakeIPDomain} {pending : Pending}
    {tables : Tables} (responses : ∀ entry ∈ dnsCache, entry.1.transportName ≠ "")
    (rejections : ∀ entry ∈ rdrc, entry.1.transportName ≠ "") :
    (writePending dnsCache rdrc expiresAt fakeIPDomain pending tables).isSome = true ↔
      ∀ entry ∈ fakeIPDomain, entry.1.isValid = true ∧ entry.2 ≠ "" := by
  have puts {β : Type} (table : SaveCacheKey → Option β) (key : SaveCacheKey) (value : β) :
      (putCacheEntry table key value).isSome = true ↔ key.transportName ≠ "" := by
    unfold putCacheEntry
    split_ifs with empty <;> simp [empty]
  obtain ⟨_, first⟩ := Option.isSome_iff_exists.mp
    ((foldlM_isSome (fun table entry => puts table entry.1 entry.2) dnsCache
      tables.dnsCache).mpr responses)
  obtain ⟨_, second⟩ := Option.isSome_iff_exists.mp
    ((foldlM_isSome (fun table entry => puts table entry.1 expiresAt) rdrc
      tables.rdrc).mpr rejections)
  rw [← putAll_isSome _ tables.fakeIP]
  simp only [Source.CacheFile.writePending, first, second, Source.FakeIP.writePending]
  cases putAll fakeIPDomain tables.fakeIP <;> rfl

/-! ## The batch -/

/-- The entries that come from the names of transports. -/
structure AllTagged (pending : Pending) : Prop where
  responses : ∀ entry ∈ pending.dnsCache.entries, entry.1.transportName ≠ ""
  rejections : ∀ entry ∈ pending.rdrc.entries, entry.1.transportName ≠ ""

/-- The entries for FakeIP addresses can be written. -/
def Fine (pending : Pending) : Prop :=
  ∀ entry ∈ pending.fakeIP.fakeIPDomain.entries, entry.1.isValid = true ∧ entry.2 ≠ ""

theorem writable_iff {s : QueryState} (tagged : AllTagged s.pending) :
    Writable s ↔ Fine s.pending := by
  have written order (lists : order.Lists s.pending) : (s.written order).isSome = true ↔
      ∀ entry ∈ order.fakeIPDomain, entry.1.isValid = true ∧ entry.2 ≠ "" :=
    writePending_isSome
      (fun entry member => tagged.responses entry (lists.1.mem_iff.mp member))
      (fun entry member => tagged.rejections entry (lists.2.1.mem_iff.mp member))
  constructor
  · intro writable
    exact (written ⟨_, _, _, 0⟩ ⟨.refl _, .refl _, .refl _⟩).mp
      (writable ⟨_, _, _, 0⟩ ⟨.refl _, .refl _, .refl _⟩)
  · intro fine order lists
    exact (written order lists).mpr fun entry member => fine entry (lists.2.2.mem_iff.mp member)

theorem mem_insert {α : Type} {β : α → Type} [DecidableEq α] {map : AList β} {key : α}
    {value : β key} {entry : Sigma β} (member : entry ∈ (map.insert key value).entries) :
    entry = ⟨key, value⟩ ∨ entry ∈ map.entries := by
  rw [AList.entries_insert] at member
  rcases mem_cons.mp member with rfl | old
  · exact .inl rfl
  · exact .inr ((kerase_sublist _ _).subset old)

/-- What is left of a batch after a flush: all of it, or nothing. -/
structure Part (part whole : Pending) : Prop where
  responses : part.dnsCache.entries ⊆ whole.dnsCache.entries
  rejections : part.rdrc.entries ⊆ whole.rdrc.entries
  addresses : part.fakeIP.fakeIPDomain.entries ⊆ whole.fakeIP.fakeIPDomain.entries

theorem Part.refl (pending : Pending) : Part pending pending := ⟨fun _ => id, fun _ => id, fun _ => id⟩

theorem flush_part (s : QueryState) (order : FlushOrder) : Part (s.flush order).pending s.pending := by
  unfold QueryState.flush
  split
  · exact .refl _
  · exact ⟨nofun, nofun, nofun⟩

theorem saveMetadata_part (s : QueryState) (order : FlushOrder) (metadata : Option FakeIPMetadata) :
    Part (s.saveMetadata order metadata).pending s.pending := by
  cases metadata with
  | none => exact .refl _
  | some metadata =>
    have part := flush_part { s with pending := s.pending.saveMetadata metadata } order
    exact ⟨part.responses, part.rejections, part.addresses⟩

/-- A reservation leaves the next address as it was. -/
theorem advance_reserve (store : Store) (isIPv6 : Bool) (allocation : Allocation) :
    (advance store isIPv6 (reserve store allocation).2).1 = (advance store isIPv6 allocation).1 := by
  have kept : (reserve store allocation).2.inet4Current = allocation.inet4Current ∧
      (reserve store allocation).2.inet6Current = allocation.inet6Current := by
    unfold reserve
    split <;> exact ⟨rfl, rfl⟩
  unfold advance
  rw [kept.1, kept.2]
  cases isIPv6 <;> rfl

/-- A question that gets an address is queued with what is left of the batch. -/
theorem exchange_cases (store : Store) (s : QueryState) (name : String) (isIPv6 : Bool)
    (order : FlushOrder) :
    (¬Allocates s name isIPv6 ∧ s.exchange store name isIPv6 order = s) ∨
    (Allocates s name isIPv6 ∧ ∃ left oldDomain, Part left s.pending ∧
      (s.exchange store name isIPv6 order).pending =
        left.queueFakeIP oldDomain (advance store isIPv6 s.allocation).1 (fqdnToDomain name)) := by
  unfold QueryState.exchange QueryState.create
  dsimp only
  by_cases long : (fqdnToDomain name).utf8ByteSize > 255
  · exact .inl ⟨fun all => absurd long (Nat.not_lt.mpr all.1), if_pos long⟩
  rw [if_neg long]
  cases found : s.fakeIPFile.fakeIPLoadDomain (fqdnToDomain name) isIPv6 with
  | some address => exact .inl ⟨fun all => (nomatch found.symm.trans all.2.1), rfl⟩
  | none =>
    rw [if_neg (by simp)]
    cases valid : (s.allocation.current isIPv6).isValid with
    | false => exact .inl ⟨fun all => (nomatch valid.symm.trans all.2.2), rfl⟩
    | true =>
      refine .inr ⟨⟨Nat.not_lt.mp long, found, valid⟩, _,
        (s.saveMetadata order (reserve store s.allocation).1).fakeIPFile.fakeIPLoad
          (advance store isIPv6 s.allocation).1,
        saveMetadata_part s order (reserve store s.allocation).1, ?_⟩
      rw [advance_reserve]
      rfl

theorem queueFakeIP_fine {pending : Pending} (fine : Fine pending) (oldDomain : Option String)
    (address : Addr) (domain : String) :
    Fine (pending.queueFakeIP oldDomain address domain) ↔ address.isValid = true ∧ domain ≠ "" := by
  have domains : (pending.queueFakeIP oldDomain address domain).fakeIP.fakeIPDomain =
      pending.fakeIP.fakeIPDomain.insert address domain :=
    (PendingCounters.queueFakeIP_domain pending.fakeIP oldDomain address domain).1
  unfold Fine
  rw [domains]
  constructor
  · intro all
    exact all ⟨address, domain⟩ (by rw [AList.entries_insert]; exact mem_cons_self)
  · intro new entry member
    rcases mem_insert member with rfl | old
    · exact new
    · exact fine entry old

theorem fqdnToDomain_eq_empty (name : String) :
    fqdnToDomain name = "" ↔ name = "" ∨ name = "." := by
  have text (chars : List Char) :
      name = String.ofList chars ↔ name.toList.reverse = chars.reverse := by
    rw [reverse_inj, ← String.toList_inj, String.toList_ofList]
  have empty : name = "" ↔ name.toList.reverse = [] := text []
  have root : name = "." ↔ name.toList.reverse = ['.'] := text ['.']
  unfold fqdnToDomain
  split
  · next rest here =>
    rw [here, cons.injEq] at root
    have alone : String.ofList rest.reverse = "" ↔ rest = [] := by
      rw [← String.toList_inj, String.toList_ofList]
      exact reverse_eq_nil_iff
    split_ifs with dot
    · simp [empty, root, here]
    · have kept : rest ≠ [] := fun none => dot (by rw [none]; rfl)
      simp [root, kept]
  · next other =>
    rw [or_iff_left fun dot => other [] (root.mp dot)]

/-! ## Runs -/

variable {store : Store} {s t : QueryState} {event : QueryEvent}

theorem queryStep_allTagged (tagged : AllTagged s.pending) (named : Tagged event)
    (stepped : queryStep store s event = some t) : AllTagged t.pending := by
  have inherit {left : Pending} (part : Part left s.pending) : AllTagged left :=
    ⟨fun entry member => tagged.responses entry (part.responses member),
      fun entry member => tagged.rejections entry (part.rejections member)⟩
  cases event with
  | respond key value =>
    cases stepped
    refine ⟨fun entry member => ?_, tagged.rejections⟩
    rcases mem_insert member with rfl | old
    · exact named
    · exact tagged.responses entry old
  | reject key =>
    cases stepped
    unfold Pending.queueRDRC
    split
    · exact tagged
    · refine ⟨tagged.responses, fun entry member => ?_⟩
      rcases mem_insert member with rfl | old
      · exact named
      · exact tagged.rejections entry old
  | exchange name isIPv6 order =>
    obtain ⟨-, stepped⟩ := Option.ite_none_right_eq_some.mp stepped
    cases stepped
    rcases exchange_cases store s name isIPv6 order with ⟨-, same⟩ | ⟨-, left, oldDomain, part, queued⟩
    · rwa [same]
    · rw [queued]
      exact ⟨(inherit part).responses, (inherit part).rejections⟩
  | flush order =>
    obtain ⟨-, stepped⟩ := Option.ite_none_right_eq_some.mp stepped
    cases stepped
    exact inherit (flush_part s order)

/-- A step spoils the batch exactly if it is not harmless. -/
theorem queryStep_fine (fine : Fine s.pending) (stepped : queryStep store s event = some t) :
    Fine t.pending ↔ Harmless store s event := by
  have inherit {left : Pending} (part : Part left s.pending) : Fine left :=
    fun entry member => fine entry (part.addresses member)
  cases event with
  | respond key value =>
    cases stepped
    exact iff_of_true fine trivial
  | reject key =>
    cases stepped
    refine iff_of_true ?_ trivial
    unfold Pending.queueRDRC
    split <;> exact fine
  | exchange name isIPv6 order =>
    obtain ⟨lists, stepped⟩ := Option.ite_none_right_eq_some.mp stepped
    cases stepped
    rcases exchange_cases store s name isIPv6 order with
      ⟨stays, same⟩ | ⟨allocates, left, oldDomain, part, queued⟩
    · rw [same]
      exact iff_of_true fine fun _ allocates => absurd allocates stays
    · rw [queued, queueFakeIP_fine (inherit part), ne_eq, fqdnToDomain_eq_empty, not_or]
      constructor
      · rintro ⟨valid, named⟩ _ _
        exact ⟨named.1, named.2, valid⟩
      · intro harmless
        obtain ⟨named, root, valid⟩ := harmless lists allocates
        exact ⟨valid, named, root⟩
  | flush order =>
    obtain ⟨-, stepped⟩ := Option.ite_none_right_eq_some.mp stepped
    cases stepped
    exact iff_of_true (inherit (flush_part s order)) trivial

/-- What is not possible is harmless. -/
theorem harmless_of_step
    (harmless : ∀ t, queryStep store s event = some t → Harmless store s event) :
    Harmless store s event := by
  cases event with
  | exchange name isIPv6 order => exact fun lists => harmless _ (if_pos lists) lists
  | respond | reject | flush => trivial

/-- Whatever queries and flushes follow each other, over whatever database: the batch can be
written in every state exactly if every query is harmless in the state it finds. -/
theorem flush_succeeds_iff (events : List QueryEvent) (tagged : ∀ event ∈ events, Tagged event)
    (allocation : Allocation) (tables : Tables) :
    Throughout (queryStep store) Writable ⟨allocation, {}, tables⟩ events ↔
      Along (queryStep store) (Harmless store) ⟨allocation, {}, tables⟩ events := by
  have start : AllTagged {} ∧ Fine {} := ⟨⟨nofun, nofun⟩, nofun⟩
  generalize here : (⟨allocation, {}, tables⟩ : QueryState) = s
  have start : AllTagged s.pending ∧ Fine s.pending := here ▸ start
  clear here
  obtain ⟨named, fine⟩ := start
  induction events generalizing s with
  | nil => exact iff_of_true ((writable_iff named).mpr fine) trivial
  | cons event rest ih =>
    obtain ⟨first, later⟩ := forall_mem_cons.mp tagged
    constructor
    · rintro ⟨-, onward⟩
      have fineNext {next : QueryState} (stepped : queryStep store s event = some next) :
          Fine next.pending :=
        (writable_iff (queryStep_allTagged named first stepped)).mp (onward next stepped).here
      refine ⟨harmless_of_step fun next stepped => (queryStep_fine fine stepped).mp (fineNext stepped),
        fun next stepped => ?_⟩
      exact (ih later next (queryStep_allTagged named first stepped) (fineNext stepped)).mp
        (onward next stepped)
    · rintro ⟨harmless, onward⟩
      refine ⟨(writable_iff named).mpr fine, fun next stepped => ?_⟩
      exact (ih later next (queryStep_allTagged named first stepped)
        ((queryStep_fine fine stepped).mpr harmless)).mpr (onward next stepped)

def ranged : Store := { inet4Range := some ⟨.ipv4 0xc6120000, 15⟩ }

def rejected : SaveCacheKey := ⟨"dns", "a.", 1⟩

/-- A query that reserves addresses, a rejection, and a query for the root. -/
def rootQuery : List QueryEvent :=
  [.exchange "a." false {}, .reject rejected,
    .exchange "." false { rdrc := [⟨rejected, ()⟩], fakeIPDomain := [⟨.ipv4 0xc6120002, "a"⟩] }]

def rootOrder : FlushOrder :=
  { rdrc := [⟨rejected, ()⟩]
    fakeIPDomain := [⟨.ipv4 0xc6120002, "a"⟩, ⟨.ipv4 0xc6120003, ""⟩]
    expiresAt := 1 }

/-- The batch cannot be written, and the flush loses the rejection. -/
theorem rootQuery_spoils_flush :
    (run (queryStep ranged) ⟨start ranged, {}, {}⟩ rootQuery).map (fun s =>
        (decide (rootOrder.Lists s.pending), (s.written rootOrder).isNone)) = some (true, true) ∧
      (run (queryStep ranged) ⟨start ranged, {}, {}⟩ (rootQuery ++ [.flush rootOrder])).map (fun s =>
        s.tables.rdrc rejected) = some none := by
  decide +kernel

/-- The same with another name in place of the root. -/
theorem namedQuery_written :
    Throughout (queryStep ranged) Writable ⟨start ranged, {}, {}⟩
      [.exchange "a." false {}, .reject rejected,
        .exchange "b." false { rdrc := [⟨rejected, ()⟩], fakeIPDomain := [⟨.ipv4 0xc6120002, "a"⟩] }] :=
  (flush_succeeds_iff _ (by simp [Tagged, rejected]) _ _).mpr (by decide +kernel)

end AmneziaBox.Guarantees.FlushedQueries
