import AmneziaBox.Source.SRS.Binary

/-!
# Rules read back as they were written

One item of a rule that is not read as it is written would shift everything behind it.
So the proof goes item by item: the bytes of an item are taken whole, and they change
only the item's own fields. It is the same for both forms of the file, given an encoder
and a decoder that agree on matchers and address sets.
-/
namespace AmneziaBox.Guarantees.RuleSetItems
open Source.Adapter Source.Rule Source.SRS Library RuleTree List

/-! ## Rules that the format can hold -/

/-- Lengths are written as `uint64`. -/
def Sized {α : Type} (list : List α) : Prop := list.length < 2 ^ 64

instance {α : Type} (list : List α) : Decidable (Sized list) :=
  inferInstanceAs (Decidable (list.length < 2 ^ 64))

def SizedStrings (list : List GoString) : Prop := Sized list ∧ ∀ value ∈ list, Sized value

def StorablePrefixes (list : List Source.DNS.Prefix) : Prop :=
  Sized list ∧ ∀ pfx ∈ list, Canonical pfx

variable {μ ν σ : Type}

/-- Sizes and prefixes of a rule that can be written, with what is assumed of the address sets
that are made for it; compiled sets count where they are written. -/
structure Storable (netipx : Netipx) (compiled : Bool) (rule : DefaultHeadlessRule μ ν) : Prop where
  queryType : Sized rule.queryType
  network : SizedStrings rule.network
  domainKeyword : SizedStrings rule.domainKeyword
  domainRegex : SizedStrings rule.domainRegex
  sourceIPCIDR : Sized rule.sourceIPCIDR
  sourceBuilds : rule.sourceIPCIDR ≠ [] → netipx.Builds rule.sourceIPCIDR
  ipCIDR : Sized rule.ipCIDR
  ipBuilds : rule.ipCIDR ≠ [] → netipx.Builds rule.ipCIDR
  sourcePort : Sized rule.sourcePort
  sourcePortRange : SizedStrings rule.sourcePortRange
  port : Sized rule.port
  portRange : SizedStrings rule.portRange
  processName : SizedStrings rule.processName
  processPath : SizedStrings rule.processPath
  processPathRegex : SizedStrings rule.processPathRegex
  packageName : SizedStrings rule.packageName
  packageNameRegex : SizedStrings rule.packageNameRegex
  networkType : Sized rule.networkType
  networkInterfaceAddress : Sized rule.networkInterfaceAddress.entries ∧
    ∀ entry ∈ rule.networkInterfaceAddress.entries, StorablePrefixes entry.2
  defaultInterfaceAddress : StorablePrefixes rule.defaultInterfaceAddress
  wifiSSID : SizedStrings rule.wifiSSID
  wifiBSSID : SizedStrings rule.wifiBSSID
  sourceIPSet : compiled = true → ∀ set ∈ rule.sourceIPSet, IPSet.WellFormed set
  ipSet : compiled = true → ∀ set ∈ rule.ipSet, IPSet.WellFormed set

mutual
/-- How deep the deepest rule lies below this one. -/
def depth : HeadlessRule μ ν → Nat
  | .default _ => 0
  | .logical _ rules _ => depthBelow rules

def depthBelow : List (HeadlessRule μ ν) → Nat
  | [] => 0
  | rule :: rest => max (depth rule + 1) (depthBelow rest)
end

mutual
/-- A condition on the default rules, and lengths of the logical ones that can be written. -/
def Throughout (condition : DefaultHeadlessRule μ ν → Prop) : HeadlessRule μ ν → Prop
  | .default rule => condition rule
  | .logical _ rules _ => Sized rules ∧ ThroughoutAll condition rules

def ThroughoutAll (condition : DefaultHeadlessRule μ ν → Prop) :
    List (HeadlessRule μ ν) → Prop
  | [] => True
  | rule :: rest => Throughout condition rule ∧ ThroughoutAll condition rest
end

variable {rules : List (HeadlessRule μ ν)}

theorem depth_lt_of_mem {rule : HeadlessRule μ ν} (member : rule ∈ rules) :
    depth rule < depthBelow rules := by
  induction rules with
  | nil => cases member
  | cons first rest ih =>
    unfold depthBelow
    obtain rfl | later := mem_cons.mp member
    · omega
    · have below := ih later
      omega

theorem throughoutAll_iff {condition : DefaultHeadlessRule μ ν → Prop} :
    ThroughoutAll condition rules ↔ ∀ rule ∈ rules, Throughout condition rule := by
  induction rules with
  | nil => simp [ThroughoutAll]
  | cons first rest ih => simp [ThroughoutAll, ih]

/-! ## The parts of an item -/

theorem reads_string {value : GoString} (sized : Sized value) :
    Reads readString (writeString value) value :=
  (reads_uvarint sized).bind (reads_full value)

theorem reads_strings {value : List GoString} (sized : SizedStrings value) :
    Reads readRuleItemString (writeUvarint value.length ++ value.flatMap writeString) value := by
  have each := reads_times_map fun string member => reads_string (sized.2 string member)
  rw [map_id'] at each
  exact (reads_uvarint sized.1).bind each

theorem reads_uint16s {value : List (BitVec 16)} (sized : Sized value) :
    Reads readUint16s
      (writeUvarint value.length ++ value.flatMap fun number => bigEndian 2 number.toNat) value := by
  have one (number : BitVec 16) : Reads (do
      let read ← readBigEndian 2
      pure (BitVec.ofNat 16 read)) (bigEndian 2 number.toNat) number := by
    have read := (reads_bigEndian (show number.toNat < 256 ^ 2 from number.isLt)).map
      (BitVec.ofNat 16)
    rwa [BitVec.ofNat_toNat, BitVec.setWidth_eq] at read
  have each := reads_times_map fun number (_ : number ∈ value) => one number
  rw [map_id'] at each
  exact (reads_uvarint sized).bind each

variable {value : List Source.DNS.Prefix}

theorem reads_prefixes (storable : StorablePrefixes value) :
    Reads readPrefixes (writePrefixes value) value := by
  have each := reads_times_map fun pfx member => reads_writePrefix (storable.2 pfx member)
  rw [map_id'] at each
  exact (reads_uvarint storable.1).bind each

theorem reads_bool (flag : Bool) : Reads readBool [writeBool flag] flag := by
  cases flag <;> exact fun _ => rfl

/-! ## Items -/

variable {part : Source.SRS.Part σ} {state after : σ} {bytes : Bytes}

theorem joinParts_cons {rest : List (Source.SRS.Part σ)}
    (done : joinParts (part :: rest) state = .ok (bytes, after)) :
    ∃ head middle more, part state = .ok (head, middle) ∧
      joinParts rest middle = .ok (more, after) ∧ bytes = head ++ more := by
  obtain ⟨⟨head, middle⟩, first, done⟩ := except_bind_ok done
  obtain ⟨⟨more, final⟩, others, done⟩ := except_bind_ok done
  cases done
  exact ⟨head, middle, more, first, others, rfl⟩

/-- The decoder gives back what the encoder wrote, in the states that are `good`: those
from which the rest of the file was written. -/
structure Faithful (encoder : Encoder μ ν σ) (decoder : Decoder μ ν) (good : σ → Prop) : Prop where
  matcher : ∀ matcher state, good (encoder.matcher matcher state).2 →
    good state ∧ Reads decoder.matcher (encoder.matcher matcher state).1 matcher
  ipSet : ∀ set state, IPSet.WellFormed set → good (encoder.ipSet set state).2 →
    good state ∧ Reads decoder.ipSet (encoder.ipSet set state).1 set
  adGuard : ∀ matcher state, good (encoder.adGuard matcher state).2 →
    good state ∧ Reads decoder.adGuard (encoder.adGuard matcher state).1 matcher

variable (libraries : Libraries μ ν) (encoder : Encoder μ ν σ) (decoder : Decoder μ ν)
  (good : σ → Prop) (recover : Bool) (version : Byte)

/-- The bytes are those of one item, or of none, and change a rule in this way. -/
def Item (bytes : Bytes) (update : DefaultHeadlessRule μ ν → DefaultHeadlessRule μ ν) : Prop :=
  (bytes = [] ∧ ∀ rule, update rule = rule) ∨
    ∃ item body, bytes = ItemType.code item :: body ∧
      ∀ rule, Reads (readItem libraries decoder recover item rule) body (update rule)

/-- What the part writes is an item. -/
def Takes (part : Source.SRS.Part σ)
    (update : DefaultHeadlessRule μ ν → DefaultHeadlessRule μ ν) : Prop :=
  ∀ state bytes after, part state = .ok (bytes, after) → good after →
    good state ∧ Item libraries decoder recover bytes update

/-- The value of an item, or what was there before if the item is absent. -/
def given {α : Type} (value old : List α) : List α := if value.isEmpty then old else value

variable {libraries encoder decoder good recover version} {α : Type} {item : ItemType}
  {body : Bytes}

/-- An item that is a list is read into its own field. -/
theorem item_of_list {value : List α} {reader : Reader (List α)}
    (get : DefaultHeadlessRule μ ν → List α)
    (set : DefaultHeadlessRule μ ν → List α → DefaultHeadlessRule μ ν)
    (reads : Reads reader body value)
    (unchanged : ∀ rule, set rule (get rule) = rule := by exact fun _ => rfl)
    (case : ∀ rule, readItem libraries decoder recover item rule =
      reader >>= fun value => pure (set rule value) := by exact fun _ => rfl) :
    Item libraries decoder recover (if value.isEmpty then [] else item.code :: body)
      fun rule => set rule (given value (get rule)) := by
  cases absent : value.isEmpty with
  | true =>
    refine .inl ⟨rfl, fun rule => ?_⟩
    unfold given
    rw [absent]
    exact unchanged rule
  | false =>
    refine .inr ⟨item, body, rfl, fun rule => ?_⟩
    unfold given
    rw [case rule, absent]
    exact reads.map (set rule)

variable {update : DefaultHeadlessRule μ ν → DefaultHeadlessRule μ ν}

theorem takes_optional {value : List α}
    (item : Item libraries decoder recover (if value.isEmpty then [] else bytes) update) :
    Takes libraries decoder good recover (optional value bytes) update := by
  intro state written after done still
  cases done
  exact ⟨still, item⟩

variable {since : Byte} {name : String}

/-- A part that later versions have, where it was written. -/
theorem versioned_ok {present : Bool}
    (done : versioned present version since name part state = .ok (bytes, after)) :
    present = true ∧ ¬ version < since ∧ part state = .ok (bytes, after) ∨
      present = false ∧ bytes = [] ∧ after = state := by
  unfold versioned at done
  cases present with
  | false =>
    cases done
    exact .inr ⟨rfl, rfl, rfl⟩
  | true =>
    rw [if_pos rfl] at done
    split at done
    · cases done
    · rename_i late
      exact .inl ⟨rfl, late, done⟩

theorem takes_versioned {present : Bool}
    (item : Item libraries decoder recover (if present then bytes else []) update) :
    Takes libraries decoder good recover (versioned present version since name (fixed bytes))
      update := by
  intro state written after done still
  obtain ⟨rfl, -, wrote⟩ | ⟨rfl, rfl, rfl⟩ := versioned_ok done
  · cases wrote
    exact ⟨still, item⟩
  · exact ⟨still, item⟩

theorem takes_versionedList {value : List α}
    (item : Item libraries decoder recover (if value.isEmpty then [] else bytes) update) :
    Takes libraries decoder good recover
      (versioned (!value.isEmpty) version since name (fixed bytes)) update := by
  refine takes_versioned ?_
  cases value with
  | nil => exact item
  | cons => exact item

theorem item_of_flag {flag : Bool} (absent : flag = false → ∀ rule, update rule = rule)
    (case : flag = true → ∀ rule, readItem libraries decoder recover item rule =
      pure (update rule)) :
    Item libraries decoder recover (if flag then [item.code] else []) update := by
  cases flag with
  | false => exact .inl ⟨rfl, absent rfl⟩
  | true =>
    refine .inr ⟨item, [], rfl, fun rule => ?_⟩
    rw [case rfl rule]
    exact Reads.pure _

/-- A compiled form was written behind its tag, or there is none. -/
def WrittenAs {α : Type} (item : ItemType) (encode : α → σ → Bytes × σ) (chosen : Option α)
    (state : σ) (bytes : Bytes) (after : σ) : Prop :=
  match chosen with
  | none => bytes = [] ∧ after = state
  | some value => tagged item encode value state = .ok (bytes, after)

theorem takes_compiled {encode : α → σ → Bytes × σ} {chosen : Option α} {reader : Reader α}
    {update : Option α → DefaultHeadlessRule μ ν → DefaultHeadlessRule μ ν}
    (written : ∀ state bytes after, part state = .ok (bytes, after) →
      WrittenAs item encode chosen state bytes after)
    (faithful : ∀ value ∈ chosen, ∀ state, good (encode value state).2 →
      good state ∧ Reads reader (encode value state).1 value)
    (unchanged : ∀ rule, update none rule = rule)
    (case : ∀ rule, readItem libraries decoder recover item rule =
      reader >>= fun value => pure (update (some value) rule)) :
    Takes libraries decoder good recover part (update chosen) := by
  intro state bytes after done still
  have wrote := written state bytes after done
  cases chosen with
  | none =>
    obtain ⟨rfl, rfl⟩ := wrote
    exact ⟨still, .inl ⟨rfl, unchanged⟩⟩
  | some value =>
    cases wrote
    obtain ⟨before, reads⟩ := faithful value rfl state still
    refine ⟨before, .inr ⟨item, _, rfl, fun rule => ?_⟩⟩
    rw [case rule]
    exact reads.map fun value => update (some value) rule

/-! ## All items of a rule -/

/-- The set of an address item, if it is written. -/
def setOf (libraries : Libraries μ ν) (encoder : Encoder μ ν σ) (value : List Source.DNS.Prefix)
    (rawSet : Option IPSet) : Option IPSet :=
  if value.isEmpty then if encoder.compiled then rawSet else none
  else
    match libraries.netipx.ranges value with
    | .ok ranges => some (fromIPSet ranges)
    | .error _ => none

def withMatcher (libraries : Libraries μ ν) (recover : Bool) (chosen : Option μ)
    (rule : DefaultHeadlessRule μ ν) : DefaultHeadlessRule μ ν :=
  { rule with
    domainMatcher := chosen <|> rule.domainMatcher
    domain := (chosen.map fun matcher =>
      if recover then (libraries.domain.dump matcher).1 else rule.domain).getD rule.domain
    domainSuffix := (chosen.map fun matcher =>
      if recover then (libraries.domain.dump matcher).2 else rule.domainSuffix).getD
        rule.domainSuffix }

def withSourceIPSet (libraries : Libraries μ ν) (recover : Bool) (chosen : Option IPSet)
    (rule : DefaultHeadlessRule μ ν) : DefaultHeadlessRule μ ν :=
  { rule with
    sourceIPSet := chosen <|> rule.sourceIPSet
    sourceIPCIDR := (chosen.map fun set =>
      if recover then set.prefixes libraries.netipx else rule.sourceIPCIDR).getD rule.sourceIPCIDR }

def withIPSet (libraries : Libraries μ ν) (recover : Bool) (chosen : Option IPSet)
    (rule : DefaultHeadlessRule μ ν) : DefaultHeadlessRule μ ν :=
  { rule with
    ipSet := chosen <|> rule.ipSet
    ipCIDR := (chosen.map fun set =>
      if recover then set.prefixes libraries.netipx else rule.ipCIDR).getD rule.ipCIDR }

def withAdGuard (libraries : Libraries μ ν) (recover : Bool) (chosen : Option ν)
    (rule : DefaultHeadlessRule μ ν) : DefaultHeadlessRule μ ν :=
  { rule with
    adGuardDomainMatcher := chosen <|> rule.adGuardDomainMatcher
    adGuardDomain := (chosen.map fun matcher =>
      if recover then libraries.adGuard.dump matcher else rule.adGuardDomain).getD
        rule.adGuardDomain }

/-- What each item of a rule does to the rule that is read. -/
def updates (libraries : Libraries μ ν) (encoder : Encoder μ ν σ) (recover : Bool) (version : Byte)
    (source : DefaultHeadlessRule μ ν) :
    List (DefaultHeadlessRule μ ν → DefaultHeadlessRule μ ν) :=
  [fun rule => { rule with queryType := given source.queryType rule.queryType },
    fun rule => { rule with network := given source.network rule.network },
    withMatcher libraries recover (domainMatcherOf libraries encoder version source),
    fun rule => { rule with domainKeyword := given source.domainKeyword rule.domainKeyword },
    fun rule => { rule with domainRegex := given source.domainRegex rule.domainRegex },
    withSourceIPSet libraries recover
      (setOf libraries encoder source.sourceIPCIDR source.sourceIPSet),
    withIPSet libraries recover (setOf libraries encoder source.ipCIDR source.ipSet),
    fun rule => { rule with sourcePort := given source.sourcePort rule.sourcePort },
    fun rule => { rule with
      sourcePortRange := given source.sourcePortRange rule.sourcePortRange },
    fun rule => { rule with port := given source.port rule.port },
    fun rule => { rule with portRange := given source.portRange rule.portRange },
    fun rule => { rule with processName := given source.processName rule.processName },
    fun rule => { rule with processPath := given source.processPath rule.processPath },
    fun rule => { rule with
      processPathRegex := given source.processPathRegex rule.processPathRegex },
    fun rule => { rule with packageName := given source.packageName rule.packageName },
    fun rule => { rule with
      packageNameRegex := given source.packageNameRegex rule.packageNameRegex },
    fun rule => { rule with networkType := given source.networkType rule.networkType },
    fun rule => { rule with
      networkIsExpensive := source.networkIsExpensive || rule.networkIsExpensive },
    fun rule => { rule with
      networkIsConstrained := source.networkIsConstrained || rule.networkIsConstrained },
    fun rule => { rule with
      networkInterfaceAddress :=
        if source.networkInterfaceAddress.entries.isEmpty then rule.networkInterfaceAddress
        else source.networkInterfaceAddress },
    fun rule => { rule with
      defaultInterfaceAddress :=
        given source.defaultInterfaceAddress rule.defaultInterfaceAddress },
    fun rule => { rule with wifiSSID := given source.wifiSSID rule.wifiSSID },
    fun rule => { rule with wifiBSSID := given source.wifiBSSID rule.wifiBSSID },
    withAdGuard libraries recover (adGuardMatcherOf libraries encoder source)]

/-- The rule that is read from what was written of a rule. -/
def restored (libraries : Libraries μ ν) (encoder : Encoder μ ν σ) (recover : Bool)
    (version : Byte) (source : DefaultHeadlessRule μ ν) : DefaultHeadlessRule μ ν :=
  { (updates libraries encoder recover version source).foldl (fun rule update => update rule) {} with
    invert := source.invert }

variable {source : DefaultHeadlessRule μ ν}

theorem writeDomain_ok
    (done : writeDomain libraries encoder version source state = .ok (bytes, after)) :
    WrittenAs .domain encoder.matcher (domainMatcherOf libraries encoder version source) state
      bytes after := by
  unfold writeDomain at done
  cases chosen : domainMatcherOf libraries encoder version source with
  | none =>
    rw [chosen] at done
    cases done
    exact ⟨rfl, rfl⟩
  | some matcher =>
    rw [chosen] at done
    dsimp only at done
    split at done
    · cases done
    · split at done
      · cases done
      · exact done

/-- What `writeRuleItemCIDR` writes, whichever of the two items it is. -/
theorem writeRuleItemCIDR_ok {rawSet : Option IPSet}
    (done : writeRuleItemCIDR libraries encoder item name value rawSet state = .ok (bytes, after)) :
    WrittenAs item encoder.ipSet (setOf libraries encoder value rawSet) state bytes after := by
  unfold writeRuleItemCIDR at done
  unfold setOf
  split at done
  · rw [if_pos ‹_›]
    split at done
    · rename_i none
      rw [none]
      cases done
      exact ⟨rfl, rfl⟩
    · rename_i set some
      rw [some]
      exact done
  · rw [if_neg ‹_›]
    cases built : libraries.netipx.ranges value <;> rw [built] at done
    · cases done
    · exact done

theorem setOf_wellFormed {rawSet : Option IPSet} (sized : Sized value)
    (builds : value ≠ [] → libraries.netipx.Builds value)
    (raw : encoder.compiled = true → ∀ set ∈ rawSet, IPSet.WellFormed set) :
    ∀ set ∈ setOf libraries encoder value rawSet, IPSet.WellFormed set := by
  intro set chosen
  unfold setOf at chosen
  split at chosen
  · split at chosen
    · rename_i compiled
      exact raw compiled set chosen
    · cases chosen
  · split at chosen
    · rename_i given _ _ built
      cases chosen
      exact (builds fun none => given (isEmpty_iff.mpr none)).wellFormed built sized
    · cases chosen

theorem writeAdGuard_ok
    (done : writeAdGuard libraries encoder version source state = .ok (bytes, after)) :
    WrittenAs .adGuardDomain encoder.adGuard (adGuardMatcherOf libraries encoder source) state
      bytes after := by
  unfold writeAdGuard at done
  cases chosen : adGuardMatcherOf libraries encoder source with
  | none =>
    rw [chosen] at done
    cases done
    exact ⟨rfl, rfl⟩
  | some matcher =>
    rw [chosen] at done
    obtain ⟨-, -, wrote⟩ | ⟨absent, -⟩ := versioned_ok done
    · exact wrote
    · cases absent

theorem takes_interfaceAddress (storable : Storable libraries.netipx encoder.compiled source) :
    Takes libraries decoder good recover
      (versioned (!source.networkInterfaceAddress.entries.isEmpty) version since name
        (fixed (ItemType.code .networkInterfaceAddress ::
          (writeUvarint source.networkInterfaceAddress.entries.length ++
            source.networkInterfaceAddress.entries.flatMap writeEntry))))
      fun rule => { rule with
        networkInterfaceAddress :=
          if source.networkInterfaceAddress.entries.isEmpty then rule.networkInterfaceAddress
          else source.networkInterfaceAddress } := by
  obtain ⟨sized, entries⟩ := storable.networkInterfaceAddress
  have each := reads_times_map fun entry member =>
    show Reads readEntry (writeEntry entry) entry from
      (reads_byte entry.1).bind ((reads_prefixes (entries entry member)).map (Prod.mk entry.1))
  rw [map_id'] at each
  refine takes_versionedList ?_
  cases source.networkInterfaceAddress.entries.isEmpty with
  | true => exact .inl ⟨rfl, fun rule => rfl⟩
  | false =>
    refine .inr ⟨.networkInterfaceAddress, _, rfl, fun rule => ?_⟩
    refine (reads_uvarint sized).bind ?_
    have read := each.map fun entries =>
      { rule with networkInterfaceAddress := TypedMap.ofEntries entries }
    rw [TypedMap.ofEntries_entries] at read
    exact read

/-- Every item is taken whole; the items stand in the order of the writer. -/
theorem takes_items (faithful : Faithful encoder decoder good)
    (storable : Storable libraries.netipx encoder.compiled source) :
    List.Forall₂ (Takes libraries decoder good recover) (itemParts libraries encoder version source)
      (updates libraries encoder recover version source) := by
  have sets {value : List Source.DNS.Prefix} {rawSet : Option IPSet} (sized : Sized value)
      (builds : value ≠ [] → libraries.netipx.Builds value)
      (raw : encoder.compiled = true → ∀ set ∈ rawSet, IPSet.WellFormed set) (set : IPSet)
      (chosen : set ∈ setOf libraries encoder value rawSet) (state : σ) :=
    faithful.ipSet set state (setOf_wellFormed sized builds raw set chosen)
  refine .cons (takes_optional (item_of_list (·.queryType)
    (fun rule value => { rule with queryType := value }) (reads_uint16s storable.queryType))) ?_
  refine .cons (takes_optional (item_of_list (·.network)
    (fun rule value => { rule with network := value }) (reads_strings storable.network))) ?_
  refine .cons (takes_compiled (fun _ _ _ done => writeDomain_ok done)
    (fun matcher _ => faithful.matcher matcher) (fun rule => rfl) (fun rule => rfl)) ?_
  refine .cons (takes_optional (item_of_list (·.domainKeyword)
    (fun rule value => { rule with domainKeyword := value })
    (reads_strings storable.domainKeyword))) ?_
  refine .cons (takes_optional (item_of_list (·.domainRegex)
    (fun rule value => { rule with domainRegex := value }) (reads_strings storable.domainRegex))) ?_
  refine .cons (takes_compiled (fun _ _ _ done => writeRuleItemCIDR_ok done)
    (sets storable.sourceIPCIDR storable.sourceBuilds storable.sourceIPSet) (fun rule => rfl) (fun rule => rfl)) ?_
  refine .cons (takes_compiled (fun _ _ _ done => writeRuleItemCIDR_ok done)
    (sets storable.ipCIDR storable.ipBuilds storable.ipSet) (fun rule => rfl) (fun rule => rfl)) ?_
  refine .cons (takes_optional (item_of_list (·.sourcePort)
    (fun rule value => { rule with sourcePort := value }) (reads_uint16s storable.sourcePort))) ?_
  refine .cons (takes_optional (item_of_list (·.sourcePortRange)
    (fun rule value => { rule with sourcePortRange := value })
    (reads_strings storable.sourcePortRange))) ?_
  refine .cons (takes_optional (item_of_list (·.port)
    (fun rule value => { rule with port := value }) (reads_uint16s storable.port))) ?_
  refine .cons (takes_optional (item_of_list (·.portRange)
    (fun rule value => { rule with portRange := value }) (reads_strings storable.portRange))) ?_
  refine .cons (takes_optional (item_of_list (·.processName)
    (fun rule value => { rule with processName := value }) (reads_strings storable.processName))) ?_
  refine .cons (takes_optional (item_of_list (·.processPath)
    (fun rule value => { rule with processPath := value }) (reads_strings storable.processPath))) ?_
  refine .cons (takes_optional (item_of_list (·.processPathRegex)
    (fun rule value => { rule with processPathRegex := value })
    (reads_strings storable.processPathRegex))) ?_
  refine .cons (takes_optional (item_of_list (·.packageName)
    (fun rule value => { rule with packageName := value }) (reads_strings storable.packageName))) ?_
  refine .cons (takes_versionedList (item_of_list (·.packageNameRegex)
    (fun rule value => { rule with packageNameRegex := value })
    (reads_strings storable.packageNameRegex))) ?_
  refine .cons (takes_versionedList (item_of_list (·.networkType)
    (fun rule value => { rule with networkType := value })
    (reads_string storable.networkType))) ?_
  refine .cons (takes_versioned (item_of_flag ?_ ?_)) ?_
  · intro absent rule
    rw [absent]
    rfl
  · intro present rule
    rw [present]
    rfl
  refine .cons (takes_versioned (item_of_flag ?_ ?_)) ?_
  · intro absent rule
    rw [absent]
    rfl
  · intro present rule
    rw [present]
    rfl
  refine .cons (takes_interfaceAddress storable) ?_
  refine .cons (takes_versionedList (item_of_list (·.defaultInterfaceAddress)
    (fun rule value => { rule with defaultInterfaceAddress := value })
    (reads_prefixes storable.defaultInterfaceAddress))) ?_
  refine .cons (takes_optional (item_of_list (·.wifiSSID)
    (fun rule value => { rule with wifiSSID := value }) (reads_strings storable.wifiSSID))) ?_
  refine .cons (takes_optional (item_of_list (·.wifiBSSID)
    (fun rule value => { rule with wifiBSSID := value }) (reads_strings storable.wifiBSSID))) ?_
  exact .cons (takes_compiled (fun _ _ _ done => writeAdGuard_ok done)
    (fun matcher _ => faithful.adGuard matcher) (fun rule => rfl) (fun rule => rfl)) .nil

/-! ## Whole rules -/

variable (libraries decoder recover) in
theorem readItems_item (item : ItemType) (rounds : Nat) (last : Byte)
    (rule : DefaultHeadlessRule μ ν) (input : Bytes) :
    readItems libraries decoder recover (rounds + 1) last rule (item.code :: input) =
      (readItem libraries decoder recover item rule >>=
        readItems libraries decoder recover rounds item.code) input := by
  change (if item.code = ruleItemFinal then _ else _ : Reader _) input = _
  rw [if_neg item.code_ne_final, item.ofCode_code]

/-- An item takes its bytes and at most as many rounds. -/
theorem Item.readItems_eq (item : Item libraries decoder recover bytes update) (rounds : Nat)
    (last : Byte) (rule : DefaultHeadlessRule μ ν) (rest : Bytes) (enough : bytes.length ≤ rounds) :
    ∃ left last', rounds ≤ left + bytes.length ∧
      readItems libraries decoder recover rounds last rule (bytes ++ rest) =
        readItems libraries decoder recover left last' (update rule) rest := by
  obtain ⟨rfl, same⟩ | ⟨item, body, rfl, reads⟩ := item
  · exact ⟨rounds, last, Nat.le_refl _, by rw [same, nil_append]⟩
  · obtain ⟨left, rfl⟩ : ∃ left, rounds = left + 1 := ⟨rounds - 1, by
      rw [length_cons] at enough
      omega⟩
    refine ⟨left, item.code, by rw [length_cons]; omega, ?_⟩
    rw [cons_append, readItems_item, (reads rule).bind_eq]

/-- The items one after the other, from the front. -/
theorem readItems_parts {parts : List (Source.SRS.Part σ)}
    {changes : List (DefaultHeadlessRule μ ν → DefaultHeadlessRule μ ν)}
    (takes : List.Forall₂ (Takes libraries decoder good recover) parts changes)
    (done : joinParts parts state = .ok (bytes, after)) (still : good after) :
    good state ∧ ∀ rounds last rule rest, bytes.length ≤ rounds → ∃ left last',
      rounds ≤ left + bytes.length ∧
        readItems libraries decoder recover rounds last rule (bytes ++ rest) =
          readItems libraries decoder recover left last'
            (changes.foldl (fun rule update => update rule) rule) rest := by
  induction takes generalizing state bytes with
  | nil =>
    cases done
    exact ⟨still, fun rounds last _ _ _ => ⟨rounds, last, Nat.le_refl _, rfl⟩⟩
  | @cons part update parts changes first _ ih =>
    obtain ⟨head, middle, more, wrote, others, rfl⟩ := joinParts_cons done
    obtain ⟨between, onward⟩ := ih others
    obtain ⟨before, item⟩ := first state head middle wrote between
    refine ⟨before, fun rounds last rule rest enough => ?_⟩
    rw [length_append] at enough ⊢
    obtain ⟨left, last', spent, here⟩ :=
      item.readItems_eq rounds last rule (more ++ rest) (by omega)
    obtain ⟨left', last'', spent', there⟩ := onward left last' (update rule) rest (by omega)
    refine ⟨left', last'', by omega, ?_⟩
    rw [append_assoc, here, there, foldl_cons]

theorem reads_defaultRule (faithful : Faithful encoder decoder good)
    (storable : Storable libraries.netipx encoder.compiled source)
    (done : writeDefaultRule libraries encoder version source state = .ok (bytes, after))
    (still : good after) :
    good state ∧ ∃ body, bytes = [0] ++ body ∧ Reads (readDefaultRule libraries decoder recover)
      body (restored libraries encoder recover version source) := by
  obtain ⟨⟨items, middle⟩, wrote, done⟩ := except_bind_ok done
  cases done
  obtain ⟨before, onward⟩ := readItems_parts (takes_items faithful storable) wrote still
  refine ⟨before, _, rfl, fun rest => ?_⟩
  unfold readDefaultRule
  obtain ⟨left, last, spent, read⟩ := onward
    ((items ++ [ruleItemFinal, writeBool source.invert] ++ rest).length + 1) 0 {}
    ([ruleItemFinal, writeBool source.invert] ++ rest) (by
      simp only [length_append]
      omega)
  obtain ⟨rounds, rfl⟩ : ∃ rounds, left = rounds + 1 := ⟨left - 1, by
    simp only [length_append] at spent
    omega⟩
  rw [append_assoc] at read ⊢
  rw [read]
  -- the final item ends the loop with the inversion flag
  have final := (reads_bool source.invert).map fun invert =>
    { (updates libraries encoder recover version source).foldl (fun rule update => update rule) {}
      with invert := invert }
  exact final rest

theorem writeRules_eq_map (rules : List (HeadlessRule μ ν)) :
    writeRules libraries encoder version rules = rules.map (writeRule libraries encoder version) := by
  induction rules with
  | nil => rfl
  | cons rule rest ih => rw [writeRules, ih, map_cons]

/-- A list of rules, each of which reads back. -/
theorem reads_parts {reader : Reader (HeadlessRule μ ν)}
    {back : HeadlessRule μ ν → HeadlessRule μ ν}
    (each : ∀ rule ∈ rules, ∀ state bytes after,
      writeRule libraries encoder version rule state = .ok (bytes, after) → good after →
      good state ∧ Reads reader bytes (back rule))
    (done : joinParts (writeRules libraries encoder version rules) state = .ok (bytes, after))
    (still : good after) :
    good state ∧ ∃ parts, bytes = parts.flatten ∧
      List.Forall₂ (Reads reader) parts (rules.map back) := by
  rw [writeRules_eq_map] at done
  induction rules generalizing state bytes with
  | nil =>
    cases done
    exact ⟨still, [], rfl, .nil⟩
  | cons rule rest ih =>
    obtain ⟨head, middle, more, wrote, others, rfl⟩ := joinParts_cons done
    obtain ⟨between, parts, rfl, later⟩ :=
      ih (fun rule member => each rule (mem_cons_of_mem _ member)) others
    obtain ⟨before, first⟩ := each rule mem_cons_self state head middle wrote between
    exact ⟨before, head :: parts, rfl, .cons first later⟩

theorem reads_indexed (name : String) {reader : Reader α} {parts : List Bytes} {values : List α}
    (reads : List.Forall₂ (Reads reader) parts values) (index : Nat) :
    Reads (readIndexed name reader values.length index) parts.flatten values := by
  induction reads generalizing index with
  | nil => exact Reads.pure []
  | @cons bytes value parts values first _ ih =>
    rw [length_cons, readIndexed]
    refine Reads.bind (fun rest => ?_) ((ih (index + 1)).map (cons value))
    rw [first rest]

/-- Rules read back as they were written, with a level for each rule below another. -/
theorem reads_rule (faithful : Faithful encoder decoder good) (rule : HeadlessRule μ ν) :
    ∀ levels state bytes after, depth rule ≤ levels →
      Throughout (Storable libraries.netipx encoder.compiled) rule →
      writeRule libraries encoder version rule state = .ok (bytes, after) → good after →
        good state ∧ Reads (readRule libraries decoder recover (levels + 1)) bytes
          (rule.map (restored libraries encoder recover version)) := by
  induction rule using ind with
  | default source =>
    intro levels state bytes after _ storable done still
    obtain ⟨before, body, rfl, reads⟩ := reads_defaultRule faithful storable done still
    exact ⟨before, (reads_byte 0).bind (reads.map default)⟩
  | logical mode rules invert ih =>
    intro levels state bytes after shallow storable done still
    rw [writeRule] at done
    obtain ⟨⟨body, middle⟩, wrote, done⟩ := except_bind_ok done
    cases done
    obtain ⟨sized, leaves⟩ := storable
    rw [throughoutAll_iff] at leaves
    rw [depth] at shallow
    -- the rules below are read with one level less, and lie one level higher
    have each : ∀ rule ∈ rules, ∀ state bytes after,
        writeRule libraries encoder version rule state = .ok (bytes, after) → good after →
          good state ∧ Reads (readRule libraries decoder recover levels) bytes
            (rule.map (restored libraries encoder recover version)) := by
      intro rule member state bytes after wrote still
      have deep := depth_lt_of_mem member
      obtain ⟨below, rfl⟩ : ∃ below, levels = below + 1 := ⟨levels - 1, by omega⟩
      exact ih rule member below state bytes after (by omega) (leaves rule member) wrote still
    obtain ⟨before, parts, rfl, lists⟩ := reads_parts each wrote still
    have inner := reads_indexed "read logical rule " lists 0
    rw [length_map] at inner
    refine ⟨before, (reads_byte 1).bind ?_⟩
    rw [if_neg (by decide), if_pos rfl]
    refine (reads_byte (modeByte mode)).bind ?_
    rw [if_pos (by cases mode <;> decide)]
    refine (reads_uvarint sized).bind (inner.bind ?_)
    have last := (reads_bool invert).map fun invert => logical
      (if modeByte mode = 0 then .and else .or)
      (rules.map (map (restored libraries encoder recover version))) invert
    rw [RuleTree.map, mapList_eq_map]
    cases mode with
    | and => exact last
    | or => exact last

/-- All rules of a rule-set, behind their number. -/
theorem reads_body (faithful : Faithful encoder decoder good) (sized : Sized rules)
    (shallow : ∀ rule ∈ rules, depth rule ≤ maxLogicalRuleDepth)
    (storable : ThroughoutAll (Storable libraries.netipx encoder.compiled) rules)
    (wrote : joinParts (writeRules libraries encoder version rules) state = .ok (body, after))
    (still : good after) :
    Reads (readBody libraries decoder recover) (writeUvarint rules.length ++ body)
      (rules.map (map (restored libraries encoder recover version))) := by
  rw [throughoutAll_iff] at storable
  have each : ∀ rule ∈ rules, ∀ state bytes after,
      writeRule libraries encoder version rule state = .ok (bytes, after) → good after →
        good state ∧ Reads (readRule libraries decoder recover (maxLogicalRuleDepth + 1)) bytes
          (rule.map (restored libraries encoder recover version)) :=
    fun rule member state bytes after => reads_rule faithful rule maxLogicalRuleDepth state bytes
      after (shallow rule member) (storable rule member)
  obtain ⟨-, parts, rfl, lists⟩ := reads_parts each wrote still
  have inner := reads_indexed "read rule" lists 0
  rw [length_map] at inner
  exact (reads_uvarint sized).bind inner

end AmneziaBox.Guarantees.RuleSetItems
