import AmneziaBox.Guarantees.MappedLayout

/-!
# A mapped rule-set is the rule-set that was read

What `Read` gives can be stored again, and `ReadMmap` gives it back from the mapped file,
matchers and ranges included. There are two exceptions. `WriteMmap` checks the version of
a rule-set against its items, which `Read` does not. And `ReadMmap` never recovers lists.
-/
namespace AmneziaBox.Guarantees.MappedRuleSet
open Source.Adapter Source.Rule Source.SRS Library RuleSetItems RuleSetRoundTrip MappedLayout
open RuleTree List
open MmapReader

variable {μ ν σ : Type} {order : Endian} {libraries : MmapLibraries μ ν}

/-! ## Compiled items -/

theorem parsed_eq {α : Type} {parse : Reader α} {bytes : Bytes} {value : α}
    (reads : Reads parse bytes value) : parsed parse bytes = .ok value := by
  have whole := reads []
  rw [append_nil] at whole
  unfold parsed
  rw [whole]

section Image
variable {version : Byte} {rules : Bytes} {blobs earlier later : List Blob}

section Fits
variable (fits : (mmapImage order version rules blobs).length < 2 ^ 64)
include fits

theorem size_lt {blob : Blob}
    (here : blobs = earlier ++ blob :: later) : blob.size < 2 ^ 64 := by
  have size : (blobs.map Blob.size).sum =
      (earlier.map Blob.size).sum + (blob.size + (later.map Blob.size).sum) := by
    rw [here, map_append, sum_append, map_cons, sum_cons]
  rw [image_length] at fits
  omega

theorem reads_succinctMmap {matcher : Succinct}
    (here : blobs = earlier ++ .succinct matcher :: later) :
    Reads ((imageReader order version rules blobs).readSuccinctMmap order)
      (writeUvarint earlier.length) matcher := by
  refine (reads_blob fits here).bind_nil ?_
  rw [parsed_eq (reads_succinct (size_lt fits here))]
  exact Reads.pure matcher

theorem mapped_faithful :
    Faithful (mmapEncoder libraries) ((imageReader order version rules blobs).decoder order libraries)
      (· <+: blobs) := by
  -- a blob that was kept is still in its place at the end
  have kept {state : List Blob} {blob : Blob} (good : state ++ [blob] <+: blobs) :
      state <+: blobs ∧ ∃ later, blobs = state ++ blob :: later := by
    obtain ⟨later, rfl⟩ := good
    rw [append_assoc]
    exact ⟨prefix_append _ _, later, rfl⟩
  refine ⟨?_, ?_, ?_⟩
  · intro matcher state good
    obtain ⟨before, later, here⟩ := kept good
    refine ⟨before, (reads_succinctMmap fits here).bind_nil ?_⟩
    rw [libraries.newMatcherFromMmap_mmap]
    exact Reads.pure matcher
  · intro set state wellFormed good
    obtain ⟨before, later, here⟩ := kept good
    refine ⟨before, (reads_blob fits here).bind_nil ?_⟩
    rw [parsed_eq (reads_ipRanges wellFormed)]
    refine (Reads.pure (set.ranges4, set.ranges6)).bind_nil ?_
    rw [fromRanges_eq wellFormed.ascending]
    exact Reads.pure set
  · intro matcher state good
    obtain ⟨before, later, here⟩ := kept good
    refine ⟨before, (reads_succinctMmap fits here).bind_nil ?_⟩
    rw [libraries.newAdGuardMatcherFromMmap_mmap]
    exact Reads.pure matcher

/-- `ReadMmap` finds its way through the header of a written file. -/
theorem readMmap_image {trees : List (HeadlessRule μ ν)}
    (reads : Reads (readBody libraries.toLibraries
      ((imageReader order version rules blobs).decoder order libraries) false) rules trees) :
    readMmap order libraries (mmapImage order version rules blobs) = .ok ⟨version, trees⟩ := by
  obtain ⟨versionAt, lengthAt, offsetAt, countAt⟩ := image_header fits
  have whole := reads []
  rw [append_nil] at whole
  have long : ¬ (mmapImage order version rules blobs).length < mmapHeaderSize := by
    rw [image_eq, length_append, headerBytes_length]
    omega
  have magic : (mmapImage order version rules blobs).take 4 = mmapMagic := by
    rw [image_eq]
    rfl
  have format : order.get (Segment.slice ⟨4, 4⟩ (mmapImage order version rules blobs)) =
      mmapFormatVersion := by
    have found := Segment.slice_append mmapMagic (order.put 4 mmapFormatVersion)
      (writeMmapUint64 order [version.toNat, rules.length, tableOffset rules, blobs.length] ++
        (rules ++ (paddingBytes rules ++ (writeBlobTable order (firstBlob rules blobs) blobs ++
          blobs.flatMap (Blob.write order)))))
    rw [order.put_length] at found
    rw [image_eq, headerBytes, append_assoc, append_assoc]
    exact (congrArg order.get found).trans (order.get_put (by decide))
  have rulesAt : mmapSection (mmapImage order version rules blobs) mmapHeaderSize rules.length =
      .ok rules := by
    have found := mmapSection_append rules (paddingBytes rules ++
      (writeBlobTable order (firstBlob rules blobs) blobs ++ blobs.flatMap (Blob.write order)))
      (show 8 ∣ (headerBytes order version rules blobs).length by
        rw [headerBytes_length]
        decide)
    rwa [headerBytes_length, ← image_eq] at found
  have tableAt : mmapSection (mmapImage order version rules blobs) (tableOffset rules)
      (blobs.length * mmapBlobEntrySize % 2 ^ 64) =
      .ok (writeBlobTable order (firstBlob rules blobs) blobs) := by
    have found := mmapSection_append (writeBlobTable order (firstBlob rules blobs) blobs)
      (blobs.flatMap (Blob.write order))
      (show 8 ∣ (frontBytes order version rules blobs).length by
        rw [frontBytes_length]
        exact alignUp_dvd 8 _)
    rw [image_length, firstBlob] at fits
    rw [Nat.mod_eq_of_lt (by omega)]
    rwa [frontBytes_length, writeBlobTable_length, ← image_table] at found
  unfold readMmap
  rw [if_neg long, if_neg (not_not.mpr magic), if_neg (not_not.mpr format), versionAt, lengthAt,
    offsetAt, countAt]
  dsimp only
  rw [rulesAt]
  simp only [bind, Except.bind]
  rw [tableAt]
  simp only
  rw [show (⟨mmapImage order version rules blobs, writeBlobTable order (firstBlob rules blobs) blobs,
    blobs.length⟩ : MmapReader) = imageReader order version rules blobs from rfl, whole]
  simp only [pure, Except.pure]
  rw [BitVec.ofNat_toNat, BitVec.setWidth_eq]

end Fits

end Image

/-! ## What `Read` can give -/

theorem yields_string : Yields readString Sized :=
  yields_uvarint.bind fun _ small input value rest done => by
    have length := yields_full _ input value rest done
    exact lt_of_eq_of_lt length small

/-- A list behind its length. -/
theorem yields_list {α : Type} {reader : Reader α} {holds : α → Prop} (each : Yields reader holds) :
    Yields (readUvarint >>= fun length => readTimes length reader) fun values =>
      Sized values ∧ ∀ value ∈ values, holds value :=
  yields_uvarint.bind fun _ small input values rest done => by
    obtain ⟨length, all⟩ := yields_times each _ input values rest done
    exact ⟨lt_of_eq_of_lt length small, all⟩

theorem yields_strings : Yields readRuleItemString SizedStrings := yields_list yields_string

theorem yields_uint16s : Yields readUint16s Sized := fun input value rest done =>
  (yields_list (yields_any _) input value rest done).1

theorem yields_ipSetAddr :
    Yields readIPSetAddr fun address => address.2 < 2 ^ Family.width address.1 := by
  refine (yields_any readUvarint).bind fun length _ => ?_
  split
  · exact (yields_bigEndian 4).map fun value bound => bound
  split
  · exact (yields_bigEndian 16).map fun value bound => bound
  · exact Yields.throw

theorem yields_prefix : Yields readPrefix Canonical := by
  refine (yields_any readIPSetAddr).bind fun address _ => ?_
  refine (yields_any readByte).map fun bits _ => ⟨?_, ?_⟩
  · cases address.1 <;> rfl
  · unfold prefixFrom
    split
    · rename_i bounded
      exact .inl bounded
    · exact .inr rfl

theorem yields_prefixes : Yields readPrefixes StorablePrefixes := yields_list yields_prefix

theorem yields_range : Yields readRange fun range => range.2.hi < 2 ^ Family.width range.1 := by
  refine (yields_any readIPSetAddr).bind fun low _ => yields_ipSetAddr.bind fun high bound => ?_
  dsimp only
  split
  · rename_i same
    rw [← same] at bound
    exact Yields.pure bound
  · exact Yields.throw

theorem ofFamily_length (ranges : List IPRange) :
    (ofFamily .v4 ranges).length + (ofFamily .v6 ranges).length = ranges.length := by
  induction ranges with
  | nil => rfl
  | cons first rest ih =>
    obtain ⟨family, range⟩ := first
    cases family <;> simp [ofFamily] at ih ⊢ <;> omega

/-- Both families of the ranges that were read, sorted, as `FromRanges` accepts them. -/
theorem wellFormed_of_ranges {ranges : List IPRange} {set : IPSet}
    (sized : ranges.length < 2 ^ 64)
    (bounded : ∀ range ∈ ranges, range.2.hi < 2 ^ Family.width range.1)
    (made : fromRanges (sortRanges (ofFamily .v4 ranges)) (sortRanges (ofFamily .v6 ranges)) =
      .ok set) : set.WellFormed := by
  obtain ⟨rfl, four, six⟩ := fromRanges_ok made
  have sorted (family : Family) : IPSet.ranges ⟨sortRanges (ofFamily .v4 ranges),
      sortRanges (ofFamily .v6 ranges)⟩ family = sortRanges (ofFamily family ranges) := by
    cases family <;> rfl
  refine ⟨?_, ?_, ?_⟩
  · intro family
    cases family with
    | v4 => exact four
    | v6 => exact six
  · intro family range member
    rw [sorted, sortRanges, mem_insertionSort, mem_ofFamily] at member
    exact bounded _ member
  · simp only [sortRanges, length_insertionSort]
    rw [ofFamily_length]
    exact sized

theorem yields_ipSet : Yields Source.SRS.readIPSet IPSet.WellFormed := by
  refine (yields_any readByte).bind fun version _ => ?_
  split
  · refine (yields_bigEndian 8).bind fun length small => ?_
    refine (yields_times yields_range length).bind fun ranges read => ?_
    intro input set rest done
    cases made : fromRanges (sortRanges (ofFamily .v4 ranges)) (sortRanges (ofFamily .v6 ranges)) with
    | error err =>
      rw [made] at done
      cases done
    | ok accepted =>
      rw [made] at done
      cases done
      exact wellFormed_of_ranges (lt_of_eq_of_lt read.1 small) read.2 made
  · exact Yields.throw

/-! ## Rules that were read -/

/-- A rule without the recovered address lists. -/
def bare (rule : DefaultHeadlessRule μ ν) : DefaultHeadlessRule μ ν :=
  { rule with sourceIPCIDR := [], ipCIDR := [] }

variable {rule : DefaultHeadlessRule μ ν}

section Reading
variable {libraries : Libraries μ ν} {decoder : Decoder μ ν} {recover : Bool}

theorem yields_item (sets : Yields decoder.ipSet IPSet.WellFormed) (item : ItemType)
    (storable : Storable libraries.netipx true (bare rule)) :
    Yields (readItem libraries decoder recover item rule) fun rule =>
      Storable libraries.netipx true (bare rule) := by
  cases item with
  | queryType => exact yields_uint16s.map fun _ sized => { storable with queryType := sized }
  | network => exact yields_strings.map fun _ sized => { storable with network := sized }
  | domain | adGuardDomain => exact (yields_any _).map fun _ _ => { storable with }
  | domainKeyword =>
    exact yields_strings.map fun _ sized => { storable with domainKeyword := sized }
  | domainRegex => exact yields_strings.map fun _ sized => { storable with domainRegex := sized }
  | sourceIPCIDR =>
    exact sets.map fun set wellFormed =>
      { storable with sourceIPSet := fun _ _ here => Option.some.inj here ▸ wellFormed }
  | ipCIDR =>
    exact sets.map fun set wellFormed =>
      { storable with ipSet := fun _ _ here => Option.some.inj here ▸ wellFormed }
  | sourcePort => exact yields_uint16s.map fun _ sized => { storable with sourcePort := sized }
  | sourcePortRange =>
    exact yields_strings.map fun _ sized => { storable with sourcePortRange := sized }
  | port => exact yields_uint16s.map fun _ sized => { storable with port := sized }
  | portRange => exact yields_strings.map fun _ sized => { storable with portRange := sized }
  | processName => exact yields_strings.map fun _ sized => { storable with processName := sized }
  | processPath => exact yields_strings.map fun _ sized => { storable with processPath := sized }
  | packageName => exact yields_strings.map fun _ sized => { storable with packageName := sized }
  | wifiSSID => exact yields_strings.map fun _ sized => { storable with wifiSSID := sized }
  | wifiBSSID => exact yields_strings.map fun _ sized => { storable with wifiBSSID := sized }
  | processPathRegex =>
    exact yields_strings.map fun _ sized => { storable with processPathRegex := sized }
  | networkType => exact yields_string.map fun _ sized => { storable with networkType := sized }
  | networkIsExpensive | networkIsConstrained => exact Yields.pure { storable with }
  | networkInterfaceAddress =>
    refine yields_uvarint.bind fun size small => ?_
    have entry : Yields readEntry fun entry => StorablePrefixes entry.2 :=
      (yields_any readByte).bind fun _ _ => yields_prefixes.map fun _ storable => storable
    refine (yields_times entry size).map fun entries read => ?_
    obtain ⟨length, subset⟩ := TypedMap.ofEntries_subset entries
    have sized : Sized (TypedMap.ofEntries entries).entries :=
      lt_of_le_of_lt (length.trans_eq read.1) small
    exact { storable with
      networkInterfaceAddress := ⟨sized, fun entry member => read.2 entry (subset entry member)⟩ }
  | defaultInterfaceAddress =>
    exact yields_prefixes.map fun _ sized => { storable with defaultInterfaceAddress := sized }
  | packageNameRegex =>
    exact yields_strings.map fun _ sized => { storable with packageNameRegex := sized }

/-- Without recovery a rule has compiled forms only. -/
structure CompiledOnly (rule : DefaultHeadlessRule μ ν) : Prop where
  domain : rule.domain = []
  domainSuffix : rule.domainSuffix = []
  sourceIPCIDR : rule.sourceIPCIDR = []
  ipCIDR : rule.ipCIDR = []
  adGuardDomain : rule.adGuardDomain = []

theorem yields_item_compiledOnly (item : ItemType) (compiled : CompiledOnly rule) :
    Yields (readItem libraries decoder false item rule) CompiledOnly := by
  cases item with
  | networkIsExpensive | networkIsConstrained => exact Yields.pure { compiled with }
  | networkInterfaceAddress =>
    exact (yields_any _).bind fun _ _ => (yields_any _).map fun _ _ => { compiled with }
  | _ => exact (yields_any _).map fun _ _ => { compiled with }

variable {holds : DefaultHeadlessRule μ ν → Prop}

section
variable
  (item : ∀ item rule, holds rule → Yields (readItem libraries decoder recover item rule) holds)
  (flag : ∀ rule invert, holds rule → holds { rule with invert := invert })
include item flag

/-- What every item keeps holds of the rule at the end. -/
theorem yields_items (rounds : Nat) :
    ∀ last rule, holds rule → Yields (readItems libraries decoder recover rounds last rule) holds := by
  induction rounds with
  | zero => exact fun _ _ _ => Yields.throw
  | succ rounds ih =>
    intro last rule holding
    refine (yields_any readByte).bind fun code _ => ?_
    split
    · exact (yields_any readBool).map fun invert _ => flag rule invert holding
    · split
      · exact (item _ rule holding).bind fun rule holding => ih code rule holding
      · exact Yields.throw

theorem yields_defaultRule (start : holds {}) :
    Yields (readDefaultRule libraries decoder recover) holds :=
  fun input value rest done => yields_items item flag _ 0 {} start input value rest done

end

theorem yields_indexed {α : Type} {reader : Reader α} {holds : α → Prop}
    (each : Yields reader holds) (name : String) (count : Nat) :
    ∀ index, Yields (readIndexed name reader count index) fun values =>
      values.length = count ∧ ∀ value ∈ values, holds value := by
  induction count with
  | zero => exact fun _ => Yields.pure ⟨rfl, nofun⟩
  | succ count ih =>
    intro index
    rw [readIndexed]
    refine Yields.bind (fun input value rest done => ?_) fun value (holding : holds value) =>
      (ih (index + 1)).map fun values others => ?_
    · split at done
      · rename_i taken read
        cases done
        exact each input value rest read
      · cases done
      · cases done
    · exact ⟨congrArg (· + 1) others.1, forall_mem_cons.mpr ⟨holding, others.2⟩⟩

theorem depthBelow_le {rules : List (HeadlessRule μ ν)} {levels : Nat}
    (below : ∀ rule ∈ rules, depth rule < levels) : depthBelow rules ≤ levels := by
  induction rules with
  | nil => exact Nat.zero_le _
  | cons rule rest ih =>
    obtain ⟨first, others⟩ := forall_mem_cons.mp below
    exact Nat.max_le.mpr ⟨first, ih others⟩

/-- A rule that was read is no deeper than its levels. -/
theorem yields_rule (leaf : Yields (readDefaultRule libraries decoder recover) holds)
    (levels : Nat) :
    Yields (readRule libraries decoder recover levels) fun rule =>
      depth rule < levels ∧ Throughout holds rule := by
  induction levels with
  | zero => exact Yields.throw
  | succ levels ih =>
    refine (yields_any readByte).bind fun ruleType _ => ?_
    split
    · exact leaf.map fun rule holding => ⟨Nat.zero_lt_succ _, holding⟩
    split
    · refine (yields_any readByte).bind fun mode _ => ?_
      split
      · refine yields_uvarint.bind fun length small => ?_
        refine (yields_indexed ih "read logical rule " length 0).bind fun rules read => ?_
        refine (yields_any readBool).map fun invert _ => ⟨?_, ?_, ?_⟩
        · exact Nat.lt_succ_of_le (depthBelow_le fun rule member => (read.2 rule member).1)
        · exact lt_of_eq_of_lt read.1 small
        · exact throughoutAll_iff.mpr fun rule member => (read.2 rule member).2
      · exact Yields.throw
    · exact Yields.throw

theorem yields_body (leaf : Yields (readDefaultRule libraries decoder recover) holds) :
    Yields (readBody libraries decoder recover) fun rules =>
      Sized rules ∧ (∀ rule ∈ rules, depth rule ≤ maxLogicalRuleDepth) ∧
        ThroughoutAll holds rules := by
  refine yields_uvarint.bind fun length small input rules rest done => ?_
  obtain ⟨counted, each⟩ := yields_indexed (yields_rule leaf _) "read rule" length 0 input rules rest
    done
  exact ⟨lt_of_eq_of_lt counted small, fun rule member => Nat.le_of_lt_succ (each rule member).1,
    throughoutAll_iff.mpr fun rule member => (each rule member).2⟩

end Reading

/-! ## Versions -/

/-- The version has all items of the rule. -/
structure Supported (version : Byte) (rule : DefaultHeadlessRule μ ν) : Prop where
  packageNameRegex : rule.packageNameRegex.isEmpty = false → ¬ version < 5
  networkType : rule.networkType.isEmpty = false → ¬ version < 3
  networkIsExpensive : rule.networkIsExpensive = true → ¬ version < 3
  networkIsConstrained : rule.networkIsConstrained = true → ¬ version < 3
  networkInterfaceAddress :
    rule.networkInterfaceAddress.entries.isEmpty = false → ¬ version < 4
  defaultInterfaceAddress : rule.defaultInterfaceAddress.isEmpty = false → ¬ version < 4
  adGuardDomainMatcher : rule.adGuardDomainMatcher.isSome = true → ¬ version < 2

section Writing
variable {encoder : Encoder μ ν σ} {libraries : Libraries μ ν} {version : Byte}

theorem joinParts_total {parts : List (Source.SRS.Part σ)}
    (each : ∀ part ∈ parts, ∀ state, ∃ result, part state = .ok result) (state : σ) :
    ∃ result, joinParts parts state = .ok result := by
  induction parts generalizing state with
  | nil => exact ⟨_, rfl⟩
  | cons part rest ih =>
    obtain ⟨first, others⟩ := forall_mem_cons.mp each
    obtain ⟨head, wrote⟩ := first state
    obtain ⟨more, written⟩ := ih others head.2
    refine ⟨(head.1 ++ more.1, more.2), ?_⟩
    rw [joinParts, wrote]
    simp only [bind, Except.bind]
    rw [written]
    rfl

variable {bytes : Bytes}

theorem versioned_total {present : Bool} {since : Byte} {name : String}
    (supported : present = true → ¬ version < since) (state : σ) :
    ∃ result, versioned present version since name (fixed bytes) state = .ok result := by
  unfold versioned
  cases present with
  | false => exact ⟨_, rfl⟩
  | true => exact ⟨_, by rw [if_pos rfl, if_neg (supported rfl)]; rfl⟩

theorem versioned_supported {present : Bool} {since : Byte} {name : String}
    {part : Source.SRS.Part σ} {state after : σ}
    (done : versioned present version since name part state = .ok (bytes, after)) :
    present = true → ¬ version < since := by
  intro given
  obtain ⟨-, late, -⟩ | ⟨absent, -⟩ := versioned_ok done
  · exact late
  · rw [given] at absent
    cases absent

section Compiled
variable (compiled : encoder.compiled = true)
include compiled

theorem adGuardMatcherOf_compiled (lists : CompiledOnly rule) :
    adGuardMatcherOf libraries encoder rule = rule.adGuardDomainMatcher := by
  unfold adGuardMatcherOf
  rw [lists.adGuardDomain, compiled]
  rfl

theorem domainMatcherOf_compiled (lists : CompiledOnly rule) :
    domainMatcherOf libraries encoder version rule = rule.domainMatcher := by
  unfold domainMatcherOf
  rw [lists.domain, lists.domainSuffix, compiled]
  rfl

theorem setOf_compiled (rawSet : Option IPSet) :
    RuleSetItems.setOf libraries encoder [] rawSet = rawSet := by
  unfold RuleSetItems.setOf
  rw [compiled]
  rfl

/-- A rule that was written has only items of its version. -/
theorem supported_of_written (lists : CompiledOnly rule)
    {state after : σ}
    (done : writeDefaultRule libraries encoder version rule state = .ok (bytes, after)) :
    Supported version rule := by
  obtain ⟨items, wrote⟩ := writeDefaultRule_ok done
  have gate {index : Nat} {present : Bool} {since : Byte} {name : String}
      {part : Source.SRS.Part σ}
      (here : (itemParts libraries encoder version rule)[index]? =
        some (versioned present version since name part)) : present = true → ¬ version < since := by
    obtain ⟨_, _, _, this⟩ := part_ok _ (mem_of_getElem? here) wrote
    exact versioned_supported this
  refine ⟨?_, ?_, @gate 17 _ _ _ _ rfl, @gate 18 _ _ _ _ rfl, ?_, ?_, ?_⟩
  · exact fun given => @gate 15 _ _ _ _ rfl (by rw [given]; rfl)
  · exact fun given => @gate 16 _ _ _ _ rfl (by rw [given]; rfl)
  · exact fun given => @gate 19 _ _ _ _ rfl (by rw [given]; rfl)
  · exact fun given => @gate 20 _ _ _ _ rfl (by rw [given]; rfl)
  · intro given
    obtain ⟨matcher, here⟩ := Option.isSome_iff_exists.mp given
    obtain ⟨_, _, _, this⟩ := part_ok (writeAdGuard libraries encoder version rule)
      (by simp [itemParts]) wrote
    unfold writeAdGuard at this
    rw [adGuardMatcherOf_compiled compiled lists, here] at this
    exact versioned_supported this rfl

theorem written_of_supported (lists : CompiledOnly rule)
    (supported : Supported version rule) (state : σ) :
    ∃ result, writeDefaultRule libraries encoder version rule state = .ok result := by
  have given {α : Type} {list : List α} (h : (!list.isEmpty) = true) : list.isEmpty = false := by
    simpa using h
  have address {item : ItemType} {name : String} {rawSet : Option IPSet} (state : σ) :
      ∃ result, writeRuleItemCIDR libraries encoder item name [] rawSet state = .ok result := by
    unfold writeRuleItemCIDR
    rw [compiled]
    cases rawSet <;> exact ⟨_, rfl⟩
  have parts : ∀ part ∈ itemParts libraries encoder version rule, ∀ state,
      ∃ result, part state = .ok result := by
    simp only [itemParts, forall_mem_cons, not_mem_nil, false_imp_iff, implies_true,
      and_true]
    refine ⟨fun _ => ⟨_, rfl⟩, fun _ => ⟨_, rfl⟩, ?_, fun _ => ⟨_, rfl⟩, fun _ => ⟨_, rfl⟩, ?_, ?_,
      fun _ => ⟨_, rfl⟩, fun _ => ⟨_, rfl⟩, fun _ => ⟨_, rfl⟩, fun _ => ⟨_, rfl⟩, fun _ => ⟨_, rfl⟩,
      fun _ => ⟨_, rfl⟩, fun _ => ⟨_, rfl⟩, fun _ => ⟨_, rfl⟩,
      versioned_total fun h => supported.packageNameRegex (given h),
      versioned_total fun h => supported.networkType (given h),
      versioned_total supported.networkIsExpensive,
      versioned_total supported.networkIsConstrained,
      versioned_total fun h => supported.networkInterfaceAddress (given h),
      versioned_total fun h => supported.defaultInterfaceAddress (given h),
      fun _ => ⟨_, rfl⟩, fun _ => ⟨_, rfl⟩, ?_⟩
    · intro state
      unfold writeDomain
      rw [domainMatcherOf_compiled compiled lists, lists.domain, lists.domainSuffix]
      cases rule.domainMatcher <;> exact ⟨_, rfl⟩
    · rw [lists.sourceIPCIDR]
      exact address
    · rw [lists.ipCIDR]
      exact address
    · intro state
      unfold writeAdGuard
      rw [adGuardMatcherOf_compiled compiled lists]
      cases here : rule.adGuardDomainMatcher with
      | none => exact ⟨_, rfl⟩
      | some matcher =>
        have late := supported.adGuardDomainMatcher (by rw [here]; rfl)
        dsimp only
        unfold versioned
        rw [if_pos rfl, if_neg late]
        exact ⟨_, rfl⟩
  obtain ⟨result, wrote⟩ := joinParts_total parts state
  unfold writeDefaultRule
  rw [wrote]
  exact ⟨_, rfl⟩

end Compiled

theorem nothing_recovered {α β : Type} (chosen : Option α) :
    (chosen.map fun _ => ([] : List β)).getD [] = [] := by
  cases chosen <;> rfl

/-- Compiled forms come back as they are. -/
theorem restored_eq (compiled : encoder.compiled = true) (lists : CompiledOnly rule) :
    restored libraries encoder false version rule = rule := by
  unfold restored updates
  rw [domainMatcherOf_compiled compiled lists, adGuardMatcherOf_compiled compiled lists,
    lists.sourceIPCIDR, lists.ipCIDR, setOf_compiled compiled, setOf_compiled compiled]
  obtain ⟨noDomain, noSuffix, noSource, noIP, noAdGuard⟩ := lists
  cases rule
  cases noDomain
  cases noSuffix
  cases noSource
  cases noIP
  cases noAdGuard
  simp only [foldl_cons, foldl_nil, withMatcher, withSourceIPSet, withIPSet, withAdGuard,
    given_nil, interfaceAddress_or_empty, Bool.or_false, Bool.false_eq_true, if_false,
    nothing_recovered, Option.orElse_eq_orElse, Option.orElse_eq_or, Option.or_none]

theorem map_restored (compiled : encoder.compiled = true) (rule : HeadlessRule μ ν) :
    Throughout CompiledOnly rule → rule.map (restored libraries encoder false version) = rule := by
  induction rule using ind with
  | default rule => exact fun lists => congrArg default (restored_eq compiled lists)
  | logical mode rules invert ih =>
    rintro ⟨-, below⟩
    rw [throughoutAll_iff] at below
    rw [RuleTree.map, mapList_eq_map]
    have same : rules.map (RuleTree.map (restored libraries encoder false version)) = rules := by
      rw [map_congr_left fun rule member => ih rule member (below rule member), map_id']
    rw [same]

theorem writeRule_total (compiled : encoder.compiled = true) (rule : HeadlessRule μ ν) :
    Throughout (fun rule => Supported version rule ∧ CompiledOnly rule) rule →
      ∀ state, ∃ result, writeRule libraries encoder version rule state = .ok result := by
  induction rule using ind with
  | default rule =>
    intro fine state
    exact written_of_supported compiled fine.2 fine.1 state
  | logical mode rules invert ih =>
    rintro ⟨-, below⟩ state
    rw [throughoutAll_iff] at below
    have each : ∀ part ∈ writeRules libraries encoder version rules, ∀ state,
        ∃ result, part state = .ok result := by
      rw [writeRules_eq_map]
      exact forall_mem_map.mpr fun rule member => ih rule member (below rule member)
    obtain ⟨result, wrote⟩ := joinParts_total each state
    rw [writeRule]
    dsimp only
    rw [wrote]
    exact ⟨_, rfl⟩

end Writing

/-! ## The whole way -/

/-- All items of the rules exist in their version, and no list was recovered. -/
def Mappable (ruleSet : PlainRuleSetCompat μ ν) : Prop :=
  ThroughoutAll (fun rule => Supported ruleSet.version rule ∧ CompiledOnly rule) ruleSet.rules

variable {ruleSet : PlainRuleSetCompat μ ν} {image : Bytes}

theorem writeMmap_ok (written : writeMmap order libraries ruleSet = .ok image) :
    ∃ body blobs, joinParts (writeRules libraries.toLibraries (mmapEncoder libraries)
        ruleSet.version ruleSet.rules) [] = .ok (body, blobs) ∧
      image = mmapImage order ruleSet.version (writeUvarint ruleSet.rules.length ++ body) blobs := by
  obtain ⟨⟨body, blobs⟩, wrote, rest⟩ := except_bind_ok written
  cases rest
  exact ⟨body, blobs, wrote, rfl⟩

variable {file : Bytes} {recover : Bool}

theorem read_ok {libraries : Libraries μ ν} (done : read libraries file recover = .ok ruleSet) :
    ∃ body rest, readBody libraries (plainDecoder libraries) recover body =
      .ok (ruleSet.rules, rest) := by
  obtain ⟨⟨magic, behind⟩, -, done⟩ := except_bind_ok done
  dsimp only at done
  split at done
  · cases done
  obtain ⟨⟨version, packed⟩, -, done⟩ := except_bind_ok done
  split at done
  · cases done
  obtain ⟨body, -, done⟩ := except_bind_ok done
  obtain ⟨⟨rules, rest⟩, readRules, done⟩ := except_bind_ok done
  cases done
  exact ⟨body, rest, readRules⟩

theorem readMmap_ok (done : readMmap order libraries image = .ok ruleSet) :
    ∃ decoder body rest, readBody libraries.toLibraries decoder false body =
      .ok (ruleSet.rules, rest) := by
  unfold readMmap at done
  split at done
  · cases done
  split at done
  · cases done
  split at done
  · cases done
  obtain ⟨body, -, done⟩ := except_bind_ok done
  obtain ⟨table, -, done⟩ := except_bind_ok done
  obtain ⟨⟨rules, rest⟩, readRules, done⟩ := except_bind_ok done
  cases done
  exact ⟨_, body, rest, readRules⟩

/-- What `Read` gives can be stored, compiled sets included. -/
theorem storable_of_read (done : read libraries.toLibraries file recover = .ok ruleSet) :
    Sized ruleSet.rules ∧ (∀ rule ∈ ruleSet.rules, depth rule ≤ maxLogicalRuleDepth) ∧
      ThroughoutAll (fun rule => Storable libraries.netipx true (bare rule)) ruleSet.rules := by
  obtain ⟨body, rest, read⟩ := read_ok done
  refine yields_body (yields_defaultRule (fun item rule => yields_item yields_ipSet item)
    (fun _ _ storable => { storable with }) ?_) body _ rest read
  constructor <;> simp [Sized, SizedStrings, StorablePrefixes, bare, TypedMap.empty]

theorem compiledOnly_of_readMmap (done : readMmap order libraries image = .ok ruleSet) :
    ThroughoutAll CompiledOnly ruleSet.rules := by
  obtain ⟨decoder, body, rest, read⟩ := readMmap_ok done
  exact (yields_body (yields_defaultRule (fun item rule => yields_item_compiledOnly item)
    (fun _ _ compiled => { compiled with }) ⟨rfl, rfl, rfl, rfl, rfl⟩) body _ rest read).2.2

theorem bare_of_compiledOnly (lists : CompiledOnly rule) :
    bare rule = rule := by
  obtain ⟨-, -, noSource, noIP, -⟩ := lists
  cases rule
  cases noSource
  cases noIP
  rfl

/-- A rule-set that was read and can be mapped is given back. -/
theorem readMmap_writeMmap (done : read libraries.toLibraries file recover = .ok ruleSet)
    (mappable : Mappable ruleSet) (written : writeMmap order libraries ruleSet = .ok image)
    (fits : image.length < 2 ^ 63) : readMmap order libraries image = .ok ruleSet := by
  obtain ⟨sized, shallow, storable⟩ := storable_of_read done
  obtain ⟨body, blobs, wrote, rfl⟩ := writeMmap_ok written
  have small := Nat.lt_trans fits (show 2 ^ 63 < 2 ^ 64 by decide)
  have lists := throughoutAll_iff.mp mappable
  have whole : ThroughoutAll (Storable libraries.netipx true) ruleSet.rules := by
    refine throughoutAll_iff.mpr fun rule member => ?_
    refine throughout_combine (fun rule storable fine => ?_) rule
      (throughoutAll_iff.mp storable rule member) (lists rule member)
    rwa [bare_of_compiledOnly fine.2] at storable
  have read := readMmap_image small
    (reads_body (mapped_faithful small) sized shallow whole wrote (prefix_refl blobs))
  have same : ruleSet.rules.map (RuleTree.map (restored libraries.toLibraries (mmapEncoder libraries)
      false ruleSet.version)) = ruleSet.rules := by
    rw [map_congr_left fun rule member => map_restored rfl rule
      (throughout_mono (fun _ both => both.2) (lists rule member)), map_id']
  rw [same] at read
  exact read

theorem writeMmap_total (mappable : Mappable ruleSet) :
    ∃ image, writeMmap order libraries ruleSet = .ok image := by
  have each : ∀ part ∈ writeRules libraries.toLibraries (mmapEncoder libraries) ruleSet.version
      ruleSet.rules, ∀ state, ∃ result, part state = .ok result := by
    rw [writeRules_eq_map]
    exact forall_mem_map.mpr fun rule member =>
      writeRule_total rfl rule (throughoutAll_iff.mp mappable rule member)
  obtain ⟨result, wrote⟩ := joinParts_total each []
  unfold writeMmap
  rw [wrote]
  exact ⟨_, rfl⟩

variable (order) in
/-- Both conditions are needed, and together they suffice. -/
theorem mapped_iff {file : Bytes} {recover : Bool} {ruleSet : PlainRuleSetCompat μ ν}
    (done : read libraries.toLibraries file recover = .ok ruleSet)
    (fits : ∀ image, writeMmap order libraries ruleSet = .ok image → image.length < 2 ^ 63) :
    ((∃ image, writeMmap order libraries ruleSet = .ok image ∧
        readMmap order libraries image = .ok ruleSet) ↔ Mappable ruleSet) ∧
      ∀ image, writeMmap order libraries ruleSet = .ok image → ∃ body blobs,
        joinParts (writeRules libraries.toLibraries (mmapEncoder libraries) ruleSet.version
          ruleSet.rules) [] = .ok (body, blobs) ∧ LaidOut order image blobs := by
  refine ⟨⟨?_, ?_⟩, ?_⟩
  · rintro ⟨image, written, again⟩
    obtain ⟨body, blobs, wrote, -⟩ := writeMmap_ok written
    exact throughoutAll_written
      (fun rule _ _ _ lists done => ⟨supported_of_written rfl lists done, lists⟩)
      (compiledOnly_of_readMmap again) wrote
  · intro mappable
    obtain ⟨image, written⟩ := writeMmap_total mappable
    exact ⟨image, written, readMmap_writeMmap done mappable written (fits image written)⟩
  · intro image written
    have small := Nat.lt_trans (fits image written) (show 2 ^ 63 < 2 ^ 64 by decide)
    obtain ⟨body, blobs, wrote, rfl⟩ := writeMmap_ok written
    exact ⟨body, blobs, wrote, laidOut small⟩

/-! ## Two files -/

/-- A zlib stream of one rule with the addresses 10.0.0.0/8 and a `network_type` item. -/
def oneRuleStream : Bytes :=
  [120, 218, 99, 100, 96, 99, 100, 128, 0, 70, 22, 46, 32, 201, 194, 245, 255, 255, 127, 33, 70, 134,
    255, 12, 0, 25, 133, 4, 53]

def oneRuleZlib : Zlib :=
  swapZlib
    [1, 0, 6, 1, 0, 0, 0, 0, 0, 0, 0, 1, 4, 10, 0, 0, 0, 4, 10, 255, 255, 255, 18, 1, 0, 255, 0]
    oneRuleStream

/-- Matchers that keep their lists, written as the labels of a mapped matcher. -/
def listMmapLibraries : MmapLibraries (List GoString × List GoString) (List GoString) where
  toLibraries := listLibraries oneRuleZlib
  matcherMmap matcher := ⟨[], [], (listLibraries oneRuleZlib).domain.write matcher, [], []⟩
  newMatcherFromMmap mmap :=
    (parsed (listLibraries oneRuleZlib).domain.read mmap.labels).mapError fun _ => "malformed"
  newMatcherFromMmap_mmap matcher :=
    congrArg (Except.mapError _) (parsed_eq ((listLibraries oneRuleZlib).domain.reads_write matcher))
  adGuardMmap matcher := ⟨[], [], writeLists matcher, [], []⟩
  newAdGuardMatcherFromMmap mmap := (parsed readLists mmap.labels).mapError fun _ => "malformed"
  newAdGuardMatcherFromMmap_mmap matcher :=
    congrArg (Except.mapError _) (parsed_eq (reads_lists matcher))

def oneRule (version : Byte) : Bytes := magicBytes ++ ([version] ++ oneRuleStream)

/-- Its rule without recovered lists. -/
def oneRuleSet (version : Byte) : PlainRuleSetCompat (List GoString × List GoString) (List GoString) :=
  ⟨version, [.default { networkType := [0], ipSet := some ⟨[⟨0x0a000000, 0x0affffff⟩], []⟩ }]⟩

theorem mapped_one_rule : ∃ image,
    writeMmap .little listMmapLibraries (oneRuleSet 3) = .ok image ∧
      readMmap .little listMmapLibraries image = .ok (oneRuleSet 3) := by
  refine (mapped_iff .little (show read listMmapLibraries.toLibraries (oneRule 3) false =
    .ok (oneRuleSet 3) from rfl) ?_).1.mpr ⟨⟨?_, ?_⟩, trivial⟩
  · intro image written
    cases written
    decide
  · constructor <;> decide
  · constructor <;> rfl

/-- The same file under a version without `network_type`: it is read, and not mapped. -/
theorem old_version_not_mapped :
    read listMmapLibraries.toLibraries (oneRule 1) false = .ok (oneRuleSet 1) ∧
      writeMmap .little listMmapLibraries (oneRuleSet 1) =
        .error "`network_type` rule item is only supported in version 3 or later" :=
  ⟨rfl, rfl⟩

end AmneziaBox.Guarantees.MappedRuleSet
