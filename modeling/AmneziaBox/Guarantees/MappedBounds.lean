import AmneziaBox.Guarantees.MappedRuleSet

/-!
# The mapped file is read inside its bounds

Every slice that `ReadMmap` hands out is cut by `mmapSection` from the file or by
`mmapArray` from such a section, and both compare with what is there. The entries of the
table of blobs are not cut that way: the table's length is a product that wraps, and a
file whose count of blobs makes it wrap has numbers that are accepted and whose entries
lie behind the table. A rule that refers to one of them makes the reader panic, unless
the reader stops before it comes to the reference.
-/
namespace AmneziaBox.Guarantees.MappedBounds
open Library Source.SRS MmapReader List

variable {data part : Bytes} {offset length : Nat}

/-- A slice of the file. -/
def Inside (data part : Bytes) : Prop :=
  ∃ segment : Segment, segment.stop ≤ data.length ∧ part = segment.slice data

theorem mmapSection_inside (done : mmapSection data offset length = .ok part) :
    Inside data part ∧ part.length = length := by
  unfold mmapSection at done
  split at done
  · cases done
  rename_i bounded
  cases done
  have stop : offset + length ≤ data.length := by omega
  refine ⟨⟨⟨offset, length⟩, stop, rfl⟩, ?_⟩
  unfold Segment.slice
  rw [length_take, length_drop]
  dsimp only
  omega

theorem Inside.drop_take (inside : Inside data part) (offset length : Nat)
    (bounded : offset + length ≤ part.length) : Inside data ((part.drop offset).take length) := by
  obtain ⟨segment, stop, rfl⟩ := inside
  have whole : (segment.slice data).length ≤ segment.length := length_take_le _ _
  refine ⟨⟨segment.offset + offset, length⟩, ?_, ?_⟩
  · unfold Segment.stop at stop ⊢
    dsimp only
    omega
  · unfold Segment.slice
    dsimp only
    rw [drop_take, drop_drop, take_take, Nat.min_eq_left (by omega)]

/-- An array lies at the start of its bytes, and so does the rest behind it. -/
theorem mmapArray_inside {α : Type} {cell : Cell α} {count : Nat} {values : List α} {rest : Bytes}
    (inside : Inside data part) (done : mmapArray cell count part = .ok (values, rest)) :
    values = elements cell count part ∧ count * cell.size ≤ part.length ∧
      Inside data (part.take (count * cell.size)) ∧ Inside data rest := by
  unfold mmapArray at done
  split at done
  · cases done
  rename_i few
  dsimp only at done
  split at done
  · cases done
  rename_i short
  cases done
  have room : count * cell.size ≤ part.length :=
    (Nat.le_div_iff_mul_le cell.size_pos).mp (Nat.not_lt.mp few)
  refine ⟨rfl, room, inside.drop_take 0 _ (by omega), ?_⟩
  have left := inside.drop_take (alignMmapOffset (count * cell.size))
    (part.length - alignMmapOffset (count * cell.size)) (by omega)
  rwa [take_of_length_le (by rw [length_drop])] at left

section Lookup
variable {order : Endian} {reader : MmapReader} {kind index : Nat}

theorem blobAt_inside {blob : Bytes} (done : reader.blobAt order index kind = .ok blob) :
    Inside reader.data blob := by
  simp only [blobAt] at done
  split at done
  · cases done
  split at done
  · cases done
  split at done
  · cases done
  split at done
  · cases done
  exact (mmapSection_inside done).1

theorem mmapSection_safe : mmapSection data offset length ≠ .error .panic := by
  unfold mmapSection
  split <;> exact nofun

/-! ## References to the table -/

/-- The entry of an accepted number ends behind the table: its kind, or what follows a kind
that is right. -/
def Behind (order : Endian) (reader : MmapReader) (kind index : Nat) : Prop :=
  index < reader.blobCount ∧
    (reader.blobTable.length < index * mmapBlobEntrySize % 2 ^ 64 + 8 ∨
      reader.blobTable.length < index * mmapBlobEntrySize % 2 ^ 64 + mmapBlobEntrySize ∧
        uint64At order 0 (reader.blobTable.drop (index * mmapBlobEntrySize % 2 ^ 64)) = kind)

theorem blobAt_panics : reader.blobAt order index kind = .error .panic ↔
    Behind order reader kind index := by
  unfold blobAt Behind mmapBlobEntrySize
  split
  · exact iff_of_false nofun fun behind => absurd behind.1 (by omega)
  simp only [length_drop]
  split
  · exact iff_of_true rfl ⟨by omega, .inl (by omega)⟩
  split
  · refine iff_of_false nofun ?_
    rintro ⟨-, short | ⟨-, same⟩⟩
    · omega
    · contradiction
  split
  · exact iff_of_true rfl ⟨by omega, .inr ⟨by omega, not_not.mp ‹_›⟩⟩
  · exact iff_of_false mmapSection_safe (by rintro ⟨-, short | ⟨short, -⟩⟩ <;> omega)

/-- A table with all its entries has that of every accepted number. -/
theorem not_behind (whole : reader.blobTable.length = reader.blobCount * mmapBlobEntrySize)
    (small : reader.blobTable.length < 2 ^ 63) : ¬ Behind order reader kind index := by
  unfold Behind
  unfold mmapBlobEntrySize at whole ⊢
  rintro ⟨below, short⟩
  rw [Nat.mod_eq_of_lt (by omega)] at short
  obtain short | ⟨short, -⟩ := short <;> omega

/-- The number that stands here is that of an entry behind the table. -/
def RefersBehind (order : Endian) (reader : MmapReader) (kind : Nat) (input : Bytes) : Prop :=
  ∃ index rest, readUvarint input = .ok (index, rest) ∧ Behind order reader kind index

variable {μ ν : Type} {libraries : MmapLibraries μ ν} {input : Bytes}

theorem blob_panics : reader.blob order kind input = .error .panic ↔
    RefersBehind order reader kind input := by
  unfold blob
  rw [panics_bind, or_iff_right (safe_uvarint input)]
  refine exists_congr fun index => exists_congr fun rest => and_congr_right fun _ => ?_
  rw [← blobAt_panics]
  change (reader.blobAt order index kind >>= fun found => Except.ok (found, rest)) = _ ↔ _
  cases reader.blobAt order index kind <;> simp [bind, Except.bind]

theorem safe_array {α : Type} (cell : Cell α) (count : Nat) : Safe (mmapArray cell count) := by
  intro input
  unfold mmapArray
  split
  · exact nofun
  · dsimp only
    split <;> exact nofun

theorem safe_uint64 : Safe (MmapReader.readUint64 order) :=
  (safe_full 8).bind fun _ => safe_pure _

theorem safe_truncated {α : Type} {parse : Reader α} (size : Nat) (safe : Safe parse) :
    Safe (truncated size parse) := by
  intro input
  unfold truncated
  split
  · exact nofun
  · exact safe input

theorem safe_parsed {α : Type} {parse : Reader α} (safe : Safe parse) (blob : Bytes) :
    Safe (liftM (parsed parse blob) : Reader α) := by
  intro input
  have calm := safe blob
  unfold parsed
  split
  · exact nofun
  · rename_i err failed
    rw [failed] at calm
    intro panicked
    cases panicked
    exact calm rfl

theorem safe_succinct : Safe (succinct order) := by
  refine safe_truncated 40 ?_
  iterate 5 refine safe_uint64.bind fun _ => ?_
  iterate 5 refine (safe_array _ _).bind fun _ => ?_
  exact safe_pure _

theorem safe_ipRanges : Safe (ipRanges order) := by
  refine safe_truncated 16 ?_
  iterate 2 refine safe_uint64.bind fun _ => ?_
  iterate 2 refine (safe_array _ _).bind fun _ => ?_
  exact safe_pure _


/-! ## The rules -/

/-- The kind of blob that an item refers to. -/
def blobKind : ItemType → Option Nat
  | .domain | .adGuardDomain => some mmapBlobSuccinct
  | .sourceIPCIDR | .ipCIDR => some mmapBlobIPSet
  | _ => none

theorem safe_string : Safe readString := safe_uvarint.bind fun length => safe_full length

theorem safe_strings : Safe readRuleItemString :=
  safe_uvarint.bind fun length => safe_times safe_string length

theorem safe_uint16s : Safe readUint16s :=
  safe_uvarint.bind fun length =>
    safe_times ((safe_bigEndian 2).bind fun _ => safe_pure _) length

theorem safe_prefixes : Safe readPrefixes := by
  refine safe_uvarint.bind fun length => safe_times ?_ length
  refine Safe.bind (safe_uvarint.bind fun size => ?_) fun _ => safe_byte.bind fun _ => safe_pure _
  split
  · exact (safe_bigEndian 4).bind fun _ => safe_pure _
  split
  · exact (safe_bigEndian 16).bind fun _ => safe_pure _
  · exact safe_error _

theorem safe_entry : Safe readEntry :=
  safe_byte.bind fun _ => safe_prefixes.bind fun _ => safe_pure _

theorem safe_bool : Safe readBool := safe_byte.bind fun _ => safe_pure _

/-- An item panics exactly if it refers to an entry behind the table. -/
theorem readItem_panics {item : ItemType} {rule : DefaultHeadlessRule μ ν} :
    readItem libraries.toLibraries (reader.decoder order libraries) false item rule input =
        .error .panic ↔
      ∃ kind ∈ blobKind item, RefersBehind order reader kind input := by
  have plain {read : Reader (DefaultHeadlessRule μ ν)} (safe : Safe read) :
      read input = .error .panic ↔
        ∃ kind ∈ (none : Option Nat), RefersBehind order reader kind input :=
    iff_of_false (safe input) nofun
  have compiled {α : Type} {kind : Nat} {read : Reader α} {change : α → DefaultHeadlessRule μ ν}
      (panics : read input = .error .panic ↔ RefersBehind order reader kind input) :
      (read >>= fun value => pure (change value)) input = .error .panic ↔
        ∃ other ∈ some kind, RefersBehind order reader other input := by
    rw [panics_bind_safe fun _ => safe_pure _, panics]
    simp
  have succinct : reader.readSuccinctMmap order input = .error .panic ↔
      RefersBehind order reader mmapBlobSuccinct input :=
    (panics_bind_safe fun blob => safe_parsed safe_succinct blob).trans blob_panics
  have ranges : reader.readIPSet order input = .error .panic ↔
      RefersBehind order reader mmapBlobIPSet input :=
    (panics_bind_safe fun blob => (safe_parsed safe_ipRanges blob).bind fun _ =>
      safe_ofExcept _).trans blob_panics
  cases item with
  | domain | adGuardDomain =>
    exact compiled ((panics_bind_safe fun _ => safe_ofExcept _).trans succinct)
  | sourceIPCIDR | ipCIDR => exact compiled ranges
  | networkIsExpensive | networkIsConstrained => exact plain (safe_pure _)
  | queryType | sourcePort | port => exact plain (safe_uint16s.bind fun _ => safe_pure _)
  | networkType => exact plain (safe_string.bind fun _ => safe_pure _)
  | networkInterfaceAddress =>
    exact plain (safe_uvarint.bind fun size =>
      (safe_times safe_entry size).bind fun _ => safe_pure _)
  | defaultInterfaceAddress => exact plain (safe_prefixes.bind fun _ => safe_pure _)
  | _ => exact plain (safe_strings.bind fun _ => safe_pure _)

/-- No item that the loop comes to refers to an entry behind the table. -/
def ItemsInside (order : Endian) (libraries : MmapLibraries μ ν) (reader : MmapReader) :
    Nat → DefaultHeadlessRule μ ν → Bytes → Prop
  | 0, _, _ => True
  | rounds + 1, rule, input => ∀ code rest item, input = code :: rest → code ≠ ruleItemFinal →
    ItemType.ofCode code = some item →
      (∀ kind ∈ blobKind item, ¬ RefersBehind order reader kind rest) ∧
      ∀ next behind, readItem libraries.toLibraries (reader.decoder order libraries) false item rule
        rest = .ok (next, behind) → ItemsInside order libraries reader rounds next behind

/-- A condition on the input of each of so many readings. -/
def Successive {α : Type} (read : Reader α) (holds : Bytes → Prop) : Nat → Bytes → Prop
  | 0, _ => True
  | count + 1, input =>
    holds input ∧ ∀ value rest, read input = .ok (value, rest) → Successive read holds count rest

theorem successive {α : Type} {read : Reader α} {holds : Bytes → Prop} (all : ∀ input, holds input)
    (count : Nat) : ∀ input, Successive read holds count input := by
  induction count with
  | zero => exact fun _ => trivial
  | succ count ih => exact fun input => ⟨all input, fun _ rest _ => ih rest⟩

/-- The same of a rule with so many levels. -/
def RuleInside (order : Endian) (libraries : MmapLibraries μ ν) (reader : MmapReader) :
    Nat → Bytes → Prop
  | 0, _ => True
  | levels + 1, input =>
    (∀ items, input = 0 :: items →
      ItemsInside order libraries reader (items.length + 1) {} items) ∧
    ∀ mode counted length rules, input = 1 :: mode :: counted → mode = 0 ∨ mode = 1 →
      readUvarint counted = .ok (length, rules) →
        Successive (readRule libraries.toLibraries (reader.decoder order libraries) false levels)
          (RuleInside order libraries reader levels) length rules

theorem readItems_safe_iff (rounds : Nat) (last : Byte) (rule : DefaultHeadlessRule μ ν)
    (input : Bytes) :
    readItems libraries.toLibraries (reader.decoder order libraries) false rounds last rule input ≠
        .error .panic ↔ ItemsInside order libraries reader rounds rule input := by
  induction rounds generalizing last rule input with
  | zero => exact iff_of_true nofun trivial
  | succ rounds ih =>
    unfold readItems ItemsInside
    cases input with
    | nil => exact iff_of_true nofun nofun
    | cons code rest =>
      rw [ne_eq, panics_bind, or_iff_right (safe_byte _)]
      simp only [readByte, Except.ok.injEq, Prod.mk.injEq, List.cons.injEq, ↓existsAndEq, true_and]
      by_cases last : code = ruleItemFinal
      · rw [if_pos last]
        refine iff_of_true ((safe_bool.bind fun _ => safe_pure _) rest) ?_
        rintro _ _ _ ⟨rfl, -⟩ notLast
        exact absurd last notLast
      rw [if_neg last]
      cases known : ItemType.ofCode code with
      | none =>
        refine iff_of_true (safe_error _ rest) ?_
        rintro _ _ _ ⟨rfl, -⟩ - other
        rw [known] at other
        cases other
      | some item =>
        dsimp only
        rw [panics_bind, readItem_panics, not_or]
        constructor
        · rintro ⟨inside, onward⟩ _ _ _ ⟨rfl, rfl⟩ - same
          obtain rfl := Option.some.inj (known.symm.trans same)
          refine ⟨fun kind member behind => inside ⟨kind, member, behind⟩, ?_⟩
          intro next behind read
          exact (ih code next behind).mp fun panicked => onward ⟨next, behind, read, panicked⟩
        · intro all
          obtain ⟨inside, onward⟩ := all code rest item ⟨rfl, rfl⟩ last known
          refine ⟨fun ⟨kind, member, behind⟩ => inside kind member behind, ?_⟩
          rintro ⟨next, behind, read, panicked⟩
          exact (ih code next behind).mpr (onward next behind read) panicked

/-- The index that is added to an error is not added to a panic. -/
theorem readIndexed_safe_iff {α : Type} {read : Reader α} {holds : Bytes → Prop}
    (safe : ∀ input, read input ≠ .error .panic ↔ holds input) (name : String) (count index : Nat)
    (input : Bytes) :
    readIndexed name read count index input ≠ .error .panic ↔
      Successive read holds count input := by
  induction count generalizing index input with
  | zero => exact iff_of_true (by rintro ⟨⟩) trivial
  | succ count ih =>
    unfold readIndexed Successive
    rw [ne_eq, panics_bind, not_or, ← safe input]
    refine and_congr ?_ ?_
    · cases read input with
      | ok value => exact iff_of_true (by rintro ⟨⟩) (by rintro ⟨⟩)
      | error err =>
        cases err with
        | error text => exact iff_of_true (by rintro ⟨⟩) (by rintro ⟨⟩)
        | panic => exact Iff.rfl
    · simp only [panics_bind_safe fun _ => safe_pure _]
      constructor
      · intro onward value rest done
        exact (ih (index + 1) rest).mp fun panicked => onward ⟨value, rest, by rw [done], panicked⟩
      · rintro onward ⟨value, rest, done, panicked⟩
        refine (ih (index + 1) rest).mpr (onward value rest ?_) panicked
        split at done
        · rename_i same
          exact same.trans done
        · cases done
        · cases done

theorem readRule_safe_iff (levels : Nat) (input : Bytes) :
    readRule libraries.toLibraries (reader.decoder order libraries) false levels input ≠
        .error .panic ↔ RuleInside order libraries reader levels input := by
  induction levels generalizing input with
  | zero => exact iff_of_true nofun trivial
  | succ levels ih =>
    unfold readRule RuleInside
    cases input with
    | nil => exact iff_of_true nofun ⟨nofun, nofun⟩
    | cons ruleType rest =>
      rw [ne_eq, panics_bind, or_iff_right (safe_byte _)]
      simp only [readByte, Except.ok.injEq, Prod.mk.injEq, List.cons.injEq, ↓existsAndEq, true_and]
      by_cases default : ruleType = 0
      · subst default
        rw [if_pos rfl, panics_bind_safe fun _ => safe_pure _]
        refine (readItems_safe_iff _ 0 {} rest).trans ⟨fun inside => ?_, fun inside => ?_⟩
        · exact ⟨fun _ same => same.2 ▸ inside, fun _ _ _ _ same => absurd same.1 (by decide)⟩
        · exact inside.1 rest ⟨rfl, rfl⟩
      rw [if_neg default]
      by_cases logical : ruleType = 1
      · subst logical
        rw [if_pos rfl]
        cases rest with
        | nil => exact iff_of_true nofun ⟨nofun, nofun⟩
        | cons mode counted =>
          rw [panics_bind, or_iff_right (safe_byte _)]
          simp only [readByte, Except.ok.injEq, Prod.mk.injEq, List.cons.injEq, ↓existsAndEq,
            true_and]
          by_cases known : mode = 0 ∨ mode = 1
          · rw [if_pos known, panics_bind, or_iff_right (safe_uvarint _)]
            simp only [panics_bind_safe fun _ => safe_bool.bind fun _ => safe_pure _]
            constructor
            · intro safe
              refine ⟨fun _ same => absurd same.1 (by decide), ?_⟩
              rintro _ _ length rules ⟨rfl, rfl⟩ - read
              exact (readIndexed_safe_iff ih _ length 0 rules).mp fun panicked =>
                safe ⟨length, rules, read, panicked⟩
            · rintro ⟨-, inside⟩ ⟨length, rules, read, panicked⟩
              exact (readIndexed_safe_iff ih _ length 0 rules).mpr
                (inside mode counted length rules ⟨rfl, rfl⟩ known read) panicked
          · rw [if_neg known]
            refine iff_of_true (safe_error _ counted) ⟨fun _ same => absurd same.1 (by decide), ?_⟩
            rintro _ _ _ _ ⟨rfl, -⟩ other
            exact absurd other known
      · rw [if_neg logical]
        refine iff_of_true (safe_error _ rest) ⟨?_, ?_⟩
        · rintro _ ⟨rfl, -⟩
          exact absurd rfl default
        · rintro _ _ _ _ ⟨rfl, -⟩
          exact absurd rfl logical

/-- A table with all its entries is not left. -/
theorem ruleInside (within : ∀ kind index, ¬ Behind order reader kind index) (levels : Nat) :
    ∀ input, RuleInside order libraries reader levels input := by
  have items (rounds : Nat) : ∀ rule input, ItemsInside order libraries reader rounds rule input := by
    induction rounds with
    | zero => exact fun _ _ => trivial
    | succ rounds ih =>
      rintro rule input code rest item - - -
      refine ⟨?_, fun next behind _ => ih next behind⟩
      rintro kind - ⟨index, -, -, behind⟩
      exact within kind index behind
  induction levels with
  | zero => exact fun _ => trivial
  | succ levels ih =>
    intro input
    exact ⟨fun rest _ => items _ _ rest, fun _ _ length rules _ _ _ => successive ih length rules⟩

/-- No item of the rules that the reader comes to refers to an entry behind the table. -/
def RulesInside (order : Endian) (libraries : MmapLibraries μ ν) (reader : MmapReader)
    (rules : Bytes) : Prop :=
  ∀ length body, readUvarint rules = .ok (length, body) →
    Successive
      (readRule libraries.toLibraries (reader.decoder order libraries) false
        (maxLogicalRuleDepth + 1))
      (RuleInside order libraries reader (maxLogicalRuleDepth + 1)) length body

theorem readBody_safe_iff (rules : Bytes) :
    readBody libraries.toLibraries (reader.decoder order libraries) false rules ≠ .error .panic ↔
      RulesInside order libraries reader rules := by
  unfold readBody RulesInside
  rw [ne_eq, panics_bind, or_iff_right (safe_uvarint _)]
  simp only [← readIndexed_safe_iff (readRule_safe_iff _) "read rule" _ 0]
  constructor
  · exact fun safe length body read panicked => safe ⟨length, body, read, panicked⟩
  · rintro safe ⟨length, body, read, panicked⟩
    exact safe length body read panicked

end Lookup

/-! ## The file -/

section File
variable {μ ν : Type} (order : Endian) (libraries : MmapLibraries μ ν) (data : Bytes)

/-- In a file that is read as far as its rules, no item of the rules that the reader comes to
refers to an entry behind the table of blobs. -/
def ReferencesInside : Prop :=
  ∀ rules blobTable, mmapHeaderSize ≤ data.length → data.take 4 = mmapMagic →
    order.get (Segment.slice ⟨4, 4⟩ data) = mmapFormatVersion →
    mmapSection data mmapHeaderSize (uint64At order 16 data) = .ok rules →
    mmapSection data (uint64At order 24 data) (uint64At order 32 data * mmapBlobEntrySize % 2 ^ 64) =
      .ok blobTable →
    RulesInside order libraries ⟨data, blobTable, uint64At order 32 data⟩ rules

theorem readMmap_safe_iff : readMmap order libraries data ≠ .error .panic ↔
    ReferencesInside order libraries data := by
  unfold readMmap ReferencesInside
  by_cases short : data.length < mmapHeaderSize
  · rw [if_pos short]
    exact iff_of_true nofun fun _ _ long => absurd short (Nat.not_lt.mpr long)
  rw [if_neg short]
  by_cases magic : data.take 4 = mmapMagic
  · rw [if_neg (not_not.mpr magic)]
    by_cases version : order.get (Segment.slice ⟨4, 4⟩ data) = mmapFormatVersion
    · rw [if_neg (not_not.mpr version)]
      dsimp only
      cases cut : mmapSection data mmapHeaderSize (uint64At order 16 data) with
      | error err =>
        have calm : err ≠ .panic := fun panic => mmapSection_safe (panic ▸ cut)
        exact iff_of_true (fun panicked => calm (Except.error.inj panicked)) nofun
      | ok rules =>
        cases table : mmapSection data (uint64At order 24 data)
          (uint64At order 32 data * mmapBlobEntrySize % 2 ^ 64) with
        | error err =>
          have calm : err ≠ .panic := fun panic => mmapSection_safe (panic ▸ table)
          exact iff_of_true (fun panicked => calm (Except.error.inj panicked)) nofun
        | ok blobTable =>
          let reader : MmapReader := ⟨data, blobTable, uint64At order 32 data⟩
          have body : readBody libraries.toLibraries (reader.decoder order libraries) false rules ≠
              .error .panic ↔ RulesInside order libraries reader rules := readBody_safe_iff rules
          refine Iff.trans ?_ (body.trans ⟨?_, ?_⟩)
          · change (readBody libraries.toLibraries (reader.decoder order libraries) false rules >>=
              fun read => pure _) ≠ _ ↔ _
            cases readBody libraries.toLibraries (reader.decoder order libraries) false rules with
            | ok read => exact iff_of_true nofun nofun
            | error err => simp [bind, Except.bind]
          · rintro inside _ _ - - - ⟨⟩ ⟨⟩
            exact inside
          · exact fun inside => inside rules blobTable (Nat.not_lt.mp short) magic version rfl rfl
    · rw [if_pos version]
      exact iff_of_true nofun fun _ _ _ _ same => absurd same version
  · rw [if_pos magic]
    exact iff_of_true nofun fun _ _ _ same => absurd same magic

theorem referencesInside (small : data.length < 2 ^ 63)
    (unwrapped : uint64At order 32 data * mmapBlobEntrySize < 2 ^ 64) :
    ReferencesInside order libraries data := by
  rintro rules blobTable - - - - table length body -
  obtain ⟨⟨segment, stop, cut⟩, sized⟩ := mmapSection_inside table
  refine successive (ruleInside (fun kind index => not_behind ?_ ?_) _) length body
  · exact sized.trans (Nat.mod_eq_of_lt unwrapped)
  · dsimp only
    rw [cut]
    exact lt_of_le_of_lt (length_take_le' _ _) (by rw [length_drop]; omega)

/-- Every section, blob and array of a file lies inside the file. Reading panics exactly if the
reader comes to an item of the rules that refers to an entry behind the table of blobs. There
is none as long as the length of the table does not wrap. -/
theorem mapped_reading_inside_iff :
    (∀ offset length part, mmapSection data offset length = .ok part → Inside data part) ∧
    (∀ blobTable blobCount index kind blob,
      blobAt order ⟨data, blobTable, blobCount⟩ index kind = .ok blob → Inside data blob) ∧
    (∀ {α : Type} (cell : Cell α) count part values rest, Inside data part →
      mmapArray cell count part = .ok (values, rest) →
      values = elements cell count part ∧ count * cell.size ≤ part.length ∧
        Inside data (part.take (count * cell.size)) ∧ Inside data rest) ∧
    (readMmap order libraries data ≠ .error .panic ↔ ReferencesInside order libraries data) ∧
    (data.length < 2 ^ 63 → uint64At order 32 data * mmapBlobEntrySize < 2 ^ 64 →
      ReferencesInside order libraries data) :=
  ⟨fun _ _ _ done => (mmapSection_inside done).1, fun _ _ _ _ _ => blobAt_inside,
    fun _ _ _ _ _ => mmapArray_inside, readMmap_safe_iff order libraries data,
    referencesInside order libraries data⟩

end File

/-- A file of 48 bytes with this many blobs and one rule, whose domain item has number 0. -/
def smallFile (blobCount : Nat) : Bytes :=
  mmapMagic ++ bigEndian 4 1 ++ [1, 5, 40, blobCount].flatMap (bigEndian 8) ++
    [1, 0, 2, 0, 0xff, 0, 0, 0]

/-- Without a blob, the number is refused. -/
theorem smallFile_empty :
    readMmap .big MappedRuleSet.listMmapLibraries (smallFile 0) ≠ .error .panic :=
  (mapped_reading_inside_iff .big MappedRuleSet.listMmapLibraries (smallFile 0)).2.2.2.1.mpr
    ((mapped_reading_inside_iff .big MappedRuleSet.listMmapLibraries (smallFile 0)).2.2.2.2
      (by decide) (by decide))

/-- The table of `2 ^ 61` blobs has a length of 0, and the lookup panics. -/
theorem wrapped_table_panics :
    readMmap .big MappedRuleSet.listMmapLibraries (smallFile (2 ^ 61)) = .error .panic := by
  have panicked : (readMmap .big MappedRuleSet.listMmapLibraries (smallFile (2 ^ 61))).map
      (fun _ => ()) = .error .panic := by decide +kernel
  generalize readMmap .big MappedRuleSet.listMmapLibraries (smallFile (2 ^ 61)) = result at *
  cases result with
  | error err => exact congrArg Except.error (Except.error.inj panicked)
  | ok ruleSet => cases panicked

end AmneziaBox.Guarantees.MappedBounds
