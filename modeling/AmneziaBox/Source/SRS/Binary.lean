import AmneziaBox.Source.SRS.IPSet

/-!
# The binary rule-set format

`common/srs/binary.go` and the headless rules of `option/rule_set.go`. A Go string is
its bytes. Rules of an unknown type and logical rules of an unknown mode, which `Write`
refuses, have no counterpart here.

Rules are written and read in two ways: with matchers and address sets in place, or
with their number in a table of a mapped file (`mmap`). What differs is an `Encoder`
and a `Decoder`; everything else is one definition.

zlib and the matchers of the sing library are outside the repository. They enter as
structures that carry what is assumed of them: reading gives back what was written,
and a matcher has the names of the lists it was made from. So are the address sets of
`netipx`, of which nothing is assumed here.
-/
namespace AmneziaBox.Source.SRS
open Adapter Library Rule

abbrev GoString := Bytes

/-! ## Libraries -/

/-- A suffix that starts with a dot matches below it, any other also itself. -/
def SuffixMatches (suffix host : GoString) : Prop :=
  if suffix.head? = some 46 then suffix <:+ host else suffix = host ∨ 46 :: suffix <:+ host

/-- The names that `domain` and `domain_suffix` stand for. -/
def Names (lists : List GoString × List GoString) (host : GoString) : Prop :=
  host ∈ lists.1 ∨ ∃ suffix ∈ lists.2, SuffixMatches suffix host

/-- `domain.Matcher`. -/
structure DomainLibrary (μ : Type) where
  /-- `NewMatcher`; the flag asks for the form of version 1. -/
  newMatcher : List GoString → List GoString → Bool → μ
  write : μ → Bytes
  read : Reader μ
  dump : μ → List GoString × List GoString
  reads_write : ∀ matcher, Reads read (write matcher) matcher
  dump_newMatcher : ∀ domain suffix legacy, [] ∉ domain → [] ∉ suffix → ∀ host,
    Names (dump (newMatcher domain suffix legacy)) host ↔ Names (domain, suffix) host

/-- `domain.AdGuardMatcher`, with the names that a list of its rules blocks. -/
structure AdGuardLibrary (ν : Type) where
  newMatcher : List GoString → ν
  write : ν → Bytes
  read : Reader ν
  dump : ν → List GoString
  Blocks : List GoString → GoString → Prop
  reads_write : ∀ matcher, Reads read (write matcher) matcher
  dump_newMatcher : ∀ rules host, Blocks (dump (newMatcher rules)) host ↔ Blocks rules host

structure Zlib where
  compress : Bytes → Bytes
  decompress : Bytes → Except String Bytes
  decompress_compress : ∀ bytes, decompress (compress bytes) = .ok bytes

/-- What the format is built on. -/
structure Libraries (μ ν : Type) where
  zlib : Zlib
  netipx : Netipx
  domain : DomainLibrary μ
  adGuard : AdGuardLibrary ν

/-! ## Rules -/

/-- `badjson.TypedMap`: the entries in order, each key once. -/
structure TypedMap (ν : Type) where
  entries : List (Byte × ν)
  distinct : (entries.map Prod.fst).Nodup

namespace TypedMap
variable {ν : Type}

def empty : TypedMap ν := ⟨[], .nil⟩

def putEntry (key : Byte) (value : ν) : List (Byte × ν) → List (Byte × ν)
  | [] => [(key, value)]
  | entry :: rest =>
    if entry.1 = key then (key, value) :: rest else entry :: putEntry key value rest

variable {key : Byte} {value : ν} {entries : List (Byte × ν)}

theorem mem_keys_putEntry {other : Byte} :
    other ∈ (putEntry key value entries).map Prod.fst ↔
      other = key ∨ other ∈ entries.map Prod.fst := by
  induction entries with
  | nil => simp [putEntry]
  | cons entry rest ih =>
    unfold putEntry
    split
    · rename_i same
      simp [same]
    · rw [List.map_cons, List.mem_cons, ih, List.map_cons, List.mem_cons]
      tauto

theorem putEntry_distinct (distinct : (entries.map Prod.fst).Nodup) :
    ((putEntry key value entries).map Prod.fst).Nodup := by
  induction entries with
  | nil => simp [putEntry]
  | cons entry rest ih =>
    rw [List.map_cons, List.nodup_cons] at distinct
    unfold putEntry
    split
    · rename_i same
      rw [List.map_cons, List.nodup_cons, ← same]
      exact distinct
    · rename_i other
      rw [List.map_cons, List.nodup_cons, mem_keys_putEntry]
      exact ⟨not_or.mpr ⟨other, distinct.1⟩, ih distinct.2⟩

def put (map : TypedMap ν) (key : Byte) (value : ν) : TypedMap ν :=
  ⟨putEntry key value map.entries, putEntry_distinct map.distinct⟩

theorem putEntry_new (new : key ∉ entries.map Prod.fst) :
    putEntry key value entries = entries ++ [(key, value)] := by
  induction entries with
  | nil => rfl
  | cons entry rest ih =>
    rw [List.map_cons, List.mem_cons, not_or] at new
    unfold putEntry
    rw [if_neg (Ne.symm new.1), ih new.2, List.cons_append]

/-- Entries with new and distinct keys are appended one after the other. -/
theorem foldl_put_entries {map : TypedMap ν}
    (distinct : ((map.entries ++ entries).map Prod.fst).Nodup) :
    (entries.foldl (fun map entry => map.put entry.1 entry.2) map).entries =
      map.entries ++ entries := by
  induction entries generalizing map with
  | nil => simp
  | cons entry rest ih =>
    have new : entry.1 ∉ map.entries.map Prod.fst := by
      intro old
      rw [List.map_append, List.nodup_append] at distinct
      exact distinct.2.2 entry.1 old entry.1 (by simp) rfl
    have appended : (map.put entry.1 entry.2).entries = map.entries ++ [entry] := putEntry_new new
    rw [List.foldl_cons, ih, appended]
    · simp
    · rw [appended]
      simpa using distinct

/-- `Put` for each entry, on a new map. -/
def ofEntries (entries : List (Byte × ν)) : TypedMap ν :=
  entries.foldl (fun map entry => map.put entry.1 entry.2) empty

theorem ofEntries_entries (map : TypedMap ν) : ofEntries map.entries = map := by
  have entries : (ofEntries map.entries).entries = map.entries :=
    foldl_put_entries map.distinct
  cases folded : ofEntries map.entries with
  | mk list _ =>
    rw [folded] at entries
    cases map
    cases entries
    rfl

theorem putEntry_length_le (key : Byte) (value : ν) (entries : List (Byte × ν)) :
    (putEntry key value entries).length ≤ entries.length + 1 := by
  induction entries with
  | nil => exact Nat.le_refl _
  | cons entry rest ih =>
    unfold putEntry
    split
    · exact Nat.le_succ _
    · exact Nat.succ_le_succ ih

theorem mem_of_mem_putEntry {entry : Byte × ν} (member : entry ∈ putEntry key value entries) :
    entry = (key, value) ∨ entry ∈ entries := by
  induction entries with
  | nil => exact .inl (List.mem_singleton.mp member)
  | cons first rest ih =>
    unfold putEntry at member
    split at member
    · obtain rfl | later := List.mem_cons.mp member
      · exact .inl rfl
      · exact .inr (List.mem_cons_of_mem _ later)
    · obtain rfl | later := List.mem_cons.mp member
      · exact .inr List.mem_cons_self
      · exact (ih later).imp id (List.mem_cons_of_mem _)

theorem foldl_put_subset {map : TypedMap ν} :
    let folded := entries.foldl (fun map entry => map.put entry.1 entry.2) map
    folded.entries.length ≤ map.entries.length + entries.length ∧
      ∀ entry ∈ folded.entries, entry ∈ map.entries ∨ entry ∈ entries := by
  induction entries generalizing map with
  | nil => exact ⟨Nat.le_refl _, fun _ => .inl⟩
  | cons first rest ih =>
    obtain ⟨length, subset⟩ := @ih (map.put first.1 first.2)
    have one : (map.put first.1 first.2).entries.length ≤ map.entries.length + 1 :=
      putEntry_length_le _ _ _
    refine ⟨?_, fun entry member => ?_⟩
    · rw [List.length_cons, List.foldl_cons]
      omega
    · obtain put | later := subset entry member
      · obtain rfl | old := mem_of_mem_putEntry put
        · exact .inr List.mem_cons_self
        · exact .inl old
      · exact .inr (List.mem_cons_of_mem _ later)

/-- A map made of entries has no others. -/
theorem ofEntries_subset (entries : List (Byte × ν)) :
    (ofEntries entries).entries.length ≤ entries.length ∧
      ∀ entry ∈ (ofEntries entries).entries, entry ∈ entries := by
  obtain ⟨length, subset⟩ := @foldl_put_subset _ entries empty
  refine ⟨?_, fun entry member => (subset entry member).resolve_left (List.not_mem_nil)⟩
  exact Nat.le_trans length (Nat.le_of_eq (Nat.zero_add _))

end TypedMap

/-- `option.DefaultHeadlessRule`; the last fields are compiled forms of the lists. -/
structure DefaultHeadlessRule (μ ν : Type) where
  queryType : List (BitVec 16) := []
  network : List GoString := []
  domain : List GoString := []
  domainSuffix : List GoString := []
  domainKeyword : List GoString := []
  domainRegex : List GoString := []
  sourceIPCIDR : List DNS.Prefix := []
  ipCIDR : List DNS.Prefix := []
  sourcePort : List (BitVec 16) := []
  sourcePortRange : List GoString := []
  port : List (BitVec 16) := []
  portRange : List GoString := []
  processName : List GoString := []
  processPath : List GoString := []
  processPathRegex : List GoString := []
  packageName : List GoString := []
  packageNameRegex : List GoString := []
  networkType : List Byte := []
  networkIsExpensive : Bool := false
  networkIsConstrained : Bool := false
  wifiSSID : List GoString := []
  wifiBSSID : List GoString := []
  networkInterfaceAddress : TypedMap (List DNS.Prefix) := .empty
  defaultInterfaceAddress : List DNS.Prefix := []
  adGuardDomain : List GoString := []
  invert : Bool := false
  domainMatcher : Option μ := none
  sourceIPSet : Option IPSet := none
  ipSet : Option IPSet := none
  adGuardDomainMatcher : Option ν := none

/-- `option.HeadlessRule`. -/
abbrev HeadlessRule (μ ν : Type) := RuleTree (DefaultHeadlessRule μ ν)

/-! ## Items -/

/-- The item types in the order of their numbers. -/
inductive ItemType where
  | queryType | network | domain | domainKeyword | domainRegex | sourceIPCIDR | ipCIDR
  | sourcePort | sourcePortRange | port | portRange | processName | processPath | packageName
  | wifiSSID | wifiBSSID | adGuardDomain | processPathRegex | networkType | networkIsExpensive
  | networkIsConstrained | networkInterfaceAddress | defaultInterfaceAddress | packageNameRegex
  deriving DecidableEq, Repr

def ItemType.all : List ItemType :=
  [.queryType, .network, .domain, .domainKeyword, .domainRegex, .sourceIPCIDR, .ipCIDR,
    .sourcePort, .sourcePortRange, .port, .portRange, .processName, .processPath, .packageName,
    .wifiSSID, .wifiBSSID, .adGuardDomain, .processPathRegex, .networkType, .networkIsExpensive,
    .networkIsConstrained, .networkInterfaceAddress, .defaultInterfaceAddress, .packageNameRegex]

/-- The tag byte of an item. -/
def ItemType.code (item : ItemType) : Byte := BitVec.ofNat 8 (ItemType.all.idxOf item)

def ItemType.ofCode (code : Byte) : Option ItemType := ItemType.all[code.toNat]?

def ruleItemFinal : Byte := 0xff

theorem ItemType.ofCode_code (item : ItemType) : ofCode item.code = some item := by
  cases item <;> rfl

theorem ItemType.code_ne_final (item : ItemType) : item.code ≠ ruleItemFinal := by
  cases item <;> decide

def writeString (value : GoString) : Bytes := writeUvarint value.length ++ value

def readString : Reader GoString := do
  let length ← readUvarint
  readFull length

/-- `readRuleItemString`. -/
def readRuleItemString : Reader (List GoString) := do
  let length ← readUvarint
  readTimes length readString

def writeRuleItemString (item : ItemType) (value : List GoString) : Bytes :=
  item.code :: (writeUvarint value.length ++ value.flatMap writeString)

def writeRuleItemUint8 (item : ItemType) (value : List Byte) : Bytes :=
  item.code :: (writeUvarint value.length ++ value)

def writeRuleItemUint16 (item : ItemType) (value : List (BitVec 16)) : Bytes :=
  item.code :: (writeUvarint value.length ++ value.flatMap fun number => bigEndian 2 number.toNat)

/-- `varbin.ReadSlice` of `uint16`. -/
def readUint16s : Reader (List (BitVec 16)) := do
  let length ← readUvarint
  readTimes length do
    let number ← readBigEndian 2
    pure (BitVec.ofNat 16 number)

def writePrefixes (value : List DNS.Prefix) : Bytes :=
  writeUvarint value.length ++ value.flatMap writePrefix

def readPrefixes : Reader (List DNS.Prefix) := do
  let length ← readUvarint
  readTimes length readPrefix

def writeEntry (entry : Byte × List DNS.Prefix) : Bytes := [entry.1] ++ writePrefixes entry.2

def readEntry : Reader (Byte × List DNS.Prefix) := do
  let key ← readByte
  let value ← readPrefixes
  pure (key, value)

def writeBool (flag : Bool) : Byte := if flag then 1 else 0

def readBool : Reader Bool := do
  let byte ← readByte
  pure (byte ≠ 0)

/-! ## Compiled items -/

/-- How compiled items are written. The state `σ` is what is kept for the end of the file.
A compiled form without its list is written only if `compiled`. -/
structure Encoder (μ ν σ : Type) where
  compiled : Bool
  matcher : μ → σ → Bytes × σ
  ipSet : IPSet → σ → Bytes × σ
  adGuard : ν → σ → Bytes × σ

structure Decoder (μ ν : Type) where
  matcher : Reader μ
  ipSet : Reader IPSet
  adGuard : Reader ν

/-- A piece of the output, with the writer's state before and after it. -/
abbrev Part (σ : Type) := σ → Except String (Bytes × σ)

/-- One part after the other, until one fails. -/
def joinParts {σ : Type} : List (Part σ) → Part σ
  | [], state => .ok ([], state)
  | part :: rest, state => do
    let (bytes, state) ← part state
    let (more, state) ← joinParts rest state
    pure (bytes ++ more, state)

/-- An item that is written if its list is not empty. -/
def optional {α σ : Type} (value : List α) (bytes : Bytes) : Part σ := fun state =>
  .ok (if value.isEmpty then [] else bytes, state)

/-- An item that only later versions have. -/
def versioned {σ : Type} (given : Bool) (version since : Byte) (name : String) (part : Part σ) :
    Part σ := fun state =>
  if given then
    if version < since then
      .error (name ++ " only supported in version " ++ toString since.toNat ++ " or later")
    else part state
  else .ok ([], state)

def ruleItem (name : String) : String := "`" ++ name ++ "` rule item is"

/-- A compiled item behind its tag. -/
def tagged {α σ : Type} (item : ItemType) (encode : α → σ → Bytes × σ) (value : α) : Part σ :=
  fun state => .ok (item.code :: (encode value state).1, (encode value state).2)

section Format
variable {μ ν σ : Type} (libraries : Libraries μ ν) (encoder : Encoder μ ν σ)
  (decoder : Decoder μ ν)

def plainEncoder : Encoder μ ν Unit where
  compiled := false
  matcher matcher state := (libraries.domain.write matcher, state)
  ipSet set state := (writeIPSet set, state)
  adGuard matcher state := (libraries.adGuard.write matcher, state)

def plainDecoder : Decoder μ ν where
  matcher := libraries.domain.read
  ipSet := readIPSet
  adGuard := libraries.adGuard.read

/-! ## Default rules -/

/-- The case of one item type in `readDefaultRule`. -/
def readItem (recover : Bool) (item : ItemType) (rule : DefaultHeadlessRule μ ν) :
    Reader (DefaultHeadlessRule μ ν) :=
  match item with
  | .queryType => do
    let value ← readUint16s
    pure { rule with queryType := value }
  | .network => do
    let value ← readRuleItemString
    pure { rule with network := value }
  | .domain => do
    let matcher ← decoder.matcher
    let lists := libraries.domain.dump matcher
    pure { rule with
      domainMatcher := some matcher
      domain := if recover then lists.1 else rule.domain
      domainSuffix := if recover then lists.2 else rule.domainSuffix }
  | .domainKeyword => do
    let value ← readRuleItemString
    pure { rule with domainKeyword := value }
  | .domainRegex => do
    let value ← readRuleItemString
    pure { rule with domainRegex := value }
  | .sourceIPCIDR => do
    let set ← decoder.ipSet
    pure { rule with
      sourceIPSet := some set
      sourceIPCIDR := if recover then set.prefixes libraries.netipx else rule.sourceIPCIDR }
  | .ipCIDR => do
    let set ← decoder.ipSet
    pure { rule with
      ipSet := some set
      ipCIDR := if recover then set.prefixes libraries.netipx else rule.ipCIDR }
  | .sourcePort => do
    let value ← readUint16s
    pure { rule with sourcePort := value }
  | .sourcePortRange => do
    let value ← readRuleItemString
    pure { rule with sourcePortRange := value }
  | .port => do
    let value ← readUint16s
    pure { rule with port := value }
  | .portRange => do
    let value ← readRuleItemString
    pure { rule with portRange := value }
  | .processName => do
    let value ← readRuleItemString
    pure { rule with processName := value }
  | .processPath => do
    let value ← readRuleItemString
    pure { rule with processPath := value }
  | .packageName => do
    let value ← readRuleItemString
    pure { rule with packageName := value }
  | .wifiSSID => do
    let value ← readRuleItemString
    pure { rule with wifiSSID := value }
  | .wifiBSSID => do
    let value ← readRuleItemString
    pure { rule with wifiBSSID := value }
  | .adGuardDomain => do
    let matcher ← decoder.adGuard
    pure { rule with
      adGuardDomainMatcher := some matcher
      adGuardDomain := if recover then libraries.adGuard.dump matcher else rule.adGuardDomain }
  | .processPathRegex => do
    let value ← readRuleItemString
    pure { rule with processPathRegex := value }
  | .networkType => do
    let value ← readString
    pure { rule with networkType := value }
  | .networkIsExpensive => pure { rule with networkIsExpensive := true }
  | .networkIsConstrained => pure { rule with networkIsConstrained := true }
  | .networkInterfaceAddress => do
    let size ← readUvarint
    let entries ← readTimes size readEntry
    pure { rule with networkInterfaceAddress := .ofEntries entries }
  | .defaultInterfaceAddress => do
    let value ← readPrefixes
    pure { rule with defaultInterfaceAddress := value }
  | .packageNameRegex => do
    let value ← readRuleItemString
    pure { rule with packageNameRegex := value }

/-- The loop of `readDefaultRule`; every round takes at least one byte, so the number of
bytes bounds the rounds. -/
def readItems (recover : Bool) : Nat → Byte → DefaultHeadlessRule μ ν →
    Reader (DefaultHeadlessRule μ ν)
  | 0, _, _ => throw (Failure.error "unexpected EOF")
  | rounds + 1, lastItemType, rule => do
    let itemType ← readByte
    if itemType = ruleItemFinal then
      let invert ← readBool
      pure { rule with invert := invert }
    else
      match ItemType.ofCode itemType with
      | some item => do
        let rule ← readItem libraries decoder recover item rule
        readItems recover rounds itemType rule
      | none =>
        throw (Failure.error <| "unknown rule item type: " ++ toString itemType.toNat ++ ", last type: " ++
          toString lastItemType.toNat)

def readDefaultRule (recover : Bool) : Reader (DefaultHeadlessRule μ ν) := fun input =>
  readItems libraries decoder recover (input.length + 1) 0 {} input

/-- The matcher of the `domain` item, if it is written: both lists are compiled into one. -/
def domainMatcherOf (version : Byte) (rule : DefaultHeadlessRule μ ν) : Option μ :=
  if rule.domain.isEmpty && rule.domainSuffix.isEmpty then
    if encoder.compiled then rule.domainMatcher else none
  else some (libraries.domain.newMatcher rule.domain rule.domainSuffix (version = 1))

def writeDomain (version : Byte) (rule : DefaultHeadlessRule μ ν) : Part σ := fun state =>
  match domainMatcherOf libraries encoder version rule with
  | none => .ok ([], state)
  | some matcher =>
    if rule.domain.contains [] then .error "domain: empty item is not allowed"
    else if rule.domainSuffix.contains [] then .error "domain_suffix: empty item is not allowed"
    else tagged .domain encoder.matcher matcher state

/-- `writeRuleItemCIDR` with the cause that `writeDefaultRule` adds. -/
def writeRuleItemCIDR (item : ItemType) (name : String) (value : List DNS.Prefix)
    (rawSet : Option IPSet) : Part σ := fun state =>
  if value.isEmpty then
    match if encoder.compiled then rawSet else none with
    | none => .ok ([], state)
    | some set => tagged item encoder.ipSet set state
  else
    match libraries.netipx.ranges value with
    | .ok ranges => tagged item encoder.ipSet (fromIPSet ranges) state
    | .error err => .error (name ++ ": " ++ err)

def adGuardMatcherOf (rule : DefaultHeadlessRule μ ν) : Option ν :=
  if rule.adGuardDomain.isEmpty then
    if encoder.compiled then rule.adGuardDomainMatcher else none
  else some (libraries.adGuard.newMatcher rule.adGuardDomain)

def writeAdGuard (version : Byte) (rule : DefaultHeadlessRule μ ν) : Part σ := fun state =>
  match adGuardMatcherOf libraries encoder rule with
  | none => .ok ([], state)
  | some matcher =>
    versioned true version 2 "AdGuard rule items is" (tagged .adGuardDomain encoder.adGuard matcher)
      state

/-- Bytes that do not depend on the state. -/
def fixed (bytes : Bytes) : Part σ := fun state => .ok (bytes, state)

/-- The items of a rule in the order in which they are written. -/
def itemParts (version : Byte) (rule : DefaultHeadlessRule μ ν) : List (Part σ) :=
  [optional rule.queryType (writeRuleItemUint16 .queryType rule.queryType),
    optional rule.network (writeRuleItemString .network rule.network),
    writeDomain libraries encoder version rule,
    optional rule.domainKeyword (writeRuleItemString .domainKeyword rule.domainKeyword),
    optional rule.domainRegex (writeRuleItemString .domainRegex rule.domainRegex),
    writeRuleItemCIDR libraries encoder .sourceIPCIDR "source_ip_cidr" rule.sourceIPCIDR
      rule.sourceIPSet,
    writeRuleItemCIDR libraries encoder .ipCIDR "ipcidr" rule.ipCIDR rule.ipSet,
    optional rule.sourcePort (writeRuleItemUint16 .sourcePort rule.sourcePort),
    optional rule.sourcePortRange (writeRuleItemString .sourcePortRange rule.sourcePortRange),
    optional rule.port (writeRuleItemUint16 .port rule.port),
    optional rule.portRange (writeRuleItemString .portRange rule.portRange),
    optional rule.processName (writeRuleItemString .processName rule.processName),
    optional rule.processPath (writeRuleItemString .processPath rule.processPath),
    optional rule.processPathRegex (writeRuleItemString .processPathRegex rule.processPathRegex),
    optional rule.packageName (writeRuleItemString .packageName rule.packageName),
    versioned (!rule.packageNameRegex.isEmpty) version 5 (ruleItem "package_name_regex")
      (fixed (writeRuleItemString .packageNameRegex rule.packageNameRegex)),
    versioned (!rule.networkType.isEmpty) version 3 (ruleItem "network_type")
      (fixed (writeRuleItemUint8 .networkType rule.networkType)),
    versioned rule.networkIsExpensive version 3 (ruleItem "network_is_expensive")
      (fixed [ItemType.code .networkIsExpensive]),
    versioned rule.networkIsConstrained version 3 (ruleItem "network_is_constrained")
      (fixed [ItemType.code .networkIsConstrained]),
    versioned (!rule.networkInterfaceAddress.entries.isEmpty) version 4
      (ruleItem "network_interface_address")
      (fixed (ItemType.code .networkInterfaceAddress ::
        (writeUvarint rule.networkInterfaceAddress.entries.length ++
          rule.networkInterfaceAddress.entries.flatMap writeEntry))),
    versioned (!rule.defaultInterfaceAddress.isEmpty) version 4
      (ruleItem "default_interface_address")
      (fixed (ItemType.code .defaultInterfaceAddress :: writePrefixes rule.defaultInterfaceAddress)),
    optional rule.wifiSSID (writeRuleItemString .wifiSSID rule.wifiSSID),
    optional rule.wifiBSSID (writeRuleItemString .wifiBSSID rule.wifiBSSID),
    writeAdGuard libraries encoder version rule]

def writeDefaultRule (version : Byte) (rule : DefaultHeadlessRule μ ν) : Part σ := fun state => do
  let (items, state) ← joinParts (itemParts libraries encoder version rule) state
  pure ([0] ++ (items ++ [ruleItemFinal, writeBool rule.invert]), state)

/-! ## Rules and rule-sets -/

def maxLogicalRuleDepth : Nat := 100

def modeByte : LogicalType → Byte
  | .and => 0
  | .or => 1

mutual
/-- `writeRule` and `writeLogicalRule`. -/
def writeRule (version : Byte) : HeadlessRule μ ν → Part σ
  | .default rule => writeDefaultRule libraries encoder version rule
  | .logical mode rules invert => fun state => do
    let (body, state) ← joinParts (writeRules version rules) state
    pure ([1] ++ ([modeByte mode] ++ (writeUvarint rules.length ++ (body ++ [writeBool invert]))),
      state)

def writeRules (version : Byte) : List (HeadlessRule μ ν) → List (Part σ)
  | [] => []
  | rule :: rest => writeRule version rule :: writeRules version rest
end

/-- The error of a rule in a list, with its index. -/
def readIndexed {α : Type} (name : String) (reader : Reader α) : Nat → Nat → Reader (List α)
  | 0, _ => pure []
  | count + 1, index => do
    let value ← fun input =>
      match reader input with
      | .ok read => .ok read
      | .error (.error err) => .error (name ++ "[" ++ toString index ++ "]: " ++ err)
      | .error .panic => .error .panic
    let values ← readIndexed name reader count (index + 1)
    pure (value :: values)

/-- `readRule` and `readLogicalRule`, by the number of levels that are left: one more than
`maxLogicalRuleDepth - depth`. -/
def readRule (recover : Bool) : Nat → Reader (HeadlessRule μ ν)
  | 0 => throw (Failure.error "logical rule nested too deep")
  | levels + 1 => do
    let ruleType ← readByte
    if ruleType = 0 then
      let rule ← readDefaultRule libraries decoder recover
      pure (.default rule)
    else if ruleType = 1 then
      let mode ← readByte
      if mode = 0 ∨ mode = 1 then
        let length ← readUvarint
        let rules ← readIndexed "read logical rule " (readRule recover levels) length 0
        let invert ← readBool
        pure (.logical (if mode = 0 then .and else .or) rules invert)
      else throw (Failure.error <| "unknown logical mode: " ++ toString mode.toNat)
    else throw (Failure.error <| "unknown rule type: " ++ toString ruleType.toNat)

def magicBytes : Bytes := [0x53, 0x52, 0x53]

def ruleSetVersionCurrent : Byte := 5

/-- `Write`. -/
def write (rules : List (HeadlessRule μ ν)) (generateVersion : Byte) : Except String Bytes := do
  let (body, _) ← joinParts (writeRules libraries (plainEncoder libraries) generateVersion rules) ()
  pure (magicBytes ++ ([generateVersion] ++
    libraries.zlib.compress (writeUvarint rules.length ++ body)))

/-- `option.PlainRuleSetCompat`. -/
structure PlainRuleSetCompat (μ ν : Type) where
  version : Byte
  rules : List (HeadlessRule μ ν)

/-- The rules behind the header, as both forms of the file hold them. -/
def readBody (recover : Bool) : Reader (List (HeadlessRule μ ν)) := do
  let length ← readUvarint
  readIndexed "read rule" (readRule libraries decoder recover (maxLogicalRuleDepth + 1)) length 0

/-- `Read`. -/
def read (file : Bytes) (recover : Bool) : Except Failure (PlainRuleSetCompat μ ν) := do
  let (magic, rest) ← readFull 3 file
  if magic ≠ magicBytes then throw (Failure.error "invalid sing-box rule-set file")
  else
    let (version, rest) ← readByte rest
    if version > ruleSetVersionCurrent then
      throw (Failure.error <| "unsupported version: " ++ toString version.toNat)
    else
      let body ← (libraries.zlib.decompress rest).mapError Failure.error
      let (rules, _) ← readBody libraries (plainDecoder libraries) recover body
      pure ⟨version, rules⟩

end Format
end AmneziaBox.Source.SRS
