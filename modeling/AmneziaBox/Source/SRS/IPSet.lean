import Mathlib.Data.List.Sort
import AmneziaBox.Library.Codec
import AmneziaBox.Source.DNS.Message
import AmneziaBox.Source.DNS.RuleAction

/-!
# Address sets of a binary rule-set

`common/ipset/set.go`, `common/srs/ip_set.go` and `common/srs/ip_cidr.go`. A set of
addresses is two ordered lists of ranges, one for each family. The sets of
`go4.org/netipx` are outside the repository: they are a parameter, and what the package
documents of them is stated as `Netipx.Builds`. `M.AddrFromIP` gives a 16 byte address
back as an IPv6 address.
-/
namespace AmneziaBox.Source.SRS
open Adapter Library DNS List BitVec

/-! ## The two families of addresses -/

inductive Family where
  | v4 | v6
  deriving DecidableEq, Repr

namespace Family

/-- The length of an address in bytes. -/
def size : Family → Nat
  | .v4 => 4
  | .v6 => 16

def width (family : Family) : Nat := 8 * family.size

/-- An address of the family as a number. -/
def number : Family → Addr → Option Nat
  | .v4, .ipv4 value => some value.toNat
  | .v6, .ipv6 value => some value.toNat
  | _, _ => none

def addr : Family → Nat → Addr
  | .v4, value => .ipv4 (BitVec.ofNat 32 value)
  | .v6, value => .ipv6 (BitVec.ofNat 128 value)

variable {family : Family} {value : Nat}

theorem number_lt {address : Addr} (numbered : family.number address = some value) :
    value < 2 ^ family.width := by
  cases family <;> cases address <;> cases numbered
  · exact isLt _
  · exact isLt _

theorem addr_number {address : Addr} (numbered : family.number address = some value) :
    family.addr value = address := by
  cases family <;> cases address <;> cases numbered
  · exact congrArg Addr.ipv4 (ofNat_toNat 32 _)
  · exact congrArg Addr.ipv6 (ofNat_toNat 128 _)

end Family

/-! ## Prefixes -/

/-- `netip.Prefix.IsValid`. -/
def isValid (pfx : DNS.Prefix) : Bool := pfx.addr.isValid && pfx.bits ≤ pfx.addr.bitLen

/-- The addresses of a prefix. -/
def Within (pfx : DNS.Prefix) (address : Addr) : Prop :=
  ∃ family base x, Family.number family pfx.addr = some base ∧
    family.number address = some x ∧
    x / 2 ^ (family.width - pfx.bits) = base / 2 ^ (family.width - pfx.bits)

/-- `WritePrefix`; the bits of an invalid prefix are -1. -/
def writePrefix (pfx : DNS.Prefix) : Bytes :=
  let address : Bytes :=
    match pfx.addr with
    | .invalid => []
    | .ipv4 value => bigEndian 4 value.toNat
    | .ipv6 value => bigEndian 16 value.toNat
  let bits : Byte := if isValid pfx then BitVec.ofNat 8 pfx.bits else 255
  writeUvarint address.length ++ (address ++ [bits])

def invalidArgument : String := "invalid argument"

/-- `readIPSetAddr`: the length of an address and its number. -/
def readIPSetAddr : Reader (Family × Nat) := do
  let length ← readUvarint
  if length = 4 then
    let value ← readBigEndian 4
    pure (.v4, value)
  else if length = 16 then
    let value ← readBigEndian 16
    pure (.v6, value)
  else throw (Failure.error invalidArgument)

/-- `netip.PrefixFrom`: bits beyond the address are kept as -1, as the byte of it here. -/
def prefixFrom (address : Addr) (bits : Nat) : DNS.Prefix :=
  ⟨address, if bits ≤ address.bitLen then bits else 255⟩

/-- `ReadPrefix`. -/
def readPrefix : Reader DNS.Prefix := do
  let (family, value) ← readIPSetAddr
  let bits ← readByte
  pure (prefixFrom (family.addr value) bits.toNat)

def writeIPSetAddr (family : Family) (value : Nat) : Bytes :=
  writeUvarint family.size ++ bigEndian family.size value

variable {family : Family}

theorem reads_ipSetAddr {value : Nat} (fits : value < 2 ^ family.width) :
    Reads readIPSetAddr (writeIPSetAddr family value) (family, value) := by
  have length : family.size < 2 ^ 64 := by cases family <;> decide
  have width : 256 ^ family.size = 2 ^ family.width := by
    rw [Family.width, Nat.pow_mul]
  refine (reads_uvarint length).bind ?_
  rw [← width] at fits
  have number := (reads_bigEndian fits).map fun value => (family, value)
  cases family with
  | v4 => exact number
  | v6 => exact number

/-- A prefix as `PrefixFrom` makes it from an address that is not the zero one. -/
def Canonical (pfx : DNS.Prefix) : Prop :=
  pfx.addr.isValid = true ∧ (pfx.bits ≤ pfx.addr.bitLen ∨ pfx.bits = 255)

theorem Addr.bitLen_le (address : Addr) : address.bitLen ≤ 128 := by
  cases address <;> simp [Addr.bitLen]

variable {address : Addr}

theorem exists_number (valid : address.isValid = true) :
    ∃ family value, Family.number family address = some value := by
  cases address with
  | invalid => cases valid
  | ipv4 value => exact ⟨.v4, _, rfl⟩
  | ipv6 value => exact ⟨.v6, _, rfl⟩

variable {pfx : DNS.Prefix}

/-- The byte that `WritePrefix` writes is that of the bits, -1 included. -/
theorem writePrefix_eq (canonical : Canonical pfx) {value : Nat}
    (numbered : family.number pfx.addr = some value) :
    writePrefix pfx = writeIPSetAddr family value ++ [BitVec.ofNat 8 pfx.bits] := by
  have bits : (if isValid pfx then BitVec.ofNat 8 pfx.bits else 255 : Byte) =
      BitVec.ofNat 8 pfx.bits := by
    split
    · rfl
    · rename_i invalid
      obtain ⟨valid, bounded | missing⟩ := canonical
      · exact absurd (Bool.and_eq_true_iff.mpr ⟨valid, decide_eq_true bounded⟩) invalid
      · rw [missing]
        rfl
  unfold writePrefix
  rw [bits]
  cases pfx with
  | mk address bits =>
    cases family <;> cases address <;> cases numbered <;>
      simp [writeIPSetAddr, Family.size]

theorem reads_writePrefix (canonical : Canonical pfx) : Reads readPrefix (writePrefix pfx) pfx := by
  obtain ⟨family, value, numbered⟩ := exists_number canonical.1
  have most := Addr.bitLen_le pfx.addr
  have small : pfx.bits < 256 := by
    have bounds := canonical.2
    omega
  have bits : (BitVec.ofNat 8 pfx.bits).toNat = pfx.bits := by
    rw [BitVec.toNat_ofNat]
    omega
  have whole : prefixFrom (family.addr value) pfx.bits = pfx := by
    rw [Family.addr_number numbered]
    unfold prefixFrom
    cases pfx
    congr 1
    split
    · rfl
    · rename_i beyond
      exact (canonical.2.resolve_left beyond).symm
  rw [writePrefix_eq canonical numbered]
  refine (reads_ipSetAddr (Family.number_lt numbered)).bind ?_
  have last := (reads_byte (BitVec.ofNat 8 pfx.bits)).map fun byte : Byte =>
    prefixFrom (family.addr value) byte.toNat
  rw [bits, whole] at last
  exact last

/-! ## Sets -/

/-- `ipset.Range4` or `ipset.Range6`, by the numbers of its ends. -/
structure Interval where
  lo : Nat
  hi : Nat
  deriving DecidableEq, Repr

def Interval.Mem (range : Interval) (x : Nat) : Prop := range.lo ≤ x ∧ x ≤ range.hi

/-- `netipx.IPRange`, whose ends are of one family. -/
abbrev IPRange := Family × Interval

/-- The addresses of some ranges. -/
def CoveredBy (ranges : List IPRange) (address : Addr) : Prop :=
  ∃ range ∈ ranges, ∃ x, Family.number range.1 address = some x ∧ range.2.Mem x

/-- `ipset.Set`. -/
structure IPSet where
  ranges4 : List Interval
  ranges6 : List Interval
  deriving DecidableEq, Repr

def IPSet.ranges (set : IPSet) : Family → List Interval
  | .v4 => set.ranges4
  | .v6 => set.ranges6

/-- The ranges of both families, each with its family. -/
def IPSet.tagged (set : IPSet) : List IPRange :=
  set.ranges4.map (Prod.mk .v4) ++ set.ranges6.map (Prod.mk .v6)

def ofFamily (family : Family) (ranges : List IPRange) : List Interval :=
  ranges.filterMap fun (other, range) => if other = family then some range else none

/-- `FromIPSet` of a set with these `Ranges`. -/
def fromIPSet (ranges : List IPRange) : IPSet := ⟨ofFamily .v4 ranges, ofFamily .v6 ranges⟩

/-- What is used of `go4.org/netipx`. -/
structure Netipx where
  /-- `Ranges` of the set that a builder makes after `AddPrefix` of each prefix. -/
  ranges : List DNS.Prefix → Except String (List IPRange)
  /-- `Prefixes` of the set that a builder makes after `AddRange` of each range. -/
  prefixes : List IPRange → List DNS.Prefix

/-- The order of `Ranges`: IPv4 first, and no address in two ranges. -/
def Precedes (first second : IPRange) : Prop :=
  first.1 = .v4 ∧ second.1 = .v6 ∨ first.1 = second.1 ∧ first.2.hi < second.2.lo

/-- What `netipx` documents, for a builder with these prefixes: it takes valid ones; `Ranges`
is the sorted and smallest list of ranges of the set, so no longer than the list of prefixes;
the set has the addresses of the prefixes, and so have the `Prefixes` of its ranges. -/
structure Netipx.Builds (netipx : Netipx) (value : List DNS.Prefix) : Prop where
  accepts : (∀ pfx ∈ value, isValid pfx = true) → ∃ ranges, netipx.ranges value = .ok ranges
  sorted : ∀ ranges, netipx.ranges value = .ok ranges → ranges.Pairwise Precedes
  proper : ∀ ranges, netipx.ranges value = .ok ranges → ∀ range ∈ ranges,
    range.2.lo ≤ range.2.hi ∧ range.2.hi < 2 ^ range.1.width
  few : ∀ ranges, netipx.ranges value = .ok ranges → ranges.length ≤ value.length
  covers : ∀ ranges, netipx.ranges value = .ok ranges → ∀ address,
    CoveredBy ranges address ↔ ∃ pfx ∈ value, Within pfx address
  splits : ∀ ranges, netipx.ranges value = .ok ranges → ∀ address,
    (∃ pfx ∈ netipx.prefixes ranges, Within pfx address) ↔ CoveredBy ranges address

/-- `Prefixes`. -/
def IPSet.prefixes (netipx : Netipx) (set : IPSet) : List DNS.Prefix := netipx.prefixes set.tagged

variable {set : IPSet}

theorem ranges_fromIPSet (ranges : List IPRange) (family : Family) :
    (fromIPSet ranges).ranges family = ofFamily family ranges := by
  cases family <;> rfl

theorem mem_ofFamily {ranges : List IPRange} {range : Interval} :
    range ∈ ofFamily family ranges ↔ (family, range) ∈ ranges := by
  simp only [ofFamily, mem_filterMap]
  constructor
  · rintro ⟨⟨other, found⟩, member, same⟩
    split at same
    · cases same
      subst family
      exact member
    · cases same
  · exact fun member => ⟨_, member, if_pos rfl⟩

/-- Sorted ranges are the ranges of their set. -/
theorem tagged_fromIPSet {ranges : List IPRange} (sorted : ranges.Pairwise Precedes) :
    (fromIPSet ranges).tagged = ranges := by
  induction ranges with
  | nil => rfl
  | cons first rest ih =>
    obtain ⟨before, later⟩ := pairwise_cons.mp sorted
    have again := ih later
    obtain ⟨_ | _, range⟩ := first
    · simpa [IPSet.tagged, fromIPSet, ofFamily] using again
    · have none : ofFamily .v4 rest = [] := by
        refine filterMap_eq_nil_iff.mpr fun other member => ?_
        obtain ⟨absent, -⟩ | ⟨same, -⟩ := before other member
        · cases absent
        · dsimp only at same ⊢
          rw [← same]
          rfl
      simp only [IPSet.tagged, fromIPSet, none, map_nil, nil_append] at again
      unfold ofFamily at none again
      simpa [IPSet.tagged, fromIPSet, ofFamily, none] using again

/-! ## The binary form of a set -/

def writeRange (family : Family) (range : Interval) : Bytes :=
  writeIPSetAddr family range.lo ++ writeIPSetAddr family range.hi

/-- `writeIPSet`. -/
def writeIPSet (set : IPSet) : Bytes :=
  [1] ++ (bigEndian 8 (set.ranges4.length + set.ranges6.length) ++
    (set.ranges4.flatMap (writeRange .v4) ++ set.ranges6.flatMap (writeRange .v6)))

def readRange : Reader IPRange := do
  let (family, lo) ← readIPSetAddr
  let (other, hi) ← readIPSetAddr
  if family = other then pure (family, ⟨lo, hi⟩) else throw (Failure.error invalidArgument)

/-- The checks of `FromRanges` on one family, from an index on. -/
def checkRanges : Nat → Option Interval → List Interval → Except String Unit
  | _, _, [] => pure ()
  | index, previous, range :: rest => do
    if range.lo > range.hi then throw ("ipset: malformed range " ++ toString index)
    if previous.any fun before => range.lo ≤ before.hi then
      throw ("ipset: unordered range " ++ toString index)
    checkRanges (index + 1) (some range) rest

/-- `FromRanges`. -/
def fromRanges (ranges4 ranges6 : List Interval) : Except String IPSet := do
  checkRanges 0 none ranges4
  checkRanges 0 none ranges6
  pure ⟨ranges4, ranges6⟩

/-- `slices.SortFunc` by the start of a range. -/
def sortRanges (ranges : List Interval) : List Interval :=
  ranges.insertionSort fun first second => first.lo ≤ second.lo

/-- `readIPSet`. -/
def readIPSet : Reader IPSet := do
  let version ← readByte
  if version = 1 then
    let length ← readBigEndian 8
    let ranges ← readTimes length readRange
    ofExcept (fromRanges (sortRanges (ofFamily .v4 ranges)) (sortRanges (ofFamily .v6 ranges)))
  else throw (Failure.error invalidArgument)

/-- Ranges in order without a common number. -/
structure Ascending (ranges : List Interval) : Prop where
  ordered : ∀ range ∈ ranges, range.lo ≤ range.hi
  disjoint : ranges.Pairwise fun first second => first.hi < second.lo

variable {ranges : List Interval}

/-- What the reader checks of a set. -/
structure IPSet.WellFormed (set : IPSet) : Prop where
  ascending : ∀ family, Ascending (set.ranges family)
  bounded : ∀ family, ∀ range ∈ set.ranges family, range.hi < 2 ^ Family.width family
  counted : set.ranges4.length + set.ranges6.length < 2 ^ 64

theorem Netipx.Builds.wellFormed {netipx : Netipx} {value : List DNS.Prefix} {found : List IPRange}
    (builds : netipx.Builds value) (built : netipx.ranges value = .ok found)
    (counted : value.length < 2 ^ 64) : (fromIPSet found).WellFormed := by
  have sorted := builds.sorted found built
  have proper := builds.proper found built
  refine ⟨fun family => ?_, fun family range member => ?_, ?_⟩
  · rw [ranges_fromIPSet]
    refine ⟨fun range member => (proper _ (mem_ofFamily.mp member)).1, ?_⟩
    refine pairwise_filterMap.mpr (sorted.imp ?_)
    intro first second precedes one here two there
    simp only [Option.ite_none_right_eq_some, Option.some.injEq] at here there
    obtain ⟨⟨rfl, rfl⟩, same, rfl⟩ := And.intro here there
    obtain ⟨four, six⟩ | ⟨-, gap⟩ := precedes
    · rw [four, six] at same
      cases same
    · exact gap
  · rw [ranges_fromIPSet] at member
    exact (proper _ (mem_ofFamily.mp member)).2
  · have all := congrArg length (tagged_fromIPSet sorted)
    have few := builds.few found built
    simp only [IPSet.tagged, length_append, length_map] at all
    omega

theorem checkRanges_ascending (ascending : Ascending ranges) {index : Nat}
    {previous : Option Interval}
    (after : ∀ before ∈ previous, ∀ range ∈ ranges, before.hi < range.lo) :
    checkRanges index previous ranges = .ok () := by
  induction ranges generalizing index previous with
  | nil => rfl
  | cons range rest ih =>
    have ordered := ascending.ordered range mem_cons_self
    obtain ⟨gaps, disjoint⟩ := pairwise_cons.mp ascending.disjoint
    have first : ¬ (previous.any fun before => range.lo ≤ before.hi) = true := by
      cases previous with
      | none => simp
      | some before =>
        have gap := after before rfl range mem_cons_self
        simp only [Option.any_some, decide_eq_true_eq]
        omega
    have later : checkRanges (index + 1) (some range) rest = .ok () := by
      refine ih ⟨fun other member => ascending.ordered other (mem_cons_of_mem _ member),
        disjoint⟩ ?_
      intro before here other member
      cases here
      exact gaps other member
    unfold checkRanges
    rw [if_neg (by omega), if_neg first]
    exact later

/-- The checks find out about any pair of ranges, not only about neighbours. -/
theorem ascending_of_checkRanges {index : Nat} {previous : Option Interval}
    (checked : checkRanges index previous ranges = .ok ()) :
    Ascending ranges ∧ ∀ before ∈ previous, ∀ range ∈ ranges, before.hi < range.lo := by
  induction ranges generalizing index previous with
  | nil => exact ⟨⟨nofun, .nil⟩, nofun⟩
  | cons range rest ih =>
    unfold checkRanges at checked
    by_cases malformed : range.lo > range.hi
    · rw [if_pos malformed] at checked
      cases checked
    rw [if_neg malformed] at checked
    by_cases unordered : (previous.any fun before => range.lo ≤ before.hi) = true
    · rw [if_pos unordered] at checked
      cases checked
    rw [if_neg unordered] at checked
    obtain ⟨ascending, later⟩ := ih checked
    have gaps := later range rfl
    refine ⟨⟨?_, pairwise_cons.mpr ⟨gaps, ascending.disjoint⟩⟩, ?_⟩
    · exact forall_mem_cons.mpr ⟨by omega, ascending.ordered⟩
    · intro before here
      obtain rfl := here
      have gap : before.hi < range.lo := by simpa using unordered
      refine forall_mem_cons.mpr ⟨gap, fun other member => ?_⟩
      have next := gaps other member
      omega

theorem fromRanges_eq (ascending : ∀ family, Ascending (set.ranges family)) :
    fromRanges set.ranges4 set.ranges6 = .ok set := by
  have checked (family : Family) : checkRanges 0 none (set.ranges family) = .ok () :=
    checkRanges_ascending (ascending family) nofun
  unfold fromRanges
  rw [show set.ranges4 = set.ranges .v4 from rfl, show set.ranges6 = set.ranges .v6 from rfl,
    checked, checked]
  rfl

theorem fromRanges_ok {ranges4 ranges6 : List Interval}
    (made : fromRanges ranges4 ranges6 = .ok set) :
    set = ⟨ranges4, ranges6⟩ ∧ Ascending ranges4 ∧ Ascending ranges6 := by
  unfold fromRanges at made
  cases four : checkRanges 0 none ranges4 with
  | error err =>
    rw [four] at made
    cases made
  | ok checked4 =>
    cases six : checkRanges 0 none ranges6 with
    | error err =>
      rw [four, six] at made
      cases made
    | ok checked6 =>
      rw [four, six] at made
      cases made
      exact ⟨rfl, (ascending_of_checkRanges four).1, (ascending_of_checkRanges six).1⟩

end AmneziaBox.Source.SRS
