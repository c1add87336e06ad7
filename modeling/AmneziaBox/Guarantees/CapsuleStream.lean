import AmneziaBox.Source.HTTP.Capsule
import Mathlib.Tactic.FinCases

/-!
# The capsule stream keeps its packets

A peer writes packets as datagram capsules and may put capsules of other types and
datagrams of other contexts between them. The reading loop skips those and keeps its
place in the stream, so the packets come out as they went in, however the stream is cut.
Integers are taken in all four lengths RFC 9000 allows, since a peer need not choose the
shortest.
-/
namespace AmneziaBox.Guarantees.CapsuleStream
open Library Source.HTTP List Stream
open Library.Stream (Buffer Leads Takes)

/-! ## Integers -/

/-- An integer of RFC 9000 in one of its lengths of 1, 2, 4 and 8 bytes. -/
structure Varint where
  kind : Fin 4
  value : Nat
  fits : value < 64 * 256 ^ (2 ^ kind.val - 1)

variable (varint : Varint)

namespace Varint

def more (varint : Varint) : Nat := 2 ^ varint.kind.val - 1

def first (varint : Varint) : Byte :=
  BitVec.ofNat 8 (64 * varint.kind.val + varint.value / 256 ^ varint.more)

def bytes (varint : Varint) : Bytes := varint.first :: bigEndian varint.more varint.value

theorem high_lt : varint.value / 256 ^ varint.more < 64 :=
  Nat.div_lt_of_lt_mul (by rw [Nat.mul_comm]; exact varint.fits)

theorem first_toNat :
    varint.first.toNat = 64 * varint.kind.val + varint.value / 256 ^ varint.more := by
  have high := varint.high_lt
  rw [first, BitVec.toNat_ofNat, Nat.mod_eq_of_lt (by omega)]

theorem low_of_byte : ∀ byte : Byte, (byte &&& 0x3f).toNat = byte.toNat % 64 := by decide

theorem varintLength_of_byte :
    ∀ byte : Byte, varintLength byte = 2 ^ (byte.toNat / 64) := by decide

theorem varintLength_first : varintLength varint.first = varint.more + 1 := by
  have kind : (64 * varint.kind.val + varint.value / 256 ^ varint.more) / 64 = varint.kind.val := by
    rw [Nat.mul_add_div (by omega), Nat.div_eq_of_lt varint.high_lt, Nat.add_zero]
  rw [varintLength_of_byte, first_toNat, kind, more, Nat.sub_add_cancel Nat.one_le_two_pow]

theorem low_first :
    (varint.first &&& 0x3f).toNat = varint.value / 256 ^ varint.more := by
  rw [low_of_byte, first_toNat, Nat.mul_add_mod, Nat.mod_eq_of_lt varint.high_lt]

@[simp] theorem bytes_length : varint.bytes.length = varint.more + 1 := by
  simp [bytes]

end Varint

theorem pushByte_eq (value : Nat) (next : Byte) : pushByte value next = value * 256 + next.toNat := by
  have small : next.toNat < 2 ^ 8 := next.isLt
  rw [pushByte, Nat.shiftLeft_eq, Nat.mul_comm, ← Nat.two_pow_add_eq_or_of_lt small]

theorem foldl_pushByte (bytes : Bytes) (value : Nat) :
    bytes.foldl pushByte value = value * 256 ^ bytes.length + ofBigEndian bytes := by
  induction bytes generalizing value with
  | nil => simp [ofBigEndian]
  | cons byte rest ih =>
    rw [foldl_cons, ih, pushByte_eq, ofBigEndian, length_cons]
    ring

theorem Varint.foldl_rest :
    (bigEndian varint.more varint.value).foldl pushByte (varint.first &&& 0x3f).toNat =
      varint.value := by
  rw [foldl_pushByte, varint.low_first, bigEndian_length, ofBigEndian_bigEndian]
  exact Nat.div_add_mod' varint.value _

theorem takes_readVarintMore (bytes : Bytes) (value : Nat) :
    Takes (readVarintMore bytes.length value) bytes (bytes.foldl pushByte value) := by
  induction bytes generalizing value with
  | nil => exact Leads.refl _
  | cons byte rest ih => exact Takes.bind (takes_byte byte) (ih (pushByte value byte))

theorem takes_readVarint :
    Takes readVarint varint.bytes (varint.value, varint.bytes.length) := by
  refine Takes.bind (takes_byte varint.first) ?_
  have more := takes_readVarintMore (bigEndian varint.more varint.value) (varint.first &&& 0x3f).toNat
  rw [bigEndian_length, varint.foldl_rest] at more
  rw [varint.varintLength_first, varint.bytes_length]
  exact Takes.map (fun value => (value, varint.more + 1)) more

theorem decodeVarint_bytes (rest : Bytes) :
    decodeVarint (varint.bytes ++ rest) = some (varint.value, varint.bytes.length) := by
  have enough : ¬ (varint.first :: (bigEndian varint.more varint.value ++ rest)).length <
      varintLength varint.first := by
    rw [varint.varintLength_first, length_cons, length_append, bigEndian_length]
    omega
  have taken : (bigEndian varint.more varint.value ++ rest).take (varint.more + 1 - 1) =
      bigEndian varint.more varint.value :=
    take_left' (bigEndian_length _ _)
  rw [Varint.bytes, cons_append, decodeVarint, if_neg enough, varint.varintLength_first, taken,
    varint.foldl_rest, length_cons, bigEndian_length]

/-! ### The shortest form, which the writer chooses -/

def shortestKind (value : Nat) : Fin 4 :=
  if value < 1 <<< 6 then 0 else if value < 1 <<< 14 then 1 else if value < 1 <<< 30 then 2 else 3

def shortest (value : Nat) (small : value < 2 ^ 62) : Varint where
  kind := shortestKind value
  value := value
  fits := by
    unfold shortestKind
    split_ifs with one two four
    · exact one
    · exact two
    · exact four
    · exact small

/-- The tag in the two highest bits of a number with this many bytes after its first. -/
theorem tagged (more value tag : Nat) (small : value < 2 ^ (8 * more + 6)) :
    bigEndian (more + 1) (value ||| 2 ^ (8 * more + 6) * tag) =
      BitVec.ofNat 8 (64 * tag + value / 256 ^ more) :: bigEndian more value := by
  have whole : value ||| 2 ^ (8 * more + 6) * tag = value + 64 * tag * 256 ^ more := by
    have power : 2 ^ (8 * more + 6) = 64 * 256 ^ more := by
      rw [Nat.pow_add, Nat.pow_mul]
      ring
    rw [Nat.or_comm, ← Nat.two_pow_add_eq_or_of_lt small, power]
    ring
  rw [bigEndian, whole, bigEndian_add_mul, Nat.add_mul_div_right _ _ (Nat.pow_pos (by omega)),
    Nat.add_comm]

theorem putVarint_eq (value : Nat) (small : value < 2 ^ 62) :
    putVarint value = (shortest value small).bytes := by
  unfold putVarint varintLen
  simp only [Varint.bytes, Varint.first, Varint.more, shortest, shortestKind]
  by_cases one : value < 1 <<< 6
  · rw [if_pos one, if_pos one]
    simp [bigEndian]
  rw [if_neg one, if_neg one]
  by_cases two : value < 1 <<< 14
  · rw [if_pos two, if_pos two]
    rw [Nat.mod_eq_of_lt (two.trans (by decide))]
    exact tagged 1 value 1 two
  rw [if_neg two, if_neg two]
  by_cases four : value < 1 <<< 30
  · rw [if_pos four, if_pos four]
    rw [Nat.mod_eq_of_lt (b := 2 ^ 32) (four.trans (by decide))]
    exact tagged 3 value 2 four
  rw [if_neg four, if_neg four]
  exact tagged 7 value 3 small

theorem putVarint_length (value : Nat) : (putVarint value).length = varintLen value := by
  unfold putVarint varintLen
  split_ifs <;> simp

theorem takes_putVarint {value : Nat} (small : value < 2 ^ 62) :
    Takes readVarint (putVarint value) (value, varintLen value) := by
  rw [← putVarint_length, putVarint_eq value small]
  exact takes_readVarint _

theorem decodeVarint_putVarint {value : Nat} (small : value < 2 ^ 62) (rest : Bytes) :
    decodeVarint (putVarint value ++ rest) = some (value, varintLen value) := by
  rw [← putVarint_length, putVarint_eq value small]
  exact decodeVarint_bytes _ rest

/-! ## Capsules -/

/-- What a peer puts on the stream: a packet, a capsule of another type, or a datagram of
another context. The integers of the latter two come in any form. -/
inductive Item where
  | packet (buffer : Buffer)
  | unknown (kind length : Varint) (body : Bytes)
  | context (kind length id : Varint) (payload : Bytes)

namespace Item

def bytes : Item → Bytes
  | .packet buffer => writeDatagramCapsule (prependContextID buffer)
  | .unknown kind length body => kind.bytes ++ (length.bytes ++ body)
  | .context kind length id payload => kind.bytes ++ (length.bytes ++ (id.bytes ++ payload))

def packets : Item → List Bytes
  | .packet buffer => [buffer.bytes]
  | .unknown _ _ _ => []
  | .context _ _ _ _ => []

/-- Complete, within the maximum capsule length, and a packet fits the reader's buffer. -/
def Valid (freeLen : Nat) : Item → Prop
  | .packet buffer => buffer.bytes.length ≤ freeLen ∧ 1 + buffer.bytes.length ≤ maxCapsuleLength
  | .unknown kind length body =>
    kind.value ≠ capsuleTypeDatagram ∧ length.value = body.length ∧ body.length ≤ maxCapsuleLength
  | .context kind length id payload =>
    kind.value = capsuleTypeDatagram ∧ id.value ≠ 0 ∧
      length.value = id.bytes.length + payload.length ∧ length.value ≤ maxCapsuleLength

end Item

theorem prependContextID_bytes (buffer : Buffer) :
    (prependContextID buffer).bytes = 0 :: buffer.bytes := by
  unfold prependContextID
  split <;> rfl

/-- The header goes in front of the datagram in its own room or in a copy. -/
theorem writeDatagramCapsule_eq (datagram : Buffer) :
    writeDatagramCapsule datagram =
      BitVec.ofNat 8 capsuleTypeDatagram :: (putVarint datagram.bytes.length ++ datagram.bytes) := by
  unfold writeDatagramCapsule
  simp only
  split <;> rfl

def zeroVarint : Varint := ⟨0, 0, by decide⟩

/-- The length of a packet's datagram capsule. -/
def packetLength (buffer : Buffer) (small : 1 + buffer.bytes.length ≤ maxCapsuleLength) : Varint :=
  shortest (1 + buffer.bytes.length) (lt_of_le_of_lt small (by decide))

theorem packet_bytes (buffer : Buffer) (small : 1 + buffer.bytes.length ≤ maxCapsuleLength) :
    (Item.packet buffer).bytes = zeroVarint.bytes ++
      ((packetLength buffer small).bytes ++ (zeroVarint.bytes ++ buffer.bytes)) := by
  have length : (prependContextID buffer).bytes.length = 1 + buffer.bytes.length := by
    rw [prependContextID_bytes, length_cons, Nat.add_comm]
  rw [Item.bytes, writeDatagramCapsule_eq, length, prependContextID_bytes,
    putVarint_eq _ (lt_of_le_of_lt small (by decide))]
  rfl

section Reading

variable {freeLen rounds : Nat} {final : Stream.Reader Bytes}

theorem leads_round {kind length : Varint} {more : Bytes}
    (body : Leads (readCapsuleBody freeLen (readDatagramCapsuleWithin freeLen rounds) kind.value
      length.value) more final) :
    Leads (readDatagramCapsuleWithin freeLen (rounds + 1)) (kind.bytes ++ (length.bytes ++ more))
      final :=
  Takes.bind (takes_readVarint kind) (Takes.bind (takes_readVarint length) body)

theorem leads_datagram {again : Stream.Reader Bytes} {length : Nat} {id : Varint} {more : Bytes}
    (small : length ≤ maxCapsuleLength)
    (body : Leads (readDatagram freeLen again length id.value id.bytes.length) more final) :
    Leads (readCapsuleBody freeLen again capsuleTypeDatagram length) (id.bytes ++ more) final := by
  unfold readCapsuleBody
  rw [if_neg (Nat.not_lt.mpr small)]
  exact Takes.bind (takes_readVarint id) body

variable (rounds) in
/-- One round takes a packet. -/
theorem takes_packet (buffer : Buffer) (valid : (Item.packet buffer).Valid freeLen) :
    Takes (readDatagramCapsuleWithin freeLen (rounds + 1)) (Item.packet buffer).bytes
      buffer.bytes := by
  obtain ⟨fits, small⟩ := valid
  rw [packet_bytes buffer small]
  refine leads_round (leads_datagram small ?_)
  have payload : 1 + buffer.bytes.length - 1 = buffer.bytes.length := by omega
  have ours : ¬ (zeroVarint.value ≠ 0 ∨ freeLen < 1 + buffer.bytes.length - 1) := by
    rw [payload]
    exact fun other => other.elim (fun wrong => wrong rfl) (Nat.not_lt.mpr fits)
  change Takes (readDatagram _ _ (1 + buffer.bytes.length) zeroVarint.value 1) _ _
  unfold readDatagram
  rw [if_neg (by omega), if_neg ours, payload]
  exact takes_full buffer.bytes

/-- One round takes what is not a packet and leaves the rest to the next ones. -/
theorem leads_past {item : Item} (valid : item.Valid freeLen) (foreign : item.packets = []) :
    Leads (readDatagramCapsuleWithin freeLen (rounds + 1)) item.bytes
      (readDatagramCapsuleWithin freeLen rounds) := by
  cases item with
  | packet buffer => cases foreign
  | unknown kind length body =>
    obtain ⟨other, complete, small⟩ := valid
    apply leads_round
    unfold readCapsuleBody
    rw [complete, if_neg (Nat.not_lt.mpr small), if_pos other]
    exact Takes.leads (takes_discard body) _
  | context kind length id payload =>
    obtain ⟨datagram, other, complete, small⟩ := valid
    apply leads_round
    rw [datagram]
    apply leads_datagram small
    unfold readDatagram
    rw [if_neg (by omega), if_pos (Or.inl other), complete, Nat.add_sub_cancel_left]
    exact Takes.leads (takes_discard payload) _

variable (rounds) in
theorem leads_past_all {items : List Item} (valid : ∀ item ∈ items, item.Valid freeLen)
    (foreign : items.flatMap Item.packets = []) :
    Leads (readDatagramCapsuleWithin freeLen (rounds + items.length)) (items.flatMap Item.bytes)
      (readDatagramCapsuleWithin freeLen rounds) := by
  induction items with
  | nil => exact Leads.refl _
  | cons item others ih =>
    obtain ⟨here, there⟩ := append_eq_nil_iff.mp (flatMap_cons ▸ foreign)
    obtain ⟨now, later⟩ := forall_mem_cons.mp valid
    exact (leads_past now here).trans (ih later there)

end Reading

variable {pieces : List Bytes}

variable {freeLen : Nat}

theorem readWithin_end (rounds : Nat) (ended : pieces.flatten = []) :
    readDatagramCapsuleWithin freeLen rounds pieces = .error "EOF" := by
  cases rounds with
  | zero => rfl
  | succ rounds => exact bind_of_error (bind_of_error (readByte_end ended))

/-! ## The whole stream -/

theorem Item.bytes_pos (item : Item) : 0 < item.bytes.length := by
  cases item with
  | packet buffer => simp [Item.bytes, writeDatagramCapsule_eq]
  | unknown kind length body => simp [Item.bytes]
  | context kind length id payload => simp [Item.bytes, Varint.bytes]

theorem length_le_bytes (items : List Item) :
    items.length ≤ (items.flatMap Item.bytes).length := by
  induction items with
  | nil => exact Nat.zero_le _
  | cons item others ih =>
    have positive := item.bytes_pos
    rw [flatMap_cons, length_append, length_cons]
    omega

/-- Either only foreign capsules are left, or some of them and then a packet. -/
theorem next_packet (items : List Item) :
    items.flatMap Item.packets = [] ∨
      ∃ skipped buffer rest, items = skipped ++ Item.packet buffer :: rest ∧
        skipped.flatMap Item.packets = [] := by
  induction items with
  | nil => exact Or.inl rfl
  | cons item others ih =>
    cases h : item.packets with
    | cons packet more =>
      cases item with
      | packet buffer => exact Or.inr ⟨[], buffer, others, rfl, rfl⟩
      | unknown kind length body => cases h
      | context kind length id payload => cases h
    | nil =>
      rcases ih with none | ⟨skipped, buffer, rest, rfl, foreign⟩
      · exact Or.inl (by rw [flatMap_cons, h, none, nil_append])
      · exact Or.inr ⟨item :: skipped, buffer, rest, rfl,
          by rw [flatMap_cons, h, foreign, nil_append]⟩

theorem readDatagramCapsule_end {items : List Item} (valid : ∀ item ∈ items, item.Valid freeLen)
    (foreign : items.flatMap Item.packets = [])
    (arrived : pieces.flatten = items.flatMap Item.bytes) :
    readDatagramCapsule freeLen pieces = .error "EOF" := by
  have enough := length_le_bytes items
  obtain ⟨rounds, bound⟩ : ∃ rounds, pieces.flatten.length + 1 = rounds + items.length :=
    ⟨pieces.flatten.length + 1 - items.length, by rw [arrived]; omega⟩
  obtain ⟨left, done, ended⟩ := leads_past_all rounds valid foreign pieces []
    (by rw [arrived, append_nil])
  rw [readDatagramCapsule, bound, done]
  exact readWithin_end rounds ended

theorem readDatagramCapsule_next {skipped rest : List Item} {buffer : Buffer}
    (valid : ∀ item ∈ skipped, item.Valid freeLen) (fits : (Item.packet buffer).Valid freeLen)
    (foreign : skipped.flatMap Item.packets = [])
    (arrived : pieces.flatten = (skipped ++ Item.packet buffer :: rest).flatMap Item.bytes) :
    ∃ left, readDatagramCapsule freeLen pieces = .ok (buffer.bytes, left) ∧
      left.flatten = rest.flatMap Item.bytes := by
  have enough := length_le_bytes (skipped ++ Item.packet buffer :: rest)
  rw [← arrived, length_append] at enough
  obtain ⟨rounds, bound⟩ : ∃ rounds, pieces.flatten.length + 1 = rounds + 1 + skipped.length :=
    ⟨pieces.flatten.length - skipped.length, by omega⟩
  have reads := (leads_past_all (rounds + 1) valid foreign).trans
    (takes_packet rounds buffer fits)
  rw [readDatagramCapsule, bound]
  refine reads pieces _ ?_
  rw [arrived, flatMap_append, flatMap_cons, append_assoc]

/-- Reading as often as there are packets gives them in order, and then the stream ends. -/
theorem reads_packets {items : List Item} (valid : ∀ item ∈ items, item.Valid freeLen)
    (arrived : pieces.flatten = items.flatMap Item.bytes) :
    ∃ left, Stream.readTimes (items.flatMap Item.packets).length (readDatagramCapsule freeLen)
        pieces = .ok (items.flatMap Item.packets, left) ∧
      readDatagramCapsule freeLen left = .error "EOF" := by
  induction size : items.length using Nat.strong_induction_on generalizing items pieces with
  | _ count ih =>
    rcases next_packet items with none | ⟨skipped, buffer, rest, rfl, foreign⟩
    · rw [none]
      exact ⟨pieces, rfl, readDatagramCapsule_end valid none arrived⟩
    · have packets : (skipped ++ Item.packet buffer :: rest).flatMap Item.packets =
          buffer.bytes :: rest.flatMap Item.packets := by
        rw [flatMap_append, foreign]
        rfl
      obtain ⟨before, after⟩ := forall_mem_append.mp valid
      obtain ⟨fits, later⟩ := forall_mem_cons.mp after
      obtain ⟨middle, first, remains⟩ := readDatagramCapsule_next before fits foreign arrived
      have shorter : rest.length < count := by
        rw [← size, length_append, length_cons]
        omega
      obtain ⟨left, others, ended⟩ := ih rest.length shorter later remains rfl
      refine ⟨left, ?_, ended⟩
      rw [packets, length_cons, Stream.readTimes, Stream.bind_of_ok first,
        Stream.bind_of_ok others]
      rfl

/-- Integers below `2 ^ 62` are read and decoded as what was encoded. For every sequence of
packets that fit, with complete foreign capsules anywhere between them, reading the stream
in whatever pieces it arrives gives exactly the packets in order, and then its end. -/
theorem packets_received :
    (∀ value < 2 ^ 62, Takes readVarint (putVarint value) (value, varintLen value) ∧
      ∀ rest, decodeVarint (putVarint value ++ rest) = some (value, varintLen value)) ∧
    ∀ (freeLen : Nat) (items : List Item), (∀ item ∈ items, item.Valid freeLen) →
      ∀ pieces : List Bytes, pieces.flatten = items.flatMap Item.bytes →
        ∃ left, Stream.readTimes (items.flatMap Item.packets).length (readDatagramCapsule freeLen)
            pieces = .ok (items.flatMap Item.packets, left) ∧
          readDatagramCapsule freeLen left = .error "EOF" := by
  exact ⟨fun value small => ⟨takes_putVarint small, decodeVarint_putVarint small⟩,
    fun freeLen items valid pieces => reads_packets valid⟩

/-- Two packets of `[1, 2]` and of no bytes around a capsule of type 7 whose length takes
two bytes, cut in the middle of integers. -/
theorem packets_received_cut : ∃ left,
    Stream.readTimes 2 (readDatagramCapsule 4) [[0, 3, 0], [], [1, 2, 7, 0x40], [1, 9, 0, 1], [0]] =
        .ok ([[1, 2], []], left) ∧
      readDatagramCapsule 4 left = .error "EOF" :=
  packets_received.2 4
    [.packet ⟨0, [1, 2]⟩, .unknown ⟨0, 7, by decide⟩ ⟨1, 1, by decide⟩ [9], .packet ⟨6, []⟩]
    (by
      intro item member
      fin_cases member
      · exact ⟨by decide, by decide⟩
      · exact ⟨by decide, rfl, by decide⟩
      · exact ⟨by decide, by decide⟩)
    [[0, 3, 0], [], [1, 2, 7, 0x40], [1, 9, 0, 1], [0]] (by decide)

/-! ## Several capsules in one write -/

section Batches
variable {capacity : Nat} {datagrams : List Buffer}

theorem writeDatagramCapsule_length (datagram : Buffer) :
    (writeDatagramCapsule datagram).length = capsuleLength datagram := by
  rw [writeDatagramCapsule_eq, length_cons, length_append, putVarint_length, capsuleLength]
  omega

theorem capsuleLength_le_total {datagram : Buffer} (member : datagram ∈ datagrams) :
    capsuleLength datagram ≤ totalLength datagrams := by
  induction member with
  | head => exact Nat.le_add_right _ _
  | tail _ _ ih => exact Nat.le_add_left_of_le ih

theorem extendCapsules_eq {capsules : Bytes} {datagram : Buffer}
    (room : capsuleLength datagram ≤ capacity - capsules.length) :
    extendCapsules capacity capsules datagram = some (capsules ++ writeDatagramCapsule datagram) := by
  unfold capsuleLength at room
  unfold extendCapsules
  rw [if_neg (by omega), take_of_length_le (by omega), writeDatagramCapsule_eq]
  rfl

/-- Every write is the capsules of some of the datagrams, from those in the buffer on. -/
theorem writeBatches_groups (fits : ∀ datagram ∈ datagrams, capsuleLength datagram ≤ capacity)
    (packed : List Buffer) :
    ∃ groups : List (List Buffer), groups.flatten = packed ++ datagrams ∧
      writeBatches capacity (packed.flatMap writeDatagramCapsule) datagrams =
        some (groups.map (List.flatMap writeDatagramCapsule)) := by
  induction datagrams generalizing packed with
  | nil => exact ⟨[packed], by simp, rfl⟩
  | cons datagram rest ih =>
    obtain ⟨first, others⟩ := forall_mem_cons.mp fits
    unfold writeBatches
    split
    · obtain ⟨groups, all, writes⟩ := ih others [datagram]
      rw [flatMap_singleton] at writes
      rw [extendCapsules_eq first, Option.bind_eq_bind, Option.bind_some, nil_append, writes]
      exact ⟨packed :: groups, congrArg (packed ++ ·) all, rfl⟩
    · rename_i room
      obtain ⟨groups, all, writes⟩ := ih others (packed ++ [datagram])
      rw [flatMap_append, flatMap_singleton] at writes
      rw [extendCapsules_eq (Nat.not_lt.mp room), Option.bind_eq_bind, Option.bind_some, writes]
      exact ⟨groups, all.trans (append_assoc _ _ _), rfl⟩

/-- Capsules that each fit the largest buffer are written without a panic, as if one by
one: the writes hold the same bytes, and each holds whole capsules. -/
theorem batches_equal_singles {maxPooledBufferSize : Nat}
    (fits : ∀ datagram ∈ datagrams,
      (writeDatagramCapsule datagram).length ≤ maxPooledBufferSize) :
    ∃ (writes : List Bytes) (groups : List (List Buffer)),
      writeDatagramCapsules maxPooledBufferSize datagrams = some writes ∧
      writes.flatten = datagrams.flatMap writeDatagramCapsule ∧
      groups.flatten = datagrams ∧ writes = groups.map (List.flatMap writeDatagramCapsule) := by
  obtain ⟨groups, all, writes⟩ : ∃ groups : List (List Buffer), groups.flatten = datagrams ∧
      writeDatagramCapsules maxPooledBufferSize datagrams =
        some (groups.map (flatMap writeDatagramCapsule)) := by
    unfold writeDatagramCapsules
    split
    · rename_i datagram
      exact ⟨[[datagram]], rfl, by simp⟩
    · refine writeBatches_groups (fun datagram member => ?_) []
      rw [Nat.le_min, ← writeDatagramCapsule_length]
      exact ⟨writeDatagramCapsule_length datagram ▸ capsuleLength_le_total member,
        fits datagram member⟩
  refine ⟨_, groups, writes, ?_, all, rfl⟩
  rw [← all, flatMap_def, map_flatten, flatten_flatten, map_map]
  rfl

/-- Three datagrams with room for two capsules. -/
theorem batches_of_two : ∃ writes groups,
    writeDatagramCapsules 8 [⟨0, [1, 2]⟩, ⟨9, []⟩, ⟨0, [3, 4, 5]⟩] = some writes ∧
      writes.flatten = [0, 2, 1, 2, 0, 0, 0, 3, 3, 4, 5] ∧
      List.flatten groups = ([⟨0, [1, 2]⟩, ⟨9, []⟩, ⟨0, [3, 4, 5]⟩] : List Buffer) ∧
      writes = groups.map (List.flatMap writeDatagramCapsule) :=
  batches_equal_singles (by decide)

end Batches

end AmneziaBox.Guarantees.CapsuleStream
