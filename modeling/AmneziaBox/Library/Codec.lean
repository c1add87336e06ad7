import Mathlib.Data.List.Forall2
import Mathlib.Tactic.Ring

/-!
# Reading back what was written

A reader takes a value from the front of a byte string and leaves the rest. It reads
bytes back as a value if it does so whatever follows them. Such facts compose along
the reader's own structure, so a format is proved part by part.

Numbers are written with a fixed width, most significant byte first, or as the
variable-length numbers of Go's `encoding/binary`, seven bits to a byte and at most
ten bytes.
-/
namespace AmneziaBox.Library
open List

abbrev Byte := BitVec 8
abbrev Bytes := List Byte

/-- How a computation ends without a value: its caller gets an error, or it panics. -/
inductive Failure where
  | error (text : String)
  | panic
  deriving DecidableEq, Repr

instance : Coe String Failure := ⟨.error⟩

abbrev Reader := StateT Bytes (Except Failure)

variable {α β : Type}

/-- A result that takes nothing from the input. -/
def ofExcept (result : Except String α) : Reader α := fun input =>
  match result with
  | .ok value => .ok (value, input)
  | .error err => .error (.error err)

/-- The reader takes exactly these bytes, whatever follows them. -/
def Reads (reader : Reader α) (bytes : Bytes) (value : α) : Prop :=
  ∀ rest, reader (bytes ++ rest) = .ok (value, rest)

theorem Reads.pure (value : α) : Reads (pure value) [] value := fun _ => rfl

variable {reader : Reader α} {bytes : Bytes} {value : α}

theorem Reads.bind_eq (reads : Reads reader bytes value) (next : α → Reader β) (rest : Bytes) :
    (reader >>= next) (bytes ++ rest) = next value rest := by
  change (reader (bytes ++ rest) >>= fun read => next read.1 read.2) = _
  rw [reads rest]
  rfl

variable {next : α → Reader β} {result : β}

theorem Reads.bind {more : Bytes} (first : Reads reader bytes value)
    (second : Reads (next value) more result) : Reads (reader >>= next) (bytes ++ more) result := by
  intro rest
  rw [append_assoc, first.bind_eq]
  exact second rest

/-- What follows the reader takes no more bytes. -/
theorem Reads.bind_nil (first : Reads reader bytes value) (second : Reads (next value) [] result) :
    Reads (reader >>= next) bytes result := by
  have both := first.bind second
  rwa [append_nil] at both

theorem Reads.map (change : α → β) (reads : Reads reader bytes value) :
    Reads (reader >>= fun read => Pure.pure (change read)) bytes (change value) :=
  reads.bind_nil (Reads.pure (change value))

def readByte : Reader Byte
  | [] => .error "EOF"
  | byte :: rest => .ok (byte, rest)

theorem reads_byte (byte : Byte) : Reads readByte [byte] byte := fun _ => rfl

/-- `io.ReadFull` into a buffer of the given size. -/
def readFull (size : Nat) : Reader Bytes := fun input =>
  if size ≤ input.length then .ok (input.take size, input.drop size)
  else if input.isEmpty then .error "EOF" else .error "unexpected EOF"

theorem reads_full (bytes : Bytes) : Reads (readFull bytes.length) bytes bytes := by
  intro rest
  unfold readFull
  rw [if_pos (by simp)]
  simp

theorem reads_full_of_length {size : Nat} (length : bytes.length = size) :
    Reads (readFull size) bytes bytes :=
  length ▸ reads_full bytes

/-! ## Repetition -/

def readTimes : Nat → Reader α → Reader (List α)
  | 0, _ => pure []
  | count + 1, reader => do
    let value ← reader
    let values ← readTimes count reader
    pure (value :: values)

theorem reads_times {parts : List Bytes} {values : List α}
    (reads : List.Forall₂ (Reads reader) parts values) :
    Reads (readTimes values.length reader) parts.flatten values := by
  induction reads with
  | nil => exact Reads.pure []
  | cons first _ ih => exact first.bind (ih.map (cons _))

theorem reads_times_map {write : β → Bytes} {value : β → α} {items : List β}
    (reads : ∀ item ∈ items, Reads reader (write item) (value item)) :
    Reads (readTimes items.length reader) (items.flatMap write) (items.map value) := by
  have each : List.Forall₂ (Reads reader) (items.map write) (items.map value) := by
    rw [forall₂_map_left_iff, forall₂_map_right_iff]
    exact forall₂_same.mpr reads
  have read := reads_times each
  rwa [length_map] at read

/-! ## Numbers of a fixed width -/

/-- The last bytes of a number, as many as the width. -/
def bigEndian : Nat → Nat → Bytes
  | 0, _ => []
  | width + 1, value => BitVec.ofNat 8 (value / 256 ^ width) :: bigEndian width value

def ofBigEndian : Bytes → Nat
  | [] => 0
  | byte :: rest => byte.toNat * 256 ^ rest.length + ofBigEndian rest

@[simp] theorem bigEndian_length (width value : Nat) : (bigEndian width value).length = width := by
  induction width with
  | zero => rfl
  | succ width ih => rw [bigEndian, length_cons, ih]

theorem bigEndian_append (high low value : Nat) :
    bigEndian (high + low) value = bigEndian high (value / 256 ^ low) ++ bigEndian low value := by
  induction high with
  | zero => simp [bigEndian]
  | succ high ih =>
    rw [Nat.add_right_comm, bigEndian, bigEndian, ih, Nat.div_div_eq_div_mul, ← Nat.pow_add,
      Nat.add_comm low high, cons_append]

theorem ofBigEndian_bigEndian (width value : Nat) :
    ofBigEndian (bigEndian width value) = value % 256 ^ width := by
  induction width with
  | zero => simp [bigEndian, ofBigEndian, Nat.mod_one]
  | succ width ih =>
    have whole : value % (256 ^ width * 256) =
        value % 256 ^ width + 256 ^ width * (value / 256 ^ width % 256) := Nat.mod_mul
    have byte : (BitVec.ofNat 8 (value / 256 ^ width)).toNat = value / 256 ^ width % 256 :=
      BitVec.toNat_ofNat _ _
    rw [bigEndian, ofBigEndian, bigEndian_length, ih, byte, Nat.pow_succ, whole]
    ring

theorem bigEndian_add_mul (width value high : Nat) :
    bigEndian width (value + high * 256 ^ width) = bigEndian width value := by
  induction width generalizing high with
  | zero => rfl
  | succ width ih =>
    have split : value + high * 256 ^ (width + 1) = value + high * 256 * 256 ^ width := by
      rw [Nat.pow_succ]
      ring
    have byte : BitVec.ofNat 8 (value / 256 ^ width + high * 256) =
        BitVec.ofNat 8 (value / 256 ^ width) := by
      apply BitVec.eq_of_toNat_eq
      rw [BitVec.toNat_ofNat, BitVec.toNat_ofNat]
      omega
    rw [bigEndian, bigEndian, split, ih, Nat.add_mul_div_right _ _ (Nat.pow_pos (by omega)), byte]

theorem ofBigEndian_lt (bytes : Bytes) : ofBigEndian bytes < 256 ^ bytes.length := by
  induction bytes with
  | nil => simp [ofBigEndian]
  | cons byte rest ih =>
    have small : byte.toNat + 1 ≤ 256 := byte.isLt
    calc ofBigEndian (byte :: rest) < byte.toNat * 256 ^ rest.length + 256 ^ rest.length := by
          rw [ofBigEndian]
          omega
      _ = (byte.toNat + 1) * 256 ^ rest.length := by ring
      _ ≤ 256 * 256 ^ rest.length := Nat.mul_le_mul_right _ small
      _ = 256 ^ (byte :: rest).length := by rw [length_cons, Nat.pow_succ, Nat.mul_comm]

def readBigEndian (width : Nat) : Reader Nat := do
  let bytes ← readFull width
  pure (ofBigEndian bytes)

theorem reads_bigEndian {width value : Nat} (fits : value < 256 ^ width) :
    Reads (readBigEndian width) (bigEndian width value) value := by
  have read := (reads_full (bigEndian width value)).map ofBigEndian
  rw [bigEndian_length, ofBigEndian_bigEndian, Nat.mod_eq_of_lt fits] at read
  exact read

/-- The order of the bytes of a number in memory. -/
inductive Endian where
  | big | little
  deriving DecidableEq, Repr

namespace Endian

def put (endian : Endian) (width value : Nat) : Bytes :=
  match endian with
  | .big => bigEndian width value
  | .little => (bigEndian width value).reverse

def get (endian : Endian) (bytes : Bytes) : Nat :=
  match endian with
  | .big => ofBigEndian bytes
  | .little => ofBigEndian bytes.reverse

@[simp] theorem put_length (endian : Endian) (width value : Nat) :
    (endian.put width value).length = width := by
  cases endian <;> simp [put]

theorem get_put (endian : Endian) {width value : Nat} (fits : value < 256 ^ width) :
    endian.get (endian.put width value) = value := by
  cases endian with
  | big => exact (ofBigEndian_bigEndian width value).trans (Nat.mod_eq_of_lt fits)
  | little =>
    rw [put, get, reverse_reverse, ofBigEndian_bigEndian, Nat.mod_eq_of_lt fits]

end Endian

/-! ## Numbers of variable length -/

/-- Seven bits to a byte, least significant first, with a bound on the bytes before the
last one. -/
def writeUvarintUpTo : Nat → Nat → Bytes
  | 0, value => [BitVec.ofNat 8 value]
  | more + 1, value =>
    if value < 128 then [BitVec.ofNat 8 value]
    else BitVec.ofNat 8 (value % 128 + 128) :: writeUvarintUpTo more (value / 128)

/-- `binary.PutUvarint` of an `uint64`. -/
def writeUvarint (value : Nat) : Bytes := writeUvarintUpTo 9 value

def overflow : String := "binary: varint overflows a 64-bit integer"

def readUvarintUpTo : Nat → Reader Nat
  | 0 => throw (Failure.error overflow)
  | more + 1 => do
    let byte ← readByte
    if byte.toNat < 128 then
      if more = 0 ∧ 1 < byte.toNat then throw (Failure.error overflow) else pure byte.toNat
    else
      let high ← readUvarintUpTo more
      pure (byte.toNat - 128 + 128 * high)

/-- `binary.ReadUvarint`. -/
def readUvarint : Reader Nat := readUvarintUpTo 10

theorem reads_uvarint_last {more value : Nat} (small : value < 128)
    (fits : more = 0 → value < 2) :
    Reads (readUvarintUpTo (more + 1)) [BitVec.ofNat 8 value] value := by
  intro rest
  have byte : (BitVec.ofNat 8 value).toNat = value := by
    rw [BitVec.toNat_ofNat]
    omega
  change (if (BitVec.ofNat 8 value).toNat < 128 then _ else _ : Reader Nat) rest = _
  rw [byte, if_pos small, if_neg (by omega)]
  rfl

theorem reads_uvarintUpTo {more value : Nat} (fits : value < 2 * 128 ^ more) :
    Reads (readUvarintUpTo (more + 1)) (writeUvarintUpTo more value) value := by
  induction more generalizing value with
  | zero => exact reads_uvarint_last (by omega) (by omega)
  | succ more ih =>
    unfold writeUvarintUpTo
    split
    · rename_i small
      exact reads_uvarint_last small (by omega)
    · rename_i large
      have less : value / 128 < 2 * 128 ^ more := by
        rw [Nat.pow_succ] at fits
        omega
      have byte : (BitVec.ofNat 8 (value % 128 + 128)).toNat = value % 128 + 128 := by
        rw [BitVec.toNat_ofNat]
        omega
      have again : value % 128 + 128 - 128 + 128 * (value / 128) = value := by omega
      have read := (ih less).map fun high => value % 128 + 128 - 128 + 128 * high
      rw [again] at read
      refine (reads_byte (BitVec.ofNat 8 (value % 128 + 128))).bind ?_
      rw [byte]
      exact read

theorem reads_uvarint {value : Nat} (fits : value < 2 ^ 64) :
    Reads readUvarint (writeUvarint value) value :=
  reads_uvarintUpTo (by omega)

/-! ## What a reader can give -/

/-- Whatever the reader gives satisfies the condition. -/
def Yields (reader : Reader α) (holds : α → Prop) : Prop :=
  ∀ input value rest, reader input = .ok (value, rest) → holds value

variable {holds : α → Prop}

theorem Yields.pure (holding : holds value) : Yields (pure value) holds := by
  intro input other rest done
  cases done
  exact holding

theorem Yields.throw {err : Failure} : Yields (throw err) holds := by
  intro input value rest done
  cases done

section
variable {ε : Type} {first : Except ε α}

theorem except_bind_ok {next : α → Except ε β} (done : first >>= next = .ok result) :
    ∃ value, first = .ok value ∧ next value = .ok result := by
  cases first with
  | error err => cases done
  | ok value => exact ⟨value, rfl, done⟩

theorem except_map_ok {change : α → β} (done : first.map change = .ok result) :
    ∃ value, first = .ok value ∧ change value = result :=
  (except_bind_ok done).imp fun _ both => ⟨both.1, Except.ok.inj both.2⟩

end

theorem bind_ok {input rest : Bytes} (done : (reader >>= next) input = .ok (result, rest)) :
    ∃ value middle, reader input = .ok (value, middle) ∧ next value middle = .ok (result, rest) := by
  obtain ⟨⟨value, middle⟩, first, others⟩ := except_bind_ok done
  exact ⟨value, middle, first, others⟩

theorem Yields.bind {wanted : β → Prop} (first : Yields reader holds)
    (second : ∀ value, holds value → Yields (next value) wanted) :
    Yields (reader >>= next) wanted := by
  intro input result rest done
  obtain ⟨value, middle, read, others⟩ := bind_ok done
  exact second value (first input value middle read) middle result rest others

theorem Yields.map {change : α → β} {wanted : β → Prop} (first : Yields reader holds)
    (second : ∀ value, holds value → wanted (change value)) :
    Yields (reader >>= fun read => Pure.pure (change read)) wanted :=
  first.bind fun value holding => Yields.pure (second value holding)

theorem yields_any (reader : Reader α) : Yields reader fun _ => True :=
  fun _ _ _ _ => trivial

theorem yields_full (size : Nat) : Yields (readFull size) fun bytes => bytes.length = size := by
  intro input bytes rest done
  unfold readFull at done
  split at done
  · rename_i enough
    cases done
    rw [length_take, Nat.min_eq_left enough]
  · split at done <;> cases done

theorem yields_bigEndian (width : Nat) :
    Yields (readBigEndian width) fun value => value < 256 ^ width :=
  (yields_full width).map fun bytes length => length ▸ ofBigEndian_lt bytes

theorem yields_times (each : Yields reader holds) (count : Nat) :
    Yields (readTimes count reader) fun values =>
      values.length = count ∧ ∀ value ∈ values, holds value := by
  induction count with
  | zero => exact Yields.pure ⟨rfl, nofun⟩
  | succ count ih =>
    refine each.bind fun value holding => ih.map fun values others => ?_
    exact ⟨congrArg (· + 1) others.1, forall_mem_cons.mpr ⟨holding, others.2⟩⟩

theorem yields_uvarintUpTo (more : Nat) :
    Yields (readUvarintUpTo (more + 1)) fun value => value < 2 * 128 ^ more := by
  induction more with
  | zero =>
    refine (yields_any readByte).bind fun byte _ => ?_
    split
    · split
      · exact Yields.throw
      · exact Yields.pure (by omega)
    · have never : Yields (readUvarintUpTo 0) fun _ => False := Yields.throw
      exact never.bind nofun
  | succ more ih =>
    have power : 128 ^ (more + 1) = 128 ^ more * 128 := Nat.pow_succ _ _
    have positive : 0 < 128 ^ more := Nat.pow_pos (by omega)
    refine (yields_any readByte).bind fun byte _ => ?_
    split
    · rw [if_neg (by omega)]
      exact Yields.pure (by omega)
    · have small := byte.isLt
      exact ih.map fun high bound => by omega

theorem yields_uvarint : Yields readUvarint fun value => value < 2 ^ 64 := by
  intro input value rest done
  have bound := yields_uvarintUpTo 9 input value rest done
  omega

/-! ## Readers that do not panic -/

def Safe (reader : Reader α) : Prop := ∀ input, reader input ≠ .error .panic

/-- A sequence panics in its first reader or in what follows it. -/
theorem panics_bind {input : Bytes} : (reader >>= next) input = .error .panic ↔
    reader input = .error .panic ∨
      ∃ value rest, reader input = .ok (value, rest) ∧ next value rest = .error .panic := by
  change (reader input >>= fun read => next read.1 read.2) = _ ↔ _
  cases reader input with
  | error err => simp [bind, Except.bind]
  | ok read =>
    obtain ⟨value, rest⟩ := read
    simp [bind, Except.bind]

theorem panics_bind_safe (safe : ∀ value, Safe (next value)) {input : Bytes} :
    (reader >>= next) input = .error .panic ↔ reader input = .error .panic := by
  rw [panics_bind, or_iff_left]
  rintro ⟨value, rest, -, there⟩
  exact safe value rest there

theorem Safe.bind (first : Safe reader) (second : ∀ value, Safe (next value)) :
    Safe (reader >>= next) := by
  intro input panicked
  exact first input ((panics_bind_safe second).mp panicked)

theorem safe_pure (value : α) : Safe (Pure.pure value) := fun _ => nofun

theorem safe_error (text : String) : Safe (throw (Failure.error text) : Reader α) := fun _ => nofun

theorem safe_ofExcept (result : Except String α) : Safe (ofExcept result) := by
  intro input
  cases result <;> exact nofun

theorem safe_byte : Safe readByte := by
  intro input
  cases input <;> exact nofun

theorem safe_full (size : Nat) : Safe (readFull size) := by
  intro input
  unfold readFull
  split
  · exact nofun
  · split <;> exact nofun

theorem safe_bigEndian (width : Nat) : Safe (readBigEndian width) :=
  (safe_full width).bind fun _ => safe_pure _

theorem safe_times (safe : Safe reader) (count : Nat) : Safe (readTimes count reader) := by
  induction count with
  | zero => exact safe_pure []
  | succ count ih => exact safe.bind fun _ => ih.bind fun _ => safe_pure _

theorem safe_uvarint : Safe readUvarint := by
  unfold readUvarint
  generalize 10 = bytes
  induction bytes with
  | zero => exact safe_error overflow
  | succ more ih =>
    refine safe_byte.bind fun byte => ?_
    split
    · split
      · exact safe_error overflow
      · exact safe_pure _
    · exact ih.bind fun _ => safe_pure _

end AmneziaBox.Library
