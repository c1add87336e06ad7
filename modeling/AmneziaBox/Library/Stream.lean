import AmneziaBox.Library.Codec

/-!
# Reading a stream that arrives in pieces

A connection hands over its bytes in pieces of any size. A buffered reader takes from
them what it is asked for, across the cuts, so what it reads depends on the bytes
alone. A reader takes bytes as a value if it does so for every cut of them and whatever
follows; such facts compose as in `Library.Codec`.

A packet buffer keeps unused room in front of its bytes, into which a header can be
written without copying.
-/
namespace AmneziaBox.Library.Stream
open List

abbrev Reader := StateT (List Bytes) (Except String)

variable {α β : Type}

/-- As many of the next bytes as there are, up to the size. -/
def takeBytes : Nat → List Bytes → Bytes × List Bytes
  | _, [] => ([], [])
  | size, piece :: more =>
    if size < piece.length then (piece.take size, piece.drop size :: more)
    else
      let (taken, left) := takeBytes (size - piece.length) more
      (piece ++ taken, left)

variable (size : Nat)

theorem takeBytes_taken (pieces : List Bytes) :
    (takeBytes size pieces).1 = pieces.flatten.take size := by
  induction pieces generalizing size with
  | nil => simp [takeBytes]
  | cons piece more ih =>
    unfold takeBytes
    split
    · rename_i inside
      simp [take_append, Nat.sub_eq_zero_of_le inside.le]
    · rename_i whole
      have all : piece.take size = piece := take_of_length_le (Nat.le_of_not_lt whole)
      simp [ih, take_append, all]

theorem takeBytes_left (pieces : List Bytes) :
    (takeBytes size pieces).2.flatten = pieces.flatten.drop size := by
  induction pieces generalizing size with
  | nil => simp [takeBytes]
  | cons piece more ih =>
    unfold takeBytes
    split
    · rename_i inside
      simp [drop_append, Nat.sub_eq_zero_of_le inside.le]
    · rename_i whole
      have none : piece.drop size = [] := drop_eq_nil_of_le (Nat.le_of_not_lt whole)
      simp [ih, drop_append, none]

/-- `bufio.Reader.ReadByte`. -/
def readByte : Reader Byte := fun pieces =>
  match takeBytes 1 pieces with
  | (byte :: _, left) => .ok (byte, left)
  | ([], _) => .error "EOF"

/-- One `Read` of at most this many bytes: it stops at the end of a piece. Nothing at the end
of the stream. -/
def readOnce (size : Nat) : List Bytes → Option (Bytes × List Bytes)
  | [] => none
  | [] :: more => readOnce size more
  | (byte :: piece) :: more =>
    some ((byte :: piece).take size, (byte :: piece).drop size :: more)

/-- What is read and what is left are the stream. -/
theorem readOnce_flatten {size : Nat} {pieces left : List Bytes} {data : Bytes}
    (read : readOnce size pieces = some (data, left)) : data ++ left.flatten = pieces.flatten := by
  induction pieces with
  | nil => cases read
  | cons piece more ih =>
    cases piece with
    | nil => exact ih read
    | cons =>
      cases read
      rw [flatten_cons, flatten_cons, ← append_assoc, take_append_drop]

/-- `io.ReadFull` into a buffer of the given size. -/
def readFull (size : Nat) : Reader Bytes := fun pieces =>
  let (taken, left) := takeBytes size pieces
  if size ≤ taken.length then .ok (taken, left)
  else if taken.isEmpty then .error "EOF" else .error "unexpected EOF"

/-- `bufio.Reader.Discard`. -/
def discard (size : Nat) : Reader Unit := fun pieces =>
  let (taken, left) := takeBytes size pieces
  if size ≤ taken.length then .ok ((), left) else .error "EOF"

def readTimes : Nat → Reader α → Reader (List α)
  | 0, _ => pure []
  | count + 1, reader => do
    let value ← reader
    let values ← readTimes count reader
    pure (value :: values)

/-- After these bytes, however they are cut and whatever follows, the reader goes on as the
other one does. -/
def Leads (reader : Reader α) (bytes : Bytes) (next : Reader α) : Prop :=
  ∀ pieces rest, pieces.flatten = bytes ++ rest →
    ∃ left, reader pieces = next left ∧ left.flatten = rest

/-- The reader takes exactly these bytes. -/
abbrev Takes (reader : Reader α) (bytes : Bytes) (value : α) : Prop :=
  Leads reader bytes (pure value)

theorem Leads.refl (reader : Reader α) : Leads reader [] reader :=
  fun pieces _ arrived => ⟨pieces, rfl, arrived⟩

variable {reader : Reader α} {bytes : Bytes}

theorem Leads.trans {middle final : Reader α} {more : Bytes} (first : Leads reader bytes middle)
    (second : Leads middle more final) : Leads reader (bytes ++ more) final := by
  intro pieces rest arrived
  rw [append_assoc] at arrived
  obtain ⟨between, done, remains⟩ := first pieces _ arrived
  rw [done]
  exact second between rest remains

variable {next : α → Reader β} {pieces : List Bytes} {value : α}

theorem bind_of_ok {left : List Bytes} (done : reader pieces = .ok (value, left)) :
    (reader >>= next) pieces = next value left := by
  change (reader pieces >>= fun read => next read.1 read.2) = _
  rw [done]
  rfl

theorem bind_of_error {err : String} (failed : reader pieces = .error err) :
    (reader >>= next) pieces = .error err := by
  change (reader pieces >>= fun read => next read.1 read.2) = _
  rw [failed]
  rfl

theorem Takes.leads (takes : Takes reader bytes value) (next : α → Reader β) :
    Leads (reader >>= next) bytes (next value) := by
  intro pieces rest arrived
  obtain ⟨left, done, remains⟩ := takes pieces rest arrived
  exact ⟨left, bind_of_ok done, remains⟩

theorem Takes.bind {more : Bytes} {final : Reader β} (first : Takes reader bytes value)
    (second : Leads (next value) more final) : Leads (reader >>= next) (bytes ++ more) final :=
  (Takes.leads first next).trans second

/-- A first part that takes no bytes. -/
theorem Takes.after_nil {final : Reader β} (first : Takes reader [] value)
    (second : Leads (next value) bytes final) : Leads (reader >>= next) bytes final :=
  Takes.bind first second

theorem Takes.map (change : α → β) (takes : Takes reader bytes value) :
    Takes (reader >>= fun read => pure (change read)) bytes (change value) :=
  Takes.leads takes fun read => pure (change read)

theorem takes_byte (byte : Byte) : Takes readByte [byte] byte := by
  intro pieces rest arrived
  have taken : (takeBytes 1 pieces).1 = [byte] := by rw [takeBytes_taken, arrived]; rfl
  refine ⟨(takeBytes 1 pieces).2, ?_, ?_⟩
  · unfold readByte
    rw [show takeBytes 1 pieces = ([byte], (takeBytes 1 pieces).2) from Prod.ext taken rfl]
    rfl
  · rw [takeBytes_left, arrived]
    rfl

theorem takeBytes_length {rest : Bytes} (arrived : pieces.flatten = bytes ++ rest) :
    takeBytes bytes.length pieces = (bytes, (takeBytes bytes.length pieces).2) := by
  refine Prod.ext ?_ rfl
  rw [takeBytes_taken, arrived, take_left]

theorem takeBytes_rest {rest : Bytes} (arrived : pieces.flatten = bytes ++ rest) :
    (takeBytes bytes.length pieces).2.flatten = rest := by
  rw [takeBytes_left, arrived, drop_left]

theorem takes_full (bytes : Bytes) : Takes (readFull bytes.length) bytes bytes := by
  intro pieces rest arrived
  refine ⟨(takeBytes bytes.length pieces).2, ?_, takeBytes_rest arrived⟩
  unfold readFull
  rw [takeBytes_length arrived]
  exact if_pos (le_refl _)

theorem takes_discard (bytes : Bytes) : Takes (discard bytes.length) bytes () := by
  intro pieces rest arrived
  refine ⟨(takeBytes bytes.length pieces).2, ?_, takeBytes_rest arrived⟩
  unfold discard
  rw [takeBytes_length arrived]
  exact if_pos (le_refl _)

/-- At the end of the stream there is no further byte. -/
theorem readByte_end (ended : pieces.flatten = []) : readByte pieces = .error "EOF" := by
  have taken : (takeBytes 1 pieces).1 = [] := by rw [takeBytes_taken, ended]; rfl
  unfold readByte
  rw [show takeBytes 1 pieces = ([], (takeBytes 1 pieces).2) from Prod.ext taken rfl]

/-! ## Deciding on a part of the stream -/

section Steady
variable {ε : Type} {again : ε → Prop}

/-- What the reader decides on a part of the stream it decides on more of it, however either is
cut; only the errors of the given kind are no decision. -/
structure Steady (again : ε → Prop) (reader : StateT (List Bytes) (Except ε) α) : Prop where
  ok : ∀ {pieces longer rest value left}, longer.flatten = pieces.flatten ++ rest →
    reader pieces = .ok (value, left) →
    ∃ after, reader longer = .ok (value, after) ∧ after.flatten = left.flatten ++ rest
  error : ∀ {pieces longer rest err}, longer.flatten = pieces.flatten ++ rest →
    reader pieces = .error err → ¬ again err → reader longer = .error err

theorem steady_pure (value : α) :
    Steady again (pure value : StateT (List Bytes) (Except ε) α) where
  ok arrived done := by
    cases done
    exact ⟨_, rfl, arrived⟩
  error _ failed := nomatch failed

theorem steady_throw (err : ε) :
    Steady again (throw err : StateT (List Bytes) (Except ε) α) where
  ok _ done := nomatch done
  error _ failed _ := failed

theorem Steady.bind {reader : StateT (List Bytes) (Except ε) α}
    {next : α → StateT (List Bytes) (Except ε) β} (first : Steady again reader)
    (second : ∀ value, Steady again (next value)) : Steady again (reader >>= next) where
  ok {pieces longer _ _ _} arrived done := by
    change (reader pieces >>= fun read => next read.1 read.2) = _ at done
    change ∃ _, (reader longer >>= fun read => next read.1 read.2) = _ ∧ _
    cases read : reader pieces with
    | error err =>
      rw [read] at done
      cases done
    | ok step =>
      rw [read] at done
      obtain ⟨after, same, remains⟩ := first.ok arrived read
      rw [same]
      exact (second step.1).ok remains done
  error {pieces longer _ _} arrived failed decided := by
    change (reader pieces >>= fun read => next read.1 read.2) = _ at failed
    change (reader longer >>= fun read => next read.1 read.2) = _
    cases read : reader pieces with
    | error err =>
      rw [read] at failed
      cases failed
      rw [first.error arrived read decided]
      rfl
    | ok step =>
      rw [read] at failed
      obtain ⟨after, same, remains⟩ := first.ok arrived read
      rw [same]
      exact (second step.1).error remains failed decided

/-- A reader that takes a number of bytes, or has not enough of them. -/
theorem steady_take {reader : Reader α} (value : Bytes → α)
    (takes : ∀ pieces, size ≤ (takeBytes size pieces).1.length →
      reader pieces = .ok (value (takeBytes size pieces).1, (takeBytes size pieces).2))
    (fails : ∀ pieces, (takeBytes size pieces).1.length < size → ∃ err, reader pieces = .error err) :
    Steady (fun _ => True) reader where
  ok {pieces longer rest found left} arrived done := by
    have enough : size ≤ (takeBytes size pieces).1.length := by
      refine Nat.le_of_not_lt fun short => ?_
      obtain ⟨err, failed⟩ := fails pieces short
      cases failed.symm.trans done
    cases (takes pieces enough).symm.trans done
    have inside : size ≤ pieces.flatten.length := by
      rw [takeBytes_taken, length_take] at enough
      omega
    have same : (takeBytes size longer).1 = (takeBytes size pieces).1 := by
      rw [takeBytes_taken, takeBytes_taken, arrived, take_append_of_le_length inside]
    refine ⟨(takeBytes size longer).2, ?_, ?_⟩
    · rw [takes longer (same ▸ enough), same]
    · rw [takeBytes_left, takeBytes_left, arrived, drop_append_of_le_length inside]
  error _ _ decided := absurd trivial decided

theorem steady_byte : Steady (fun _ => True) readByte := by
  refine steady_take 1 (fun taken => taken.headD 0) (fun pieces enough => ?_) fun pieces short => ?_
  · unfold readByte
    split
    · next byte _ left taken => rw [taken]; rfl
    · next taken =>
      rw [taken] at enough
      cases enough
  · unfold readByte
    split
    · next byte more left taken =>
      rw [taken] at short
      exact absurd short (Nat.not_lt.mpr (Nat.succ_pos more.length))
    · exact ⟨_, rfl⟩

theorem steady_full : Steady (fun _ => True) (readFull size) := by
  refine steady_take size id (fun pieces enough => if_pos enough) fun pieces short => ?_
  unfold readFull
  dsimp only
  rw [if_neg (Nat.not_le.mpr short)]
  split
  · exact ⟨_, rfl⟩
  · exact ⟨_, rfl⟩

theorem steady_discard : Steady (fun _ => True) (discard size) :=
  steady_take size (fun _ => ()) (fun _ enough => if_pos enough) fun _ short =>
    ⟨_, if_neg (Nat.not_le.mpr short)⟩

end Steady

/-! ## Packet buffers -/

/-- A packet buffer: the room in front of its bytes, and the bytes. -/
structure Buffer where
  start : Nat
  bytes : Bytes
  deriving DecidableEq, Repr

namespace Buffer

/-- `buf.NewSize` filled from its beginning. -/
def ofBytes (bytes : Bytes) : Buffer := ⟨0, bytes⟩

/-- `ExtendHeader`, with what is written there. -/
def extendHeader (buffer : Buffer) (header : Bytes) : Buffer :=
  ⟨buffer.start - header.length, header ++ buffer.bytes⟩

end Buffer

end AmneziaBox.Library.Stream
