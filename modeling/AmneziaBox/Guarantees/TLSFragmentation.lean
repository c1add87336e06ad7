import Mathlib.Logic.Relation
import AmneziaBox.Source.TLSFragment.Conn

/-!
# Fragmentation preserves the handshake

The parser gives the position of the server name in the write itself, each cut lies
strictly inside a label, and cuts in order divide the write into non-empty pieces. So the
pieces are the write again, as they are or as records.

A name for which the public suffix list has no answer is cut in all of its labels. The
list has none for a name that ends with a dot, whose last label is empty: the draw in it
panics. In a write of more than one record the parser's step over an extension may wrap: it
stays at one of 65532 bytes for ever, and behind a longer one the name need not be where its
index has it.
-/
namespace AmneziaBox.Guarantees.TLSFragmentation
open Source.TLSFragment Library List Option

/-- A check of the parser that was passed. -/
theorem ite_absent_eq_ok {check : Prop} [Decidable check] {found : Except NoName MyServerName}
    {name : MyServerName} :
    (if check then .error .absent else found) = .ok name ↔ ¬check ∧ found = .ok name := by
  by_cases passed : check <;> simp [passed]

/-! ## The position of the server name -/

/-- The name is found in the bytes at the offset. -/
def FoundAt (bytes : Bytes) (offset : Nat) (serverName : Bytes) : Prop :=
  ∃ before after, bytes = before ++ (serverName ++ after) ∧ before.length = offset

variable {bytes : Bytes}

theorem FoundAt.drop {serverName : Bytes} {count offset : Nat} (enough : count ≤ bytes.length)
    (found : FoundAt (bytes.drop count) offset serverName) :
    FoundAt bytes (offset + count) serverName := by
  obtain ⟨before, after, split, length⟩ := found
  refine ⟨bytes.take count ++ before, after, ?_, ?_⟩
  · rw [append_assoc, ← split, take_append_drop]
  · rw [length_append, length_take, Nat.min_eq_left enough, length, Nat.add_comm]

theorem FoundAt.bound {serverName : Bytes} {offset : Nat}
    (found : FoundAt bytes offset serverName) : offset + serverName.length ≤ bytes.length := by
  obtain ⟨before, after, rfl, rfl⟩ := found
  simp only [length_append]
  omega

theorem uint16At_lt (index : Nat) (bytes : Bytes) : uint16At index bytes < 2 ^ 16 := by
  have high := (byteAt index bytes).isLt
  have low := (byteAt (index + 1) bytes).isLt
  unfold uint16At
  omega

/-- The loop goes from an extension, which is whole and not the server name, to what is left
behind it. -/
def Passes (now next : Bytes) : Prop :=
  4 + uint16At 2 now ≤ now.length ∧ uint16At 0 now ≠ sniExtensionType ∧
    next = now.drop ((4 + uint16At 2 now) % 2 ^ 16)

/-- No step of the loop wraps. -/
def Unwrapped (exs : Bytes) : Prop :=
  ∀ now next, Relation.ReflTransGen Passes exs now → Passes now next → 4 + uint16At 2 now < 2 ^ 16

theorem Unwrapped.of_length {exs : Bytes} (short : exs.length < 2 ^ 16) : Unwrapped exs := by
  intro now next reached passes
  have shorter : now.length ≤ exs.length := by
    clear passes
    induction reached with
    | refl => exact Nat.le_refl _
    | tail _ passed ih =>
      obtain ⟨-, -, rfl⟩ := passed
      rw [length_drop]
      omega
  have whole := passes.1
  omega

variable {currentIndex : Nat} {name : MyServerName}

theorem scanExtensions_passes {now next : Bytes} (passes : Passes now next) (rounds : Nat) :
    scanExtensions (rounds + 1) currentIndex now =
      scanExtensions rounds (currentIndex + (4 + uint16At 2 now)) next := by
  obtain ⟨whole, other, rfl⟩ := passes
  have nonempty : now.isEmpty = false := by
    cases now with
    | nil => simp at whole
    | cons => rfl
  simp only [scanExtensions, nonempty, extensionHeaderLen, if_neg other, Bool.false_eq_true, if_false]
  rw [if_neg (by omega), if_neg (by omega)]

/-- At an extension of 65532 bytes the loop stays. -/
def Stays (exs : Bytes) : Prop :=
  ∃ now next, Relation.ReflTransGen Passes exs now ∧ Passes now next ∧ uint16At 2 now = 65532

/-- Such a loop never ends. -/
theorem scanExtensions_stays {exs : Bytes} (stays : Stays exs) (rounds : Nat) :
    scanExtensions rounds currentIndex exs = .error .looping := by
  induction rounds generalizing currentIndex exs with
  | zero => rfl
  | succ rounds ih =>
    obtain ⟨now, next, reached, passes, length⟩ := stays
    obtain rfl | ⟨mid, passed, onward⟩ := reached.cases_head
    · have same : next = exs := by
        rw [passes.2.2, length]
        rfl
      subst same
      rw [scanExtensions_passes passes]
      exact ih ⟨next, next, .refl, passes, length⟩
    · rw [scanExtensions_passes passed]
      exact ih ⟨now, next, onward, passes, length⟩

/-- And no other does so. -/
theorem stays_of_looping {rounds : Nat} {exs : Bytes} (enough : exs.length < rounds)
    (loops : scanExtensions rounds currentIndex exs = .error .looping) : Stays exs := by
  induction rounds generalizing currentIndex exs with
  | zero => omega
  | succ rounds ih =>
    simp only [scanExtensions] at loops
    split at loops
    · cases loops
    split at loops
    · cases loops
    split at loops
    · cases loops
    · rename_i nonempty header whole
      simp only [extensionHeaderLen] at header whole
      split at loops
      · split at loops
        · cases loops
        · split at loops <;> cases loops
      · rename_i other
        have passes : Passes exs _ := ⟨by omega, other, rfl⟩
        by_cases stands : uint16At 2 exs = 65532
        · exact ⟨exs, _, .refl, passes, stands⟩
        · have small := uint16At_lt 2 exs
          have shorter : (exs.drop ((4 + uint16At 2 exs) % 2 ^ 16)).length < rounds := by
            rw [length_drop]
            omega
          obtain ⟨now, next, reached, onward⟩ := ih shorter loops
          exact ⟨now, next, .head passes reached, onward⟩

/-- Where no step wraps, the name is where the index has it. -/
theorem scanExtensions_found {rounds : Nat} {exs : Bytes} (unwrapped : Unwrapped exs)
    (scanned : scanExtensions rounds currentIndex exs = .ok name) :
    ∃ offset, name.index = currentIndex + offset ∧ FoundAt exs offset name.serverName := by
  induction rounds generalizing currentIndex exs with
  | zero => cases scanned
  | succ rounds ih =>
    simp only [scanExtensions, ite_absent_eq_ok] at scanned
    obtain ⟨-, -, enough, scanned⟩ := scanned
    unfold extensionHeaderLen at enough
    split at scanned
    · rw [ite_absent_eq_ok, ite_absent_eq_ok] at scanned
      obtain ⟨header, -, scanned⟩ := scanned
      cases scanned
      refine ⟨9, rfl, ?_⟩
      unfold extensionHeaderLen sniExtensionHeaderLen at header
      rw [length_take] at header
      have inner : FoundAt (exs.drop 9) 0 (((exs.drop 4).take (uint16At 2 exs)).drop 5) := by
        refine ⟨[], exs.drop (4 + uint16At 2 exs), ?_, rfl⟩
        rw [drop_take, drop_drop, nil_append]
        have rest : exs.drop (4 + uint16At 2 exs) = (exs.drop (4 + 5)).drop (uint16At 2 exs - 5) := by
          rw [drop_drop]
          congr 1
          omega
        rw [rest, take_append_drop]
      have whole := inner.drop (by omega)
      rwa [Nat.zero_add] at whole
    · rename_i other
      have passes : Passes exs _ := ⟨by omega, other, rfl⟩
      obtain ⟨offset, index, found⟩ := ih
        (fun now next reached => unwrapped now next (.head passes reached)) scanned
      rw [Nat.mod_eq_of_lt (unwrapped exs _ .refl passes)] at found
      refine ⟨offset + (4 + uint16At 2 exs), ?_, found.drop (by omega)⟩
      rw [index]
      omega

theorem extensionsIndex_some {handshake : Bytes} {index : Nat}
    (parsed : extensionsIndex handshake = some index) : 0 < index := by
  simp only [extensionsIndex, ite_none_left_eq_some] at parsed
  obtain ⟨-, -, -, -, -, -, -, -, parsed⟩ := parsed
  cases parsed
  have header : 0 < handshakeHeaderLen := by decide
  omega

/-- Where the parser comes to the extensions of a write: at the length of their list. -/
def extensionsAt (b : Bytes) : Option Nat :=
  if b.length < recordLayerHeaderLen ∨ byteAt 0 b ≠ contentType then none
  else if b.length < recordLayerHeaderLen + uint16At 3 b then none
  else
    match extensionsIndex (b.drop recordLayerHeaderLen) with
    | none => none
    | some index =>
      if b.length < 5 + index + 2 then none
      else if b.length < 5 + index + 2 + uint16At 0 (b.drop (5 + index)) then none
      else some (5 + index)

variable {b : Bytes} {index : Nat}

theorem extensionsAt_some (at_ : extensionsAt b = some index) :
    5 < index ∧ index + 2 ≤ b.length := by
  unfold extensionsAt at at_
  rw [ite_none_left_eq_some, ite_none_left_eq_some] at at_
  obtain ⟨-, -, at_⟩ := at_
  cases parsed : extensionsIndex (b.drop recordLayerHeaderLen) with
  | none => simp [parsed] at at_
  | some inner =>
    have positive := extensionsIndex_some parsed
    rw [parsed] at at_
    simp only [ite_none_left_eq_some, some.injEq] at at_
    omega

/-- The parser is its loop over the extensions, once it comes to them. -/
theorem indexTLSServerName_eq (b : Bytes) :
    indexTLSServerName b =
      match extensionsAt b with
      | none => .error .absent
      | some index =>
        (scanExtensions (b.length - index) 2 (b.drop (index + 2))).map fun name =>
          { name with index := name.index + index, extensionsListLengthIndex := index } := by
  unfold indexTLSServerName extensionsAt
  by_cases header : b.length < recordLayerHeaderLen ∨ byteAt 0 b ≠ contentType
  · rw [if_pos header, if_pos header]
  by_cases segment : b.length < recordLayerHeaderLen + uint16At 3 b
  · rw [if_neg header, if_pos segment, if_neg header, if_pos segment]
  rw [if_neg header, if_neg segment, if_neg header, if_neg segment]
  unfold indexTLSServerNameFromHandshake
  cases extensionsIndex (b.drop recordLayerHeaderLen) with
  | none => rfl
  | some inner =>
    simp only [indexTLSServerNameFromExtensions, recordLayerHeaderLen, extensionsHeaderLen, drop_drop,
      length_drop]
    by_cases short : b.length < 5 + inner + 2
    · rw [if_pos short, if_pos (by omega)]
      rfl
    by_cases list : b.length < 5 + inner + 2 + uint16At 0 (b.drop (5 + inner))
    · rw [if_neg short, if_pos list, if_neg (by omega), if_pos (by omega)]
      rfl
    rw [if_neg short, if_neg list, if_neg (by omega), if_neg (by omega)]
    dsimp only
    cases scanExtensions (b.length - (5 + inner)) 2 (b.drop (5 + inner + 2)) with
    | error => rfl
    | ok name => simp [Except.map, Nat.add_comm 5 inner, Nat.add_assoc]

theorem serverName_inner (found : indexTLSServerName b = .ok name) :
    ∃ inner, scanExtensions (b.length - name.extensionsListLengthIndex) 2
        (b.drop (name.extensionsListLengthIndex + 2)) = .ok inner ∧
      name.serverName = inner.serverName ∧
      name.index = inner.index + name.extensionsListLengthIndex ∧
      5 < name.extensionsListLengthIndex ∧ name.extensionsListLengthIndex + 2 ≤ b.length := by
  rw [indexTLSServerName_eq] at found
  cases at_ : extensionsAt b with
  | none => simp [at_] at found
  | some index =>
    rw [at_] at found
    dsimp only at found
    cases scanned : scanExtensions (b.length - index) 2 (b.drop (index + 2)) with
    | error => simp [scanned, Except.map] at found
    | ok inner =>
      rw [scanned] at found
      cases found
      exact ⟨inner, scanned, rfl, rfl, extensionsAt_some at_⟩

/-- The parser does not end exactly if its loop stays. -/
theorem serverName_looping_iff : indexTLSServerName b = .error .looping ↔
    ∃ index ∈ extensionsAt b, Stays (b.drop (index + 2)) := by
  rw [indexTLSServerName_eq]
  cases at_ : extensionsAt b with
  | none => simp
  | some index =>
    have inside := extensionsAt_some at_
    dsimp only
    constructor
    · intro loops
      refine ⟨index, rfl, ?_⟩
      cases scanned : scanExtensions (b.length - index) 2 (b.drop (index + 2)) with
      | ok inner => simp [scanned, Except.map] at loops
      | error reason =>
        rw [scanned] at loops
        cases loops
        exact stays_of_looping (by rw [length_drop]; omega) scanned
    · rintro ⟨_, same, stays⟩
      cases same
      rw [scanExtensions_stays stays]
      rfl

theorem not_stays_of_found (found : indexTLSServerName b = .ok name) :
    ∀ index ∈ extensionsAt b, ¬ Stays (b.drop (index + 2)) := by
  intro index here stays
  have loops := serverName_looping_iff.mpr ⟨index, here, stays⟩
  rw [found] at loops
  cases loops

/-- Where no step wraps, the name is where the index has it, behind the record's header. -/
theorem serverName_found (found : indexTLSServerName b = .ok name)
    (unwrapped : Unwrapped (b.drop (name.extensionsListLengthIndex + 2))) :
    FoundAt b name.index name.serverName := by
  obtain ⟨inner, scanned, same, index, -, inside⟩ := serverName_inner found
  obtain ⟨offset, shift, here⟩ := scanExtensions_found unwrapped scanned
  have whole := here.drop inside
  rw [same, index, shift]
  rwa [show 2 + offset + name.extensionsListLengthIndex =
    offset + (name.extensionsListLengthIndex + 2) by omega]

theorem header_lt_index (found : indexTLSServerName b = .ok name) : 5 < name.index := by
  obtain ⟨inner, -, -, index, header, -⟩ := serverName_inner found
  omega

/-- A write of one record is too short for a step to wrap. -/
theorem unwrapped_of_record (one : b.length = 5 + uint16At 3 b)
    (found : indexTLSServerName b = .ok name) :
    Unwrapped (b.drop (name.extensionsListLengthIndex + 2)) := by
  obtain ⟨-, -, -, -, header, -⟩ := serverName_inner found
  have small := uint16At_lt 3 b
  refine .of_length ?_
  rw [length_drop]
  omega

/-! ## Cuts inside the labels -/

/-- Indexes in order, strictly between the bounds. -/
def Cuts (low high : Nat) : List Nat → Prop
  | [] => low < high
  | index :: rest => low < index ∧ Cuts index high rest

variable {low high : Nat} {indexes : List Nat}

theorem cuts_lt (cuts : Cuts low high indexes) : low < high := by
  induction indexes generalizing low with
  | nil => exact cuts
  | cons index rest ih => exact Nat.lt_trans cuts.1 (ih cuts.2)

/-- The length of labels with the dots between them. -/
def span : List Bytes → Nat
  | [] => 0
  | [label] => label.length
  | label :: next :: rest => label.length + 1 + span (next :: rest)

variable {draw : Nat → Nat} {splits : List Bytes} {i : Nat}

theorem splitIndexes_cuts (drawn : splitIndexes draw i currentIndex splits = some indexes)
    (present : splits ≠ []) (after : low < currentIndex)
    (inside : currentIndex + span splits ≤ high) : Cuts low high indexes := by
  induction splits generalizing i currentIndex low indexes with
  | nil => exact absurd rfl present
  | cons label rest ih =>
    unfold splitIndexes at drawn
    split at drawn
    · cases drawn
    rename_i nonempty
    obtain ⟨later, more, made⟩ := bind_eq_some_iff.mp drawn
    cases made
    have within : draw i % label.length < label.length := Nat.mod_lt _ (by omega)
    refine ⟨by omega, ?_⟩
    cases rest with
    | nil =>
      cases more
      change _ < high
      rw [span] at inside
      omega
    | cons next others =>
      rw [span] at inside
      rw [isEmpty_cons, if_neg Bool.false_ne_true] at more
      exact ih more nofun (by omega) (by omega)

theorem splitIndexes_length (drawn : splitIndexes draw i currentIndex splits = some indexes) :
    indexes.length = splits.length := by
  induction splits generalizing i currentIndex indexes with
  | nil =>
    cases drawn
    rfl
  | cons label rest ih =>
    unfold splitIndexes at drawn
    split at drawn
    · cases drawn
    obtain ⟨later, more, made⟩ := bind_eq_some_iff.mp drawn
    cases made
    exact congrArg (· + 1) (ih more)

/-- The draws panic in an empty label, and only there. -/
theorem splitIndexes_some_iff :
    (∃ indexes, splitIndexes draw i currentIndex splits = some indexes) ↔ [] ∉ splits := by
  induction splits generalizing i currentIndex with
  | nil => exact ⟨fun _ => not_mem_nil, fun _ => ⟨[], rfl⟩⟩
  | cons label rest ih =>
    unfold splitIndexes
    rw [mem_cons, not_or]
    by_cases empty : label.length = 0
    · rw [if_pos empty]
      refine ⟨nofun, fun absent => absurd (length_eq_zero_iff.mp empty).symm absent.1⟩
    · rw [if_neg empty]
      constructor
      · rintro ⟨indexes, drawn⟩
        obtain ⟨later, more, -⟩ := bind_eq_some_iff.mp drawn
        refine ⟨fun same => empty (by rw [← same]; rfl), ih.mp ⟨later, more⟩⟩
      · rintro ⟨-, absent⟩
        obtain ⟨later, more⟩ := ih.mpr absent
        exact ⟨_, bind_eq_some_iff.mpr ⟨later, more, rfl⟩⟩

theorem splitDots_cons (name : Bytes) : ∃ first more, splitDots name = first :: more := by
  cases name with
  | nil => exact ⟨_, _, rfl⟩
  | cons byte rest =>
    unfold splitDots
    split
    · exact ⟨_, _, rfl⟩
    · split <;> exact ⟨_, _, rfl⟩

theorem splitDots_length (name : Bytes) : (splitDots name).length = name.count dot + 1 := by
  induction name with
  | nil => rfl
  | cons byte rest ih =>
    unfold splitDots
    by_cases dotted : byte = dot
    · rw [if_pos dotted, dotted, length_cons, ih, count_cons_self]
    · rw [if_neg dotted, count_cons_of_ne dotted]
      obtain ⟨first, more, splits⟩ := splitDots_cons rest
      rw [splits] at ih ⊢
      exact ih

theorem span_cons_cons (byte : Byte) (first : Bytes) (more : List Bytes) :
    span ((byte :: first) :: more) = span (first :: more) + 1 := by
  cases more with
  | nil => rfl
  | cons next rest =>
    rw [span, span, length_cons]
    omega

theorem span_splitDots (name : Bytes) : span (splitDots name) = name.length := by
  induction name with
  | nil => rfl
  | cons byte rest ih =>
    unfold splitDots
    obtain ⟨first, more, splits⟩ := splitDots_cons rest
    rw [splits] at ih ⊢
    split
    · rw [span, length_cons, length_nil]
      omega
    · rw [span_cons_cons, ih, length_cons]

variable (publicSuffix : Bytes → Bytes)

/-- Only the first label is cut of a name that has a public suffix. -/
theorem labels_eq (name : Bytes) :
    labels publicSuffix name =
      if publicSuffix name ≠ [] then (splitDots name).take 1 else splitDots name := by
  unfold labels
  dsimp only
  rw [splitDots_length, Nat.add_sub_cancel_left]

theorem dot_not_mem_splitDots {name label : Bytes} (member : label ∈ splitDots name) :
    dot ∉ label := by
  induction name generalizing label with
  | nil =>
    cases mem_singleton.mp member
    exact not_mem_nil
  | cons byte rest ih =>
    unfold splitDots at member
    split at member
    · obtain rfl | later := mem_cons.mp member
      · exact not_mem_nil
      · exact ih later
    · rename_i other
      obtain ⟨first, more, splits⟩ := splitDots_cons rest
      rw [splits] at member ih
      obtain rfl | later := mem_cons.mp member
      · rw [mem_cons, not_or]
        exact ⟨Ne.symm other, ih mem_cons_self⟩
      · exact ih (mem_cons_of_mem _ later)

/-! ## Pieces -/

theorem slice_eq (ordered : low ≤ high) (inside : high ≤ bytes.length) :
    slice bytes low high = some ((bytes.drop low).take (high - low)) :=
  if_pos ⟨ordered, inside⟩

/-- Cuts in order divide the bytes behind the first one into pieces. They have bytes unless the
last cut is at the end. -/
theorem laterPayloads_eq (cuts : Cuts low (b.length + 1) indexes) :
    ∃ pieces : List Bytes, laterPayloads b low indexes = pieces.map some ∧ pieces.flatten = b.drop low ∧
      (Cuts low b.length indexes → ∀ piece ∈ pieces, piece ≠ []) := by
  induction indexes generalizing low with
  | nil =>
    have inside : low < b.length + 1 := cuts
    refine ⟨[b.drop low], ?_, append_nil _, ?_⟩
    · rw [laterPayloads, slice_eq (by omega) (Nat.le_refl _), ← length_drop, take_length]
      rfl
    · intro within piece member
      have within : low < b.length := within
      cases mem_singleton.mp member
      rw [ne_eq, drop_eq_nil_iff]
      omega
  | cons index rest ih =>
    obtain ⟨before, onward⟩ := cuts
    obtain ⟨pieces, rounds, whole, nonempty⟩ := ih onward
    have inside : index ≤ b.length := Nat.le_of_lt_succ (cuts_lt onward)
    refine ⟨(b.drop low).take (index - low) :: pieces, ?_, ?_, ?_⟩
    · rw [laterPayloads, slice_eq (by omega) inside, rounds, map_cons]
    · have behind : b.drop index = (b.drop low).drop (index - low) := by
        rw [drop_drop]
        congr 1
        omega
      rw [flatten_cons, whole, behind, take_append_drop]
    · refine fun within => forall_mem_cons.mpr ⟨?_, nonempty within.2⟩
      rw [ne_eq, ← length_eq_zero_iff, length_take, length_drop]
      omega

theorem payloads_eq (splitRecord : Bool) (present : indexes ≠ [])
    (cuts : Cuts 5 (b.length + 1) indexes) :
    ∃ pieces : List Bytes, payloads splitRecord b indexes = pieces.map some ∧
      pieces.flatten = (if splitRecord then b.drop 5 else b) ∧
      (Cuts 5 b.length indexes → ∀ piece ∈ pieces, piece ≠ []) := by
  cases indexes with
  | nil => exact absurd rfl present
  | cons index rest =>
    obtain ⟨header, onward⟩ := cuts
    obtain ⟨pieces, rounds, whole, nonempty⟩ := laterPayloads_eq onward
    have inside : index ≤ b.length := Nat.le_of_lt_succ (cuts_lt onward)
    have first : slice b 0 index = some (b.take index) := by
      rw [slice_eq (Nat.zero_le _) inside, drop_zero, Nat.sub_zero]
    have length : (b.take index).length = index := length_take_of_le inside
    cases splitRecord with
    | false =>
      refine ⟨b.take index :: pieces, ?_, ?_,
        fun within => forall_mem_cons.mpr ⟨?_, nonempty within.2⟩⟩
      · rw [payloads, first, rounds]
        rfl
      · rw [flatten_cons, whole, take_append_drop]
        rfl
      · rw [ne_eq, ← length_eq_zero_iff]
        omega
    | true =>
      refine ⟨(b.take index).drop 5 :: pieces, ?_, ?_,
        fun within => forall_mem_cons.mpr ⟨?_, nonempty within.2⟩⟩
      · have second : slice (b.take index) recordLayerHeaderLen (b.take index).length =
            some ((b.take index).drop 5) := by
          rw [slice_eq (by rw [recordLayerHeaderLen]; omega) (Nat.le_refl _),
            ← length_drop, take_length]
          rfl
        rw [payloads, first, rounds]
        exact congrArg (· :: _) second
      · have split : b.drop 5 = (b.take index).drop 5 ++ b.drop index := by
          conv_lhs => rw [← take_append_drop index b]
          rw [drop_append_of_le_length (by omega)]
        rw [flatten_cons, whole, if_pos rfl, split]
      · rw [ne_eq, ← length_eq_zero_iff, length_drop]
        omega

/-! ## Writing the pieces -/

/-- Writes that do not fail. -/
def accepts : Nat → Option String := fun _ => none

variable {conn : Conn}

theorem writePayloads_packets (packets : conn.splitPacket = true) (b : Bytes) (pieces : List Bytes)
    (buffer : Bytes) (segments : List Bytes) :
    ∃ final, writePayloads conn accepts b (pieces.map some) buffer segments =
      (final, segments ++ pieces.map (fun piece =>
        if conn.splitRecord then record b piece else piece), none) := by
  induction pieces generalizing buffer segments with
  | nil => exact ⟨buffer, by rw [map_nil, map_nil, append_nil]; rfl⟩
  | cons piece rest ih =>
    rw [map_cons, writePayloads, packets]
    obtain ⟨final, later⟩ := ih _ _
    refine ⟨final, ?_⟩
    rw [later, append_assoc]
    cases conn.splitRecord <;> rfl

theorem writePayloads_whole (packets : conn.splitPacket = false) (send : Nat → Option String)
    (b : Bytes) (pieces : List Bytes) (buffer : Bytes) (segments : List Bytes) :
    writePayloads conn send b (pieces.map some) buffer segments =
      (buffer ++ if conn.splitRecord then pieces.flatMap (record b) else [], segments, none) := by
  induction pieces generalizing buffer with
  | nil => cases conn.splitRecord <;> simp [writePayloads]
  | cons piece rest ih =>
    rw [map_cons, writePayloads, packets, ih]
    cases conn.splitRecord <;> simp

/-! ## Records -/

/-- A TLS record: type and version, the length of the payload, the payload. -/
def readRecord : Reader (Bytes × Bytes) := do
  let header ← readFull 3
  let length ← readBigEndian 2
  let payload ← readFull length
  pure (header, payload)

theorem reads_record {payload : Bytes} (header : 3 ≤ b.length) (short : payload.length < 2 ^ 16) :
    Reads readRecord (record b payload) (b.take 3, payload) := by
  have first := reads_full (b.take 3)
  rw [length_take_of_le header] at first
  exact first.bind ((reads_bigEndian short).bind ((reads_full payload).map (Prod.mk (b.take 3))))

/-! ## The whole write -/

/-- The bytes are records of the type and version of the first write, with these payloads. -/
def AreRecords (b bytes : Bytes) (pieces : List Bytes) : Prop :=
  readTimes pieces.length readRecord bytes = .ok (pieces.map (Prod.mk (b.take 3)), [])

/-- The handshake arrives as it was written, and later writes are left alone. -/
structure Preserved (conn : Conn) (b : Bytes) (done : Written) : Prop where
  returned : done.outcome = .returned b.length
  packets : conn.splitRecord = false → done.segments.flatten = b
  records : conn.splitRecord = true → ∃ pieces : List Bytes, (∀ piece ∈ pieces, piece ≠ []) ∧
    pieces.flatten = b.drop 5 ∧ AreRecords b done.segments.flatten pieces ∧
      (conn.splitPacket = true → List.Forall₂ (fun segment piece => AreRecords b segment [piece])
        done.segments pieces)
  later : ∀ send publicSuffix draw next,
    write done.conn send publicSuffix draw next = passThrough done.conn send next

theorem mem_splitDots_of_mem_labels {publicSuffix : Bytes → Bytes} {name label : Bytes}
    (member : label ∈ labels publicSuffix name) : label ∈ splitDots name := by
  rw [labels_eq] at member
  split at member
  · exact mem_of_mem_take member
  · exact member

theorem labels_ne_nil (name : Bytes) :
    labels publicSuffix name ≠ [] := by
  rw [labels_eq]
  obtain ⟨first, more, splits⟩ := splitDots_cons name
  rw [splits]
  split <;> exact nofun

theorem span_labels_le (name : Bytes) :
    span (labels publicSuffix name) ≤ name.length := by
  have whole := span_splitDots name
  rw [labels_eq]
  split
  · cases splits : splitDots name with
    | nil => exact Nat.zero_le _
    | cons first rest =>
      rw [splits] at whole
      rw [← whole, take_succ_cons, take_zero]
      cases rest with
      | nil => exact Nat.le_refl _
      | cons next others =>
        rw [span, span]
        omega
  · exact Nat.le_of_eq whole

/-- A label is never `...`, so nothing is skipped. -/
theorem allIndexes_eq (draw : Nat → Nat) (name : MyServerName) :
    allIndexes publicSuffix draw name =
      splitIndexes draw 0 name.index (labels publicSuffix name.serverName) := by
  unfold allIndexes
  rw [if_neg]
  rintro ⟨-, dots⟩
  cases splits : labels publicSuffix name.serverName with
  | nil => exact labels_ne_nil _ _ splits
  | cons first rest =>
    rw [splits] at dots
    have member : first ∈ labels publicSuffix name.serverName := by
      rw [splits]
      exact mem_cons_self
    refine dot_not_mem_splitDots (mem_splitDots_of_mem_labels member) ?_
    rw [show first = [dot, dot, dot] from dots]
    exact mem_cons_self

section First
variable {conn : Conn} {b : Bytes} {name : MyServerName} {publicSuffix : Bytes → Bytes}
  {draw : Nat → Nat}

/-- The first write of a handshake, up to the draws. -/
theorem write_first (fresh : conn.firstPacketWritten = false)
    (found : indexTLSServerName b = .ok name) (send : Nat → Option String) :
    write conn send publicSuffix draw b =
      match splitIndexes draw 0 name.index (labels publicSuffix name.serverName) with
      | none => ⟨{ conn with firstPacketWritten := true }, [], .panicked⟩
      | some indexes => writeFragments conn send b indexes := by
  have nonempty : 0 < b.length := by
    cases b with
    | nil => cases found
    | cons byte rest => exact Nat.zero_lt_succ _
  rw [← allIndexes_eq]
  cases indexes : allIndexes publicSuffix draw name <;>
    simp [write, fresh, nonempty, found, indexes]

theorem write_later {conn : Conn} (written : conn.firstPacketWritten = true)
    (send : Nat → Option String) (next : Bytes) :
    write conn send publicSuffix draw next = passThrough conn send next := by
  unfold write
  rw [written]
  rfl

variable {pieces : List Bytes}

theorem areRecords (one : b.length = 5 + uint16At 3 b) (whole : pieces.flatten = b.drop 5) :
    AreRecords b (pieces.flatMap (record b)) pieces ∧
      List.Forall₂ (fun segment piece => AreRecords b segment [piece]) (pieces.map (record b))
        pieces := by
  have small := uint16At_lt 3 b
  have each : ∀ piece ∈ pieces, Reads readRecord (record b piece) (b.take 3, piece) := by
    intro piece member
    have length := (sublist_flatten_of_mem member).length_le
    rw [whole, length_drop] at length
    exact reads_record (by omega) (by omega)
  constructor
  · have all := reads_times_map each []
    rwa [append_nil] at all
  · rw [forall₂_map_left_iff, forall₂_same]
    intro piece member
    have single := reads_times_map (fun other (here : other ∈ [piece]) => by
      cases mem_singleton.mp here
      exact each piece member) []
    rw [append_nil, flatMap_cons, flatMap_nil, append_nil] at single
    exact single

/-- What the rounds write of non-empty pieces. -/
theorem writeFragments_eq {indexes : List Nat}
    (rounds : payloads conn.splitRecord b indexes = pieces.map some) :
    writeFragments conn accepts b indexes = ⟨{ conn with firstPacketWritten := true },
      if conn.splitPacket then
        pieces.map fun piece => if conn.splitRecord then record b piece else piece
      else if conn.splitRecord then [pieces.flatMap (record b)] else [],
      .returned b.length⟩ := by
  unfold writeFragments
  rw [rounds]
  cases packets : conn.splitPacket with
  | true =>
    obtain ⟨final, written⟩ := writePayloads_packets packets b pieces [] []
    rw [written]
    rw [Bool.not_true, Bool.and_false]
    rfl
  | false =>
    rw [writePayloads_whole packets]
    cases conn.splitRecord <;> rfl

variable (draw) in
/-- Where every label that is cut has a byte and none is far behind the write, the write is cut
into its pieces. -/
theorem write_pieces (fresh : conn.firstPacketWritten = false)
    (found : indexTLSServerName b = .ok name) (send : Nat → Option String)
    (nonempty : [] ∉ labels publicSuffix name.serverName)
    (inside : name.index + span (labels publicSuffix name.serverName) ≤ b.length + 1) :
    ∃ indexes, ∃ pieces : List Bytes,
      write conn send publicSuffix draw b = writeFragments conn send b indexes ∧
      payloads conn.splitRecord b indexes = pieces.map some ∧
      pieces.flatten = (if conn.splitRecord then b.drop 5 else b) ∧
      (name.index + span (labels publicSuffix name.serverName) ≤ b.length →
        ∀ piece ∈ pieces, piece ≠ []) := by
  have header := header_lt_index found
  obtain ⟨indexes, drawn⟩ := splitIndexes_some_iff.mpr nonempty
  have present : indexes ≠ [] := by
    rintro rfl
    exact labels_ne_nil _ _ (length_eq_zero_iff.mp (splitIndexes_length drawn).symm)
  obtain ⟨pieces, rounds, whole, filled⟩ := payloads_eq conn.splitRecord present
    (splitIndexes_cuts drawn (labels_ne_nil _ _) header inside)
  refine ⟨indexes, pieces, ?_, rounds, whole, fun within => ?_⟩
  · rw [write_first fresh found, drawn]
  · exact filled (splitIndexes_cuts drawn (labels_ne_nil _ _) header within)

variable (publicSuffix) in
/-- The labels of a name in one record end inside of it. -/
theorem labels_inside (one : b.length = 5 + uint16At 3 b) (found : indexTLSServerName b = .ok name) :
    name.index + span (labels publicSuffix name.serverName) ≤ b.length := by
  have bound := (serverName_found found (unwrapped_of_record one found)).bound
  have length := span_labels_le publicSuffix name.serverName
  omega

/-- With something to cut, the pieces are the handshake again. -/
theorem preserved (fresh : conn.firstPacketWritten = false) (one : b.length = 5 + uint16At 3 b)
    (found : indexTLSServerName b = .ok name)
    (enabled : conn.splitPacket = true ∨ conn.splitRecord = true)
    (nonempty : [] ∉ labels publicSuffix name.serverName) :
    Preserved conn b (write conn accepts publicSuffix draw b) := by
  have inside := labels_inside publicSuffix one found
  obtain ⟨indexes, pieces, wrote, rounds, whole, filled⟩ :=
    write_pieces draw fresh found accepts nonempty (Nat.le_succ_of_le inside)
  rw [wrote, writeFragments_eq rounds]
  refine ⟨rfl, ?_, ?_, fun send publicSuffix draw next => write_later rfl send next⟩
  · intro records
    rw [records] at whole enabled ⊢
    rw [enabled.resolve_right Bool.false_ne_true]
    simpa using whole
  · intro records
    rw [records] at whole
    obtain ⟨all, each⟩ := areRecords one whole
    refine ⟨pieces, filled inside, whole, ?_, ?_⟩
    · cases packets : conn.splitPacket with
      | true =>
        simp only [records, if_true, ← flatMap_def]
        exact all
      | false =>
        simp only [records, if_true, Bool.false_eq_true, if_false, flatten_cons,
          flatten_nil, append_nil]
        exact all
    · intro packets
      simp only [packets, records, if_true]
      exact each

/-- The handshake arrives exactly if something is cut, and only in labels with a byte. -/
theorem preserved_iff (fresh : conn.firstPacketWritten = false) (one : b.length = 5 + uint16At 3 b)
    (found : indexTLSServerName b = .ok name)
    (first : (splitDots name.serverName).head? ≠ some []) :
    Preserved conn b (write conn accepts publicSuffix draw b) ↔
      (conn.splitPacket = true ∨ conn.splitRecord = true) ∧
        (publicSuffix name.serverName ≠ [] ∨ [] ∉ splitDots name.serverName) := by
  have cut : [] ∉ labels publicSuffix name.serverName ↔
      publicSuffix name.serverName ≠ [] ∨ [] ∉ splitDots name.serverName := by
    rw [labels_eq]
    by_cases suffix : publicSuffix name.serverName = []
    · rw [if_neg (not_not.mpr suffix)]
      exact ⟨.inr, fun either => either.resolve_left (not_not.mpr suffix)⟩
    · rw [if_pos suffix]
      refine ⟨fun _ => .inl suffix, fun _ member => first ?_⟩
      obtain ⟨label, more, splits⟩ := splitDots_cons name.serverName
      rw [splits, take_succ_cons, take_zero, mem_singleton] at member
      rw [splits, ← member]
      rfl
  rw [← cut]
  constructor
  · intro done
    have nonempty : [] ∉ labels publicSuffix name.serverName := by
      intro member
      have returned := done.returned
      rw [write_first fresh found] at returned
      cases drawn : splitIndexes draw 0 name.index (labels publicSuffix name.serverName) with
      | none =>
        rw [drawn] at returned
        cases returned
      | some indexes => exact splitIndexes_some_iff.mp ⟨indexes, drawn⟩ member
    refine ⟨?_, nonempty⟩
    by_contra neither
    rw [not_or, Bool.not_eq_true, Bool.not_eq_true] at neither
    obtain ⟨indexes, pieces, wrote, rounds, -, -⟩ := write_pieces draw fresh found accepts nonempty
      (Nat.le_succ_of_le (labels_inside publicSuffix one found))
    have lost := done.packets neither.2
    rw [wrote, writeFragments_eq rounds, neither.1, neither.2] at lost
    have empty : b = [] := lost.symm
    rw [empty, length_nil] at one
    omega
  · rintro ⟨enabled, nonempty⟩
    exact preserved fresh one found enabled nonempty

/-! ## Panics -/

/-- The write returns, perhaps with an error of the connection. -/
def Ended : Outcome → Prop
  | .panicked | .looping => False
  | .failed _ | .returned _ => True

theorem writePayloads_ends (send : Nat → Option String) (pieces : List Bytes)
    (buffer : Bytes) (segments : List Bytes) :
    (writePayloads conn send b (pieces.map some) buffer segments).2.2 = none ∨
      ∃ err, (writePayloads conn send b (pieces.map some) buffer segments).2.2 =
        some (.failed err) := by
  induction pieces generalizing buffer segments with
  | nil => exact .inl rfl
  | cons piece rest ih =>
    rw [map_cons, writePayloads]
    split
    · split
      · exact .inr ⟨_, rfl⟩
      · exact ih _ _
    · exact ih _ _

theorem writeFragments_ends {indexes : List Nat} (send : Nat → Option String)
    (rounds : payloads conn.splitRecord b indexes = pieces.map some) :
    Ended (writeFragments conn send b indexes).outcome := by
  have ended := @writePayloads_ends conn b send pieces [] []
  unfold writeFragments
  rw [rounds]
  generalize writePayloads conn send b (pieces.map some) [] [] = written at ended ⊢
  obtain ⟨buffer, segments, outcome⟩ := written
  obtain rfl | ⟨err, rfl⟩ := ended
  · dsimp only
    split
    · split <;> trivial
    · trivial
  · trivial

/-- A payload outside of the write makes the rounds panic, if no write fails before. -/
theorem writePayloads_panics {rounds : List (Option Bytes)} (outside : none ∈ rounds)
    (buffer : Bytes) (segments : List Bytes) :
    (writePayloads conn accepts b rounds buffer segments).2.2 = some .panicked := by
  induction rounds generalizing buffer segments with
  | nil => cases outside
  | cons payload rest ih =>
    cases payload with
    | none => rfl
    | some payload =>
      have later : none ∈ rest := (mem_cons.mp outside).resolve_left nofun
      rw [writePayloads]
      split
      · exact ih later _ _
      · exact ih later _ _

theorem writeFragments_panics {indexes : List Nat}
    (outside : none ∈ payloads conn.splitRecord b indexes) :
    (writeFragments conn accepts b indexes).outcome = .panicked := by
  have ended := @writePayloads_panics conn b _ outside [] []
  unfold writeFragments
  generalize writePayloads conn accepts b (payloads conn.splitRecord b indexes) [] [] = written at ended
  obtain ⟨buffer, segments, outcome⟩ := written
  cases ended
  rfl

theorem laterPayloads_outside {index low : Nat} {indexes : List Nat} (member : index ∈ indexes)
    (behind : b.length < index) : none ∈ laterPayloads b low indexes := by
  induction indexes generalizing low with
  | nil => cases member
  | cons first rest ih =>
    rw [laterPayloads]
    obtain rfl | later := mem_cons.mp member
    · exact mem_cons.mpr (.inl (if_neg (by omega)).symm)
    · exact mem_cons_of_mem _ (ih later)

theorem payloads_outside {index : Nat} {indexes : List Nat} (splitRecord : Bool)
    (member : index ∈ indexes) (behind : b.length < index) :
    none ∈ payloads splitRecord b indexes := by
  cases indexes with
  | nil => cases member
  | cons first rest =>
    obtain rfl | later := mem_cons.mp member
    · have panics : slice b 0 index = none := if_neg (by omega)
      exact mem_cons.mpr (.inl (by rw [panics]; rfl))
    · exact mem_cons_of_mem _ (laterPayloads_outside later behind)

/-- Drawn to their ends, the last cut is before the end of the labels. -/
theorem splitIndexes_last {splits : List Bytes} {i currentIndex : Nat}
    (present : splits ≠ []) (nonempty : [] ∉ splits) (draw : Nat → Nat)
    (ends : ∀ j, draw (i + j) = (splits.getD j []).length - 1) {indexes : List Nat}
    (drawn : splitIndexes draw i currentIndex splits = some indexes) :
    ∃ index ∈ indexes, index + 1 = currentIndex + span splits := by
  induction splits generalizing i currentIndex indexes with
  | nil => exact absurd rfl present
  | cons label rest ih =>
    unfold splitIndexes at drawn
    split at drawn
    · cases drawn
    rename_i filled
    obtain ⟨later, more, made⟩ := bind_eq_some_iff.mp drawn
    cases made
    cases rest with
    | nil =>
      have last : draw i % label.length = label.length - 1 := by
        rw [show draw i = label.length - 1 from ends 0, Nat.mod_eq_of_lt (by omega)]
      exact ⟨_, mem_cons_self, by rw [last, span]; omega⟩
    | cons next others =>
      rw [isEmpty_cons, if_neg Bool.false_ne_true] at more
      have onward : ∀ j, draw (i + 1 + j) = ((next :: others).getD j []).length - 1 := by
        intro j
        rw [Nat.add_right_comm]
        exact ends (j + 1)
      obtain ⟨index, member, last⟩ :=
        ih nofun (fun empty => nonempty (mem_cons_of_mem _ empty)) onward more
      refine ⟨index, mem_cons_of_mem _ member, ?_⟩
      rw [last, span]
      omega

variable (conn publicSuffix) in
/-- Drawn to their ends, labels that end further behind the write lead out of it. -/
theorem write_outside_panics (fresh : conn.firstPacketWritten = false)
    (found : indexTLSServerName b = .ok name) (nonempty : [] ∉ labels publicSuffix name.serverName)
    (outside : b.length + 1 < name.index + span (labels publicSuffix name.serverName)) :
    ∃ draw, (write conn accepts publicSuffix draw b).outcome = .panicked := by
  let draw := fun i => ((labels publicSuffix name.serverName).getD i []).length - 1
  obtain ⟨indexes, drawn⟩ := splitIndexes_some_iff.mpr nonempty
  obtain ⟨index, member, last⟩ := splitIndexes_last (labels_ne_nil publicSuffix name.serverName)
    nonempty draw (fun j => by rw [Nat.zero_add]) drawn
  refine ⟨draw, ?_⟩
  rw [write_first fresh found, drawn]
  exact writeFragments_panics (payloads_outside conn.splitRecord member (by omega))

theorem write_empty_panics (fresh : conn.firstPacketWritten = false)
    (found : indexTLSServerName b = .ok name) (empty : [] ∈ labels publicSuffix name.serverName)
    (send : Nat → Option String) : (write conn send publicSuffix draw b).outcome = .panicked := by
  rw [write_first fresh found]
  cases drawn : splitIndexes draw 0 name.index (labels publicSuffix name.serverName) with
  | none => rfl
  | some indexes => exact absurd empty (splitIndexes_some_iff.mp ⟨indexes, drawn⟩)

/-- The loop over the extensions does not stay at one of 65532 bytes. If there is a name, each
label that is cut has a byte, and they end in the write or one byte behind it, as they always do
where no step has wrapped. -/
structure Harmless (publicSuffix : Bytes → Bytes) (b : Bytes) : Prop where
  returns : ∀ index ∈ extensionsAt b, ¬ Stays (b.drop (index + 2))
  nonempty : ∀ name, indexTLSServerName b = .ok name → [] ∉ labels publicSuffix name.serverName
  inside : ∀ name, indexTLSServerName b = .ok name →
    name.index + span (labels publicSuffix name.serverName) ≤ b.length + 1

/-- The first write returns without a panic, whatever is drawn and whichever write fails, and
forwards what it does not cut, exactly if it is harmless. -/
theorem write_returns_iff (fresh : conn.firstPacketWritten = false) :
    (∀ send draw, Ended (write conn send publicSuffix draw b).outcome ∧
      (indexTLSServerName b = .error .absent → send 0 = none →
        (write conn send publicSuffix draw b).segments = [b] ∧
        (write conn send publicSuffix draw b).outcome = .returned b.length)) ↔
      Harmless publicSuffix b := by
  cases found : indexTLSServerName b with
  | error reason =>
    cases reason with
    | looping =>
      obtain ⟨index, here, stays⟩ := serverName_looping_iff.mp found
      refine iff_of_false (fun all => ?_) fun harmless => harmless.returns index here stays
      have nonempty : b ≠ [] := by rintro rfl; cases found
      have ended := (all accepts id).1
      simp [write, fresh, found, length_pos_iff.mpr nonempty, Ended] at ended
    | absent =>
      refine iff_of_true (fun send draw => ?_) ⟨fun index here stays => ?_, ?_, ?_⟩
      · have plain : (write conn send publicSuffix draw b).segments =
              (passThrough conn send b).segments ∧
            (write conn send publicSuffix draw b).outcome = (passThrough conn send b).outcome := by
          unfold write
          split
          · rw [found]
            exact ⟨rfl, rfl⟩
          · exact ⟨rfl, rfl⟩
        rw [plain.1, plain.2, passThrough]
        cases send 0 <;> simp [Ended]
      · have loops := serverName_looping_iff.mpr ⟨index, here, stays⟩
        rw [found] at loops
        cases loops
      · exact fun name other => nomatch found.symm.trans other
      · exact fun name other => nomatch found.symm.trans other
  | ok name =>
    constructor
    · intro all
      have nonempty : [] ∉ labels publicSuffix name.serverName := by
        intro empty
        have ended := (all accepts id).1
        rwa [write_empty_panics fresh found empty] at ended
      refine ⟨not_stays_of_found found, fun other same => ?_, fun other same => ?_⟩
      · cases found.symm.trans same
        exact nonempty
      · cases found.symm.trans same
        by_contra outside
        obtain ⟨draw, panics⟩ := write_outside_panics conn publicSuffix fresh found nonempty (by omega)
        have ended := (all accepts draw).1
        rwa [panics] at ended
    · intro harmless send draw
      obtain ⟨indexes, pieces, wrote, rounds, -, -⟩ := write_pieces draw fresh found send
        (harmless.nonempty name found) (harmless.inside name found)
      rw [wrote]
      exact ⟨writeFragments_ends send rounds, nofun⟩

end First

/-! ## Two names -/

/-- A ClientHello with one cipher suite and the name as its only extension, in one record. -/
def clientHello (name : Bytes) : Bytes :=
  [22, 3, 1] ++ bigEndian 2 (56 + name.length) ++ [1] ++ bigEndian 3 (52 + name.length) ++ [3, 3] ++
    List.replicate 32 0 ++ [0, 0, 2, 19, 1, 1, 0] ++ bigEndian 2 (9 + name.length) ++ [0, 0] ++
    bigEndian 2 (5 + name.length) ++ bigEndian 2 (3 + name.length) ++ [0] ++
    bigEndian 2 name.length ++ name

/-- The answer of the public suffix list where none of its rules matches. -/
def lastLabel (name : Bytes) : Bytes := (splitDots name).getLastD []

/-- The name `a.b`, cut into packets of one record each. -/
theorem preserved_two_labels : Preserved ⟨false, true, true⟩ (clientHello [97, 46, 98])
    (write ⟨false, true, true⟩ accepts lastLabel id (clientHello [97, 46, 98])) :=
  (preserved_iff rfl (by decide +kernel) (show indexTLSServerName (clientHello [97, 46, 98]) =
    .ok ⟨61, 3, [97, 46, 98], 50⟩ by decide +kernel) (by decide)).mpr
    ⟨.inl rfl, .inl (by decide)⟩

/-- The name `a.`: its first label has a byte, its last one has none. -/
theorem trailing_dot_panics :
    (clientHello [97, 46]).length = 5 + uint16At 3 (clientHello [97, 46]) ∧
      indexTLSServerName (clientHello [97, 46]) = .ok ⟨61, 2, [97, 46], 50⟩ ∧
      splitDots [97, 46] = [[97], []] ∧
      write ⟨false, true, true⟩ accepts lastLabel id (clientHello [97, 46]) =
        ⟨⟨true, true, true⟩, [], .panicked⟩ := by
  decide +kernel

theorem harmless_two_labels : Harmless lastLabel (clientHello [97, 46, 98]) := by
  have found : indexTLSServerName (clientHello [97, 46, 98]) =
    .ok ⟨61, 3, [97, 46, 98], 50⟩ := by decide +kernel
  refine ⟨not_stays_of_found found, fun name same => ?_, fun name same => ?_⟩
  · cases found.symm.trans same
    decide
  · cases found.symm.trans same
    decide +kernel

/-- The name `a.b`, cut into records. -/
theorem two_labels_not_panicked :
    Ended (write ⟨false, false, true⟩ accepts lastLabel id (clientHello [97, 46, 98])).outcome :=
  ((write_returns_iff rfl).mpr harmless_two_labels accepts id).1

/-- The empty name, and a name that starts with a dot. -/
theorem empty_label_panics :
    (write ⟨false, true, false⟩ accepts lastLabel id (clientHello [])).outcome = .panicked ∧
      (write ⟨false, false, true⟩ accepts lastLabel id (clientHello [46, 97])).outcome =
        .panicked := by
  decide +kernel

end AmneziaBox.Guarantees.TLSFragmentation
