import AmneziaBox.Source.DNS.Client
import Mathlib.Algebra.Ring.Nat
import Mathlib.Data.List.TakeWhile

/-!
# Keys of the persistent DNS cache

The persistent cache finds a response by a name, a type and a text made of the tag, the subnet and
the environment. The text can be taken apart again. What is not in the key is the class of the
question, and the address of a subnet whose number of bits is out of range.
-/
namespace AmneziaBox.Guarantees.PersistentKeys
open Source.Adapter Source.DNS List

/-! ## Numbers -/

def digitValue (char : Char) : Nat := if char.toNat < 58 then char.toNat - 48 else char.toNat - 87

theorem digitValue_digitChar : ∀ digit < 36, digitValue (digitChar digit) = digit := by decide

/-- The number that the digits stand for. -/
def readDigits (base start : Nat) (text : List Char) : Nat :=
  text.foldl (fun number char => number * base + digitValue char) start

/-- What stands between numbers. -/
def marks : List Char := ['.', ':', '/', ' ', '\x00', '\x01']

/-- Digits are none of them. -/
theorem digitChar_unmarked : ∀ digit < 36, digitChar digit ∉ marks := by decide

section
variable {base : Nat} (digits : 1 < base ∧ base ≤ 36)
include digits

theorem readDigits_formatDigits (rounds n : Nat) (done : List Char) (fits : n < base ^ rounds) :
    readDigits base 0 (formatDigits base rounds n done) = readDigits base n done := by
  induction rounds generalizing n done with
  | zero => rw [Nat.lt_one_iff.mp fits]; rfl
  | succ rounds ih =>
    have positive : 0 < base := by omega
    have last := digitValue_digitChar (n % base)
      (Nat.lt_of_lt_of_le (Nat.mod_lt _ positive) digits.2)
    unfold formatDigits
    split
    · next single =>
      have small : n % base = n :=
        Nat.mod_eq_of_lt ((Nat.div_eq_zero_iff.mp single).resolve_left (Nat.ne_of_gt positive))
      rw [readDigits, foldl_cons, last, Nat.zero_mul, Nat.zero_add, small]
      rfl
    · rw [ih _ _ (Nat.div_lt_of_lt_mul (by rwa [← Nat.pow_succ'])), readDigits,
        foldl_cons, last, Nat.div_add_mod' n base]
      rfl

theorem readDigits_formatUint : Function.LeftInverse (readDigits base 0) (formatUint base) :=
  fun n => readDigits_formatDigits digits _ _ _
    (Nat.lt_trans (Nat.lt_succ_self n) (Nat.lt_pow_self digits.1))

theorem map_readDigits (numbers : List Nat) :
    (numbers.map (formatUint base)).map (readDigits base 0) = numbers := by
  rw [map_map, (readDigits_formatUint digits).comp_eq_id, map_id]

theorem formatDigits_unmarked (rounds n : Nat) {done : List Char}
    (before : ∀ char ∈ done, char ∉ marks) :
    ∀ char ∈ formatDigits base rounds n done, char ∉ marks := by
  induction rounds generalizing n done with
  | zero => exact before
  | succ rounds ih =>
    have small := Nat.lt_of_lt_of_le (Nat.mod_lt n (by omega)) digits.2
    have written : ∀ char ∈ digitChar (n % base) :: done, char ∉ marks :=
      forall_mem_cons.mpr ⟨digitChar_unmarked _ small, before⟩
    unfold formatDigits
    split
    · exact written
    · exact ih _ written

theorem formatUint_unmarked (n : Nat) : ∀ char ∈ formatUint base n, char ∉ marks :=
  formatDigits_unmarked digits _ _ (forall_mem_nil _)

theorem formatUint_ne_nil (n : Nat) : formatUint base n ≠ [] := by
  intro none
  -- only zero is read from no digits, and it is written as one
  obtain rfl : 0 = n := by rw [← readDigits_formatUint digits n, none]; rfl
  rw [formatUint, formatDigits, if_pos (Nat.zero_div base)] at none
  cases none

end

/-- The number with these fields. -/
def ofFields (base : Nat) (values : List Nat) : Nat :=
  values.foldl (fun number value => number * base + value) 0

theorem ofFields_fields {base count n : Nat} (fits : n < base ^ count) :
    ofFields base (fields base count n) = n := by
  induction count generalizing n with
  | zero => exact (Nat.lt_one_iff.mp fits).symm
  | succ count ih =>
    rw [Nat.pow_succ'] at fits
    have higher := ih (Nat.div_lt_of_lt_mul fits)
    rw [ofFields] at higher
    rw [ofFields, fields, foldl_append, higher]
    exact Nat.div_add_mod' n base

theorem fields_length (base count n : Nat) : (fields base count n).length = count := by
  induction count generalizing n with
  | zero => rfl
  | succ count ih => rw [fields, length_append, ih]; rfl

/-! ## Marks -/

/-- The marks of a text. -/
def shape (text : List Char) : List Char := text.filter (· ∈ marks)

/-- What stands between its marks. -/
def parts (text : List Char) : List (List Char) := text.splitOnP (· ∈ marks)

section
variable {mark : Char} (isMark : mark ∈ marks)
include isMark

theorem shape_append (text rest : List Char) :
    shape (text ++ mark :: rest) = shape text ++ mark :: shape rest := by
  simp [shape, isMark]

theorem parts_append (text rest : List Char) :
    parts (text ++ mark :: rest) = parts text ++ parts rest :=
  splitOnP_append_cons _ _ (decide_eq_true isMark)

end

section
variable {base : Nat} (digits : 1 < base ∧ base ≤ 36)
include digits

theorem shape_formatUint (n : Nat) : shape (formatUint base n) = [] := by
  refine filter_eq_nil_iff.mpr fun char member => ?_
  simpa using formatUint_unmarked digits n char member

theorem parts_formatUint (n : Nat) : parts (formatUint base n) = [formatUint base n] :=
  splitOnP_eq_singleton fun char member =>
    decide_eq_false (formatUint_unmarked digits n char member)

/-- Numbers with a mark between them. -/
theorem cut_numbers {mark : Char} (isMark : mark ∈ marks) {numbers : List Nat}
    (some_ : numbers ≠ []) :
    let text := [mark].intercalate (numbers.map (formatUint base))
    shape text = replicate (numbers.length - 1) mark ∧
      parts text = numbers.map (formatUint base) := by
  induction numbers with
  | nil => exact absurd rfl some_
  | cons n rest ih =>
    cases rest with
    | nil =>
      rw [map_singleton, intercalate_singleton]
      exact ⟨shape_formatUint digits n, parts_formatUint digits n⟩
    | cons next rest =>
      obtain ⟨marked, between⟩ := ih (cons_ne_nil _ _)
      rw [map_cons, map_cons, intercalate_cons_cons, append_assoc,
        singleton_append, ← map_cons]
      dsimp only
      rw [shape_append isMark, parts_append isMark, shape_formatUint digits, marked,
        parts_formatUint digits, between]
      exact ⟨rfl, rfl⟩

end

/-! ## Addresses -/

theorem cut_string4 (n : Nat) : shape (string4 n) = ['.', '.', '.'] ∧
    parts (string4 n) = (fields 256 4 n).map (formatUint 10) := by
  have some_ : fields 256 4 n ≠ [] := ne_nil_of_length_pos (by rw [fields_length]; decide)
  obtain ⟨marked, between⟩ := @cut_numbers 10 (by decide) '.' (by decide) _ some_
  rw [fields_length] at marked
  exact ⟨marked, between⟩

/-- The texts between the colons of a list of groups, which may be empty. -/
def hexTexts (groups : List Nat) : List (List Char) :=
  if groups = [] then [[]] else groups.map (formatUint 16)

theorem cut_appendHex (groups : List Nat) :
    shape (appendHex groups) = replicate (groups.length - 1) ':' ∧
      parts (appendHex groups) = hexTexts groups := by
  unfold hexTexts
  split
  · next none => rw [none]; exact ⟨rfl, rfl⟩
  · next some_ => exact cut_numbers (by decide) (by decide) some_

variable {groups : List Nat} (eight : groups.length = 8)
include eight

/-- The run that `appendTo6` finds starts somewhere and goes on while there are zeros. -/
theorem zeroRun_eq :
    ∃ i, zeroRun groups = (i, i + ((groups.drop i).takeWhile (· == 0)).length) := by
  have start : ∃ i, (255, 255) = (i, i + ((groups.drop i).takeWhile (· == 0)).length) :=
    ⟨255, by rw [drop_of_length_le (by omega)]; rfl⟩
  unfold zeroRun
  generalize (255, 255) = zero at start
  generalize range 8 = indices
  induction indices generalizing zero with
  | nil => exact start
  | cons i rest ih =>
    refine ih _ ?_
    dsimp only
    split
    · exact ⟨i, rfl⟩
    · exact start

/-- All groups are written, or all but a run of zeros. -/
theorem string6_cases : string6 groups = appendHex groups ∨ ∃ before count after,
    groups = before ++ (replicate count 0 ++ after) ∧
      string6 groups = appendHex before ++ ':' :: ':' :: appendHex after := by
  obtain ⟨i, run⟩ := zeroRun_eq eight
  unfold string6
  rw [run]
  dsimp only
  split
  · have zeros : (groups.drop i).takeWhile (· == 0) =
        replicate ((groups.drop i).takeWhile (· == 0)).length 0 := by
      refine eq_replicate_iff.mpr ⟨rfl, fun group member => ?_⟩
      simpa using mem_takeWhile_imp member
    obtain ⟨after, whole⟩ := takeWhile_prefix (· == 0) (l := groups.drop i)
    generalize (groups.drop i).takeWhile (· == 0) = skipped at *
    refine .inr ⟨groups.take i, skipped.length, after, ?_, ?_⟩
    · rw [← zeros, whole, take_append_drop]
    · rw [← drop_drop, ← whole, drop_left]
  · next outside =>
    rw [take_of_length_le (Nat.le_of_not_lt outside), append_nil]
    exact .inl rfl

theorem shape_string6 :
    ':' ∈ shape (string6 groups) ∧ ∀ char ∈ shape (string6 groups), char = ':' := by
  rcases string6_cases eight with plain | ⟨before, count, after, -, run⟩
  · rw [plain, (cut_appendHex groups).1, eight]
    exact ⟨mem_cons_self, fun char => eq_of_mem_replicate⟩
  · have marked : shape (string6 groups) = replicate (before.length - 1) ':' ++
        ':' :: ':' :: replicate (after.length - 1) ':' := by
      rw [run, shape_append (by decide), (cut_appendHex before).1, ← (cut_appendHex after).1]
      exact congrArg (_ ++ _ :: ·) (shape_append (by decide) [] _)
    rw [marked]
    simp only [mem_append, mem_cons, mem_replicate]
    exact ⟨.inr (.inl trivial), fun char member => by tauto⟩

omit eight in
theorem hexTexts_written (groups : List Nat) :
    ∀ text ∈ groups.map (formatUint 16), decide (text ≠ []) = true := by
  intro text member
  obtain ⟨n, -, rfl⟩ := mem_map.mp member
  exact decide_eq_true (formatUint_ne_nil (by decide) n)

omit eight in
theorem takeWhile_hexTexts (groups : List Nat) (rest : List (List Char)) :
    (hexTexts groups ++ [] :: rest).takeWhile (· ≠ []) = groups.map (formatUint 16) := by
  unfold hexTexts
  split
  · next none => rw [none]; rfl
  · rw [takeWhile_append_of_pos (hexTexts_written groups)]
    simp

omit eight in
theorem filter_hexTexts (groups : List Nat) :
    (hexTexts groups).filter (· ≠ []) = groups.map (formatUint 16) := by
  unfold hexTexts
  split
  · next none => rw [none]; rfl
  · exact filter_eq_self.mpr (hexTexts_written groups)

omit eight in
/-- The groups that the texts stand for: as many zeros as are missing go where a text is empty. -/
def readTexts (texts : List (List Char)) : List Nat :=
  let numbers := (texts.filter (· ≠ [])).map (readDigits 16 0)
  let first := (texts.takeWhile (· ≠ [])).length
  numbers.take first ++ (replicate (8 - numbers.length) 0 ++ numbers.drop first)

theorem readTexts_string6 : readTexts (parts (string6 groups)) = groups := by
  unfold readTexts
  rcases string6_cases eight with plain | ⟨before, count, after, whole, run⟩
  · have texts : hexTexts groups = groups.map (formatUint 16) :=
      if_neg (ne_nil_of_length_pos (by omega))
    rw [plain, (cut_appendHex groups).2, filter_hexTexts, map_readDigits (by decide), texts,
      takeWhile_eq_self_iff.mpr (hexTexts_written groups), length_map]
    simp [eight]
  · have texts : parts (string6 groups) = hexTexts before ++ [] :: hexTexts after := by
      rw [run, parts_append (by decide), (cut_appendHex before).2, ← (cut_appendHex after).2]
      exact congrArg (_ ++ ·) (parts_append (by decide) [] _)
    have zeros : 8 - (before ++ after).length = count := by
      rw [← eight, whole]
      simp only [length_append, length_replicate]
      omega
    rw [texts, filter_append, filter_cons_of_neg (by simp), filter_hexTexts,
      filter_hexTexts, ← map_append, map_readDigits (by decide), takeWhile_hexTexts, length_map]
    dsimp only
    rw [zeros, take_left, drop_left, ← whole]

omit eight

def readDotted (texts : List (List Char)) : Nat := ofFields 256 (texts.map (readDigits 10 0))

theorem readDotted_string4 {n : Nat} (fits : n < 2 ^ 32) : readDotted (parts (string4 n)) = n := by
  rw [readDotted, (cut_string4 n).2, map_readDigits (by decide)]
  exact ofFields_fields fits

/-- The address that is written with these marks and these texts between them. -/
def readAddr (shape : List Char) (parts : List (List Char)) : Addr :=
  if ' ' ∈ shape then .invalid
  else if ':' ∉ shape then .ipv4 (.ofNat 32 (readDotted parts))
  else if '.' ∈ shape then .ipv6 (.ofNat 128 (0xffff * 2 ^ 32 + readDotted (parts.drop 3)))
  else .ipv6 (.ofNat 128 (ofFields 65536 (readTexts parts)))

theorem cut_mapped (n : Nat) :
    shape ("::ffff:".toList ++ string4 n) = [':', ':', ':', '.', '.', '.'] ∧
      parts ("::ffff:".toList ++ string4 n) = [[], [], "ffff".toList] ++ parts (string4 n) := by
  have text : "::ffff:".toList ++ string4 n = "::ffff".toList ++ ':' :: string4 n := rfl
  rw [text, shape_append (by decide), parts_append (by decide), (cut_string4 n).1]
  exact ⟨by decide, congrArg (· ++ _) (by decide)⟩

theorem readAddr_addrString (addr : Addr) :
    readAddr (shape (addrString addr)) (parts (addrString addr)) = addr := by
  unfold readAddr
  cases addr with
  | invalid => exact if_pos (by decide)
  | ipv4 value =>
    have text : addrString (.ipv4 value) = string4 value.toNat := rfl
    rw [text, (cut_string4 _).1, if_neg (by decide), if_pos (by decide),
      readDotted_string4 value.isLt]
    exact congrArg Addr.ipv4 (BitVec.ofNat_toNat 32 value)
  | ipv6 value =>
    by_cases mapped : value >>> 32 = 0xffff
    · have text : addrString (.ipv6 value) = _ := if_pos mapped
      have high := congrArg BitVec.toNat mapped
      have low : (value.truncate 32).toNat = value.toNat % 2 ^ 32 := BitVec.toNat_setWidth _ _
      rw [BitVec.toNat_ushiftRight, Nat.shiftRight_eq_div_pow] at high
      change _ = 0xffff at high
      have whole : 0xffff * 2 ^ 32 + (value.truncate 32).toNat = value.toNat := by omega
      rw [text, (cut_mapped _).1, (cut_mapped _).2, if_neg (by decide), if_neg (by decide),
        if_pos (by decide), drop_left' (by rfl),
        readDotted_string4 (value.truncate 32).isLt, whole]
      exact congrArg Addr.ipv6 (BitVec.ofNat_toNat 128 value)
    · have text : addrString (.ipv6 value) = _ := if_neg mapped
      have eight := fields_length 65536 8 value.toNat
      obtain ⟨colon, only⟩ := shape_string6 eight
      have others {char : Char} (other : char ≠ ':') :
          char ∉ shape (string6 (fields 65536 8 value.toNat)) :=
        fun here => other (only char here)
      rw [text, if_neg (others (by decide)), if_neg (not_not.mpr colon),
        if_neg (others (by decide)), readTexts_string6 eight,
        @ofFields_fields 65536 8 _ value.isLt]
      exact congrArg Addr.ipv6 (BitVec.ofNat_toNat 128 value)

theorem cut_string (subnet : Prefix) :
    shape subnet.string = shape (addrString subnet.addr) ++ ['/'] ∧
      parts subnet.string = parts (addrString subnet.addr) ++ [formatUint 10 subnet.bits] := by
  rw [Prefix.string, shape_append (by decide), parts_append (by decide),
    shape_formatUint (by decide), parts_formatUint (by decide)]
  exact ⟨rfl, rfl⟩

theorem string_injective {first second : Prefix} (same : first.string = second.string) :
    first = second := by
  have marked := congrArg shape same
  have texts := congrArg parts same
  rw [(cut_string first).1, (cut_string second).1] at marked
  rw [(cut_string first).2, (cut_string second).2] at texts
  obtain ⟨texts, bits⟩ := append_inj' texts rfl
  have addresses : first.addr = second.addr := by
    rw [← readAddr_addrString first.addr, append_cancel_right marked, texts,
      readAddr_addrString]
  have bits := (readDigits_formatUint (by decide)).injective (singleton_inj.mp bits)
  cases first
  cases second
  exact congr (congrArg Prefix.mk addresses) bits

example :
    Prefix.string ⟨.ipv6 0x20010db8000000000001000000000000, 80⟩ = "2001:db8:0:0:1::/80".toList ∧
    Prefix.string ⟨.ipv6 0xffff0a000001, 128⟩ = "::ffff:10.0.0.1/128".toList := by
  decide +kernel

/-! ## The name -/

/-- The subnet, if its number of bits is one. -/
def validSubnet (key : DNSCacheKey) : Option Prefix :=
  key.clientSubnet.bits.map fun bits => ⟨key.clientSubnet.addr, bits⟩

/-- The tag has neither of the two marks in it. -/
def Unmarked (key : DNSCacheKey) : Prop :=
  ∀ char ∈ key.transportTag.toList, (char != '\x00' && char != '\x01') = true

def subnetPart (key : DNSCacheKey) : List Char :=
  ((validSubnet key).map fun subnet => '\x00' :: subnet.string).getD []

def environmentPart (key : DNSCacheKey) : List Char :=
  if key.environment ≠ 0 then '\x01' :: formatUint 36 key.environment.toNat else []

theorem persistentName_parts (key : DNSCacheKey) :
    key.persistentName.toList =
      key.transportTag.toList ++ (subnetPart key ++ environmentPart key) := by
  unfold DNSCacheKey.persistentName subnetPart environmentPart validSubnet
  cases key.clientSubnet.bits <;> dsimp only [Option.map, Option.getD] <;> split_ifs <;> simp

/-- The environment behind the last mark. -/
def readEnvironment (text : List Char) : Nat :=
  if (shape text).getLast? = some '\x01' then readDigits 36 0 ((parts text).getLastD []) else 0

theorem readEnvironment_name (key : DNSCacheKey) :
    readEnvironment (subnetPart key ++ environmentPart key) = key.environment.toNat := by
  unfold environmentPart
  split
  · rw [readEnvironment, shape_append (by decide), shape_formatUint (by decide),
      if_pos getLast?_concat, parts_append (by decide), parts_formatUint (by decide),
      getLastD_concat]
    exact readDigits_formatUint (by decide) _
  · next none =>
    have otherMark : (shape (subnetPart key)).getLast? ≠ some '\x01' := by
      unfold subnetPart
      cases validSubnet key with
      | none => decide
      | some subnet =>
        have marked := shape_append (by decide : '\x00' ∈ marks) [] subnet.string
        rw [(cut_string subnet).1, ← cons_append, ← append_assoc] at marked
        rw [Option.map_some, Option.getD_some, ← nil_append ('\x00' :: _), marked,
          getLast?_concat]
        decide
    rw [append_nil, readEnvironment, if_neg otherMark, not_not.mp none]
    rfl

variable {first second : DNSCacheKey}

/-- The name can be taken apart again. -/
theorem persistentName_injective (one : Unmarked first) (two : Unmarked second)
    (same : first.persistentName = second.persistentName) :
    first.transportTag = second.transportTag ∧ validSubnet first = validSubnet second ∧
      first.environment = second.environment := by
  have text := congrArg String.toList same
  rw [persistentName_parts, persistentName_parts] at text
  have untagged {key : DNSCacheKey} (unmarked : Unmarked key) :
      (key.transportTag.toList ++ (subnetPart key ++ environmentPart key)).takeWhile
        (fun char => char != '\x00' && char != '\x01') = key.transportTag.toList := by
    rw [takeWhile_append_of_pos unmarked]
    unfold subnetPart environmentPart
    cases validSubnet key <;> dsimp only [Option.map, Option.getD] <;> split_ifs <;> simp
  have tags : first.transportTag.toList = second.transportTag.toList := by
    rw [← untagged one, text, untagged two]
  rw [tags] at text
  have rest := append_cancel_left text
  have environments : first.environment = second.environment := by
    refine BitVec.eq_of_toNat_eq ?_
    rw [← readEnvironment_name first, rest, readEnvironment_name]
  have subnets : subnetPart first = subnetPart second := by
    rw [environmentPart, environments] at rest
    exact append_cancel_right rest
  refine ⟨String.toList_inj.mp tags, ?_, environments⟩
  unfold subnetPart at subnets
  cases found : validSubnet first <;> cases other : validSubnet second <;> simp_all
  exact string_injective subnets

/-! ## Entries -/

/-- The bucket and the key bytes of `putCacheEntry` and `getCacheEntry`. -/
def entryAddress (key : SaveCacheKey) : String × List UInt8 :=
  (key.transportName,
    UInt8.ofNat (key.qType / 256) :: UInt8.ofNat key.qType ::
      key.questionName.toByteArray.data.toList)

theorem entryAddress_injective {first second : SaveCacheKey} (one : first.qType < 2 ^ 16)
    (two : second.qType < 2 ^ 16) (same : entryAddress first = entryAddress second) :
    first = second := by
  obtain ⟨name, bytes⟩ := Prod.mk.inj same
  obtain ⟨high, bytes⟩ := cons.inj bytes
  obtain ⟨low, text⟩ := cons.inj bytes
  have types : first.qType = second.qType := by
    have high := congrArg UInt8.toNat high
    have low := congrArg UInt8.toNat low
    simp only [UInt8.toNat_ofNat'] at high low
    omega
  have names : first.questionName = second.questionName :=
    String.toByteArray_inj.mp (ByteArray.ext (Array.toList_inj.mp text))
  cases first
  cases second
  simp_all

/-- Two keys with the same entry are the same key if the classes of their questions are, and the
addresses of their subnets where these have no valid number of bits. -/
theorem entries_distinct_iff (first second : DNSCacheKey)
    (one : Unmarked first) (two : Unmarked second)
    (types : first.question.qtype < 2 ^ 16 ∧ second.question.qtype < 2 ^ 16)
    (shared : entryAddress first.saveKey = entryAddress second.saveKey ∨
      first.saveKey = second.saveKey) :
    first = second ↔ first.question.qclass = second.question.qclass ∧
      (first.clientSubnet.bits = none → first.clientSubnet.addr = second.clientSubnet.addr) := by
  have same : first.saveKey = second.saveKey :=
    shared.elim (entryAddress_injective types.1 types.2) id
  obtain ⟨names, questions, kinds⟩ := SaveCacheKey.mk.inj same
  obtain ⟨tags, subnets, environments⟩ := persistentName_injective one two names
  refine ⟨fun equal => by simp [equal], fun ⟨classes, addresses⟩ => ?_⟩
  obtain ⟨⟨_, _, _⟩, _, ⟨_, bits⟩, _⟩ := first
  obtain ⟨⟨_, _, _⟩, _, ⟨_, bits'⟩, _⟩ := second
  cases bits <;> cases bits' <;> simp_all [validSubnet]

/-- A question of class IN and one of class CH, otherwise alike. -/
theorem classes_share_entry :
    let key (qclass : Nat) : DNSCacheKey := ⟨⟨"version.bind.", 16, qclass⟩, "dns", {}, 0⟩
    key 1 ≠ key 3 ∧ (key 1).saveKey = (key 3).saveKey := by
  decide

/-- The key of a query for example.org with these options, and with these in its OPT record. -/
def keyOf (options : DNSQueryOptions) (opt : List EDNS0) : DNSCacheKey :=
  newCacheKey {} ⟨0, fun _ => 7⟩ { tag := "dns" } ⟨"example.org.", 1, 1⟩
    { id := 1, extra := [{ name := ".", data := .opt opt, rrclass := 0 }] } options

/-- A subnet that the options name, and the same subnet in the query. -/
theorem subnet_shares_entry :
    let named := keyOf { clientSubnet := some ⟨.ipv4 0x0a000000, 8⟩ } []
    let carried := keyOf {} [.subnet 1 8 (.ipv6 0xffff0a000000)]
    named.saveKey = carried.saveKey ∧ named = carried := by
  intro named carried
  have shared : named.saveKey = carried.saveKey := by decide +kernel
  have unmarked : Unmarked named ∧ Unmarked carried :=
    ⟨all_eq_true.mp (by decide), all_eq_true.mp (by decide)⟩
  exact ⟨shared, (entries_distinct_iff named carried unmarked.1 unmarked.2 (by decide)
    (.inr shared)).mpr ⟨rfl, fun none => by cases none⟩⟩

end AmneziaBox.Guarantees.PersistentKeys
