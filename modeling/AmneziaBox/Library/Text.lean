import Mathlib.Data.List.Basic
import Mathlib.Data.List.TakeWhile

/-!
# Text cut into lines and fields

Text is a list of characters, one for each byte. The operations are those of Go's `strings`
and `bufio` packages that a line format is read with: a text is cut at the first occurrence of a
separator, a trailing character is trimmed, and a scanner hands out the lines up to the first
one that does not fit into its buffer.
-/
namespace AmneziaBox.Library
open List

abbrev Text := List Char

section Cut
variable {α : Type} [DecidableEq α]

/-- `strings.TrimSuffix` for a suffix of one character. -/
def trimEnd (last : α) (text : List α) : List α :=
  if text.getLast? = some last then text.dropLast else text

variable {last : α} {text : List α}

theorem trimEnd_of_ne (other : text.getLast? ≠ some last) :
    trimEnd last text = text := if_neg other

theorem trimEnd_concat (last : α) (text : List α) : trimEnd last (text ++ [last]) = text := by
  rw [trimEnd, if_pos (by simp), dropLast_concat]

variable {char : α}

theorem mem_of_mem_trimEnd (member : char ∈ trimEnd last text) : char ∈ text := by
  unfold trimEnd at member
  split at member
  · exact (dropLast_sublist _).subset member
  · exact member

/-- `strings.Cut`: what stands before and after the first occurrence of `sep`. -/
def cut (sep : List α) : List α → Option (List α × List α)
  | [] => if sep.isEmpty then some ([], []) else none
  | char :: rest =>
    if sep.isPrefixOf (char :: rest) then some ([], (char :: rest).drop sep.length)
    else (cut sep rest).map fun (before, after) => (char :: before, after)

variable {sep before after : List α}

theorem eq_of_cut (found : cut sep text = some (before, after)) :
    text = before ++ sep ++ after := by
  induction text generalizing before with
  | nil =>
    cases sep with
    | nil =>
      obtain ⟨rfl, rfl⟩ : [] = before ∧ [] = after := by simpa [cut] using found
      rfl
    | cons first more => simp [cut] at found
  | cons char rest ih =>
    unfold cut at found
    split at found
    · rename_i starts
      cases found
      obtain ⟨tail, same⟩ := isPrefixOf_iff_prefix.mp starts
      rw [← same, drop_left, nil_append]
    · obtain ⟨⟨inner, tail⟩, cutRest, same⟩ := Option.map_eq_some_iff.mp found
      cases same
      rw [ih cutRest]
      rfl

/-- A text without the separator's first character is not cut. -/
theorem cut_eq_none {first : α} {more : List α} (absent : first ∉ text) :
    cut (first :: more) text = none := by
  induction text with
  | nil => rfl
  | cons char rest ih =>
    simp only [mem_cons, not_or] at absent
    simp [cut, absent.1, ih absent.2]

theorem cut_append (absent : char ∉ before) (after : List α) :
    cut [char] (before ++ char :: after) = some (before, after) := by
  induction before with
  | nil => simp [cut]
  | cons first rest ih =>
    simp only [mem_cons, not_or] at absent
    simp [cut, absent.1, ih absent.2]

/-- More text behind does not move the first occurrence. -/
theorem cut_append_right (found : cut sep text = some (before, after)) (more : List α) :
    cut sep (text ++ more) = some (before, after ++ more) := by
  induction text generalizing before with
  | nil =>
    cases sep with
    | nil =>
      obtain ⟨rfl, rfl⟩ : [] = before ∧ [] = after := by simpa [cut] using found
      cases more <;> simp [cut]
    | cons first rest => simp [cut] at found
  | cons char rest ih =>
    unfold cut at found
    split at found
    · rename_i starts
      cases found
      have isPrefix := isPrefixOf_iff_prefix.mp starts
      have still : sep.isPrefixOf (char :: (rest ++ more)) = true :=
        isPrefixOf_iff_prefix.mpr (isPrefix.trans (prefix_append _ _))
      rw [cons_append, cut, if_pos still, ← cons_append,
        drop_append_of_le_length isPrefix.length_le]
    · rename_i differs
      obtain ⟨⟨inner, tail⟩, cutRest, same⟩ := Option.map_eq_some_iff.mp found
      cases same
      have fits : sep.length ≤ (char :: rest).length := by
        rw [eq_of_cut cutRest]
        simp only [length_cons, length_append]
        omega
      have still : ¬sep.isPrefixOf (char :: (rest ++ more)) = true := by
        intro starts
        have whole : sep <+: (char :: rest) ++ more := isPrefixOf_iff_prefix.mp starts
        exact differs ( isPrefixOf_iff_prefix.mpr
          (prefix_of_prefix_length_le whole (prefix_append _ _) fits))
      rw [cons_append, cut, if_neg still, ih cutRest]
      rfl

/-- A prefix without the last character lies before it. -/
theorem isPrefixOf_concat {start : List α} (absent : last ∉ start) :
    start.isPrefixOf (text ++ [last]) = start.isPrefixOf text := by
  rw [Bool.eq_iff_iff, isPrefixOf_iff_prefix, isPrefixOf_iff_prefix,
    prefix_concat_iff]
  constructor
  · rintro (rfl | before)
    · simp at absent
    · exact before
  · exact .inr

/-- A character that the separator does not have makes no occurrence. -/
theorem cut_concat_eq_none (uncut : cut sep text = none) (absent : last ∉ sep) :
    cut sep (text ++ [last]) = none := by
  induction text with
  | nil =>
    cases sep with
    | nil => simp [cut] at uncut
    | cons first rest =>
      have ne : first ≠ last := by
        rintro rfl
        simp at absent
      simp [cut, ne]
  | cons char rest ih =>
    unfold cut at uncut
    split at uncut
    · cases uncut
    · rename_i differs
      have still : ¬sep.isPrefixOf (char :: (rest ++ [last])) = true := by
        rwa [← cons_append, isPrefixOf_concat absent]
      rw [cons_append, cut, if_neg still, ih (by simpa using uncut)]
      rfl

theorem not_mem_of_cut (found : cut [char] text = some (before, after)) : char ∉ before := by
  induction text generalizing before with
  | nil => simp [cut] at found
  | cons first rest ih =>
    unfold cut at found
    split at found
    · obtain ⟨rfl, -⟩ := Prod.mk.inj (Option.some.inj found)
      exact not_mem_nil
    · rename_i differs
      obtain ⟨⟨inner, tail⟩, cutRest, same⟩ := Option.map_eq_some_iff.mp found
      cases same
      have ne : char ≠ first := by simpa using differs
      simp [ne, ih cutRest]

theorem not_mem_of_cut_eq_none (uncut : cut [char] text = none) : char ∉ text := by
  intro member
  obtain ⟨before, after, rfl, absent⟩ := eq_append_cons_of_mem member
  rw [cut_append absent] at uncut
  cases uncut

theorem not_mem_of_mem_splitOn {piece : List α} (member : piece ∈ text.splitOn char) :
    char ∉ piece := by
  induction text generalizing piece with
  | nil =>
    rw [splitOn_nil, mem_singleton] at member
    simp [member]
  | cons first rest ih =>
    rw [splitOn_cons_eq_if_modifyHead] at member
    split at member
    · rcases mem_cons.mp member with rfl | later
      · exact not_mem_nil
      · exact ih later
    · rename_i differs
      cases pieces : rest.splitOn char with
      | nil => exact absurd pieces (splitOn_ne_nil char rest)
      | cons head tail =>
        rw [pieces] at member
        have ne : char ≠ first := by
          rintro rfl
          simp at differs
        rcases mem_cons.mp member with rfl | later
        · simpa [ne] using ih (by simp [pieces])
        · exact ih (by simp [pieces, later])

end Cut

/-! ## Lines -/

/-- `bufio.MaxScanTokenSize`. -/
def maxScanTokenSize : Nat := 64 * 1024

/-- The lines a `bufio.Scanner` hands out: without the end-of-line markers, and only those
before the first line that does not fit into the buffer. -/
def scanLines (text : Text) : List Text :=
  ((trimEnd [] (text.splitOn '\n')).takeWhile fun line => line.length < maxScanTokenSize).map
    (trimEnd '\r')

/-- Every line followed by its end-of-line marker. -/
def unlines (lines : List Text) : Text := lines.flatMap (· ++ ['\n'])

theorem not_mem_of_mem_scanLines {text line : Text} (member : line ∈ scanLines text) :
    '\n' ∉ line := by
  obtain ⟨piece, taken, rfl⟩ := mem_map.mp member
  have whole := mem_of_mem_trimEnd ((takeWhile_sublist _).subset taken)
  intro inside
  exact not_mem_of_mem_splitOn whole (mem_of_mem_trimEnd inside)

theorem splitOn_unlines {lines : List Text} (whole : ∀ line ∈ lines, '\n' ∉ line) :
    (unlines lines).splitOn '\n' = lines ++ [[]] := by
  induction lines with
  | nil => rfl
  | cons line rest ih =>
    have more : unlines (line :: rest) = line ++ '\n' :: unlines rest := by simp [unlines]
    rw [more, splitOn_append_cons_self_of_not_mem (whole line (by simp)),
      ih fun later member => whole later (by simp [member])]
    rfl

/-- A line the scanner hands out as it stands. -/
structure ScanLine (line : Text) : Prop where
  whole : '\n' ∉ line
  unended : line.getLast? ≠ some '\r'
  fits : line.length < maxScanTokenSize

theorem scanLines_unlines {lines : List Text} (plain : ∀ line ∈ lines, ScanLine line) :
    scanLines (unlines lines) = lines := by
  have taken : (lines.takeWhile fun line => line.length < maxScanTokenSize) = lines :=
    takeWhile_eq_self_iff.mpr fun line member => by simpa using (plain line member).fits
  rw [scanLines, splitOn_unlines fun line member => (plain line member).whole, trimEnd_concat,
    taken]
  conv_rhs => rw [← map_id lines]
  apply map_congr_left
  intro line member
  exact trimEnd_of_ne (plain line member).unended

end AmneziaBox.Library
