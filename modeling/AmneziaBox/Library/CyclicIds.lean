import Mathlib.Data.BitVec
import Mathlib.Data.List.Perm.Subperm

/-!
# Identifiers that are handed out in turn

A counter runs through the identifiers of a fixed width and wraps around; identifiers that
are in use are passed over. An identifier comes back only after the counter has met every
other one, so it does not come back as long as some identifier was not met.
-/
namespace AmneziaBox.Library

variable {w : Nat} {origin last id : BitVec w} {seen : List (BitVec w)}

/-- The counter meets the identifier on its way from `origin` to `last`. -/
def Spans (origin last id : BitVec w) : Prop :=
  (id - origin).toNat ≤ (last - origin).toNat

/-- The identifier that lies `i` after `last`, when `last` lies `d` after the origin. -/
theorem eq_add_of_distance (origin : BitVec w) {i : Nat}
    (distance : (id - origin).toNat = (last - origin).toNat + i) : id = last + BitVec.ofNat w i := by
  have split : id - origin = (last - origin) + BitVec.ofNat w i := by
    apply BitVec.eq_of_toNat_eq
    rw [BitVec.toNat_add, BitVec.toNat_ofNat, Nat.add_mod_mod, ← distance,
      Nat.mod_eq_of_lt (id - origin).isLt]
  calc id = (id - origin) + origin := (BitVec.sub_add_cancel id origin).symm
    _ = (last - origin) + BitVec.ofNat w i + origin := by rw [split]
    _ = (last - origin) + origin + BitVec.ofNat w i := by
      rw [BitVec.add_assoc, BitVec.add_comm _ origin, ← BitVec.add_assoc]
    _ = last + BitVec.ofNat w i := by rw [BitVec.sub_add_cancel]

theorem eq_of_spans_self (spans : Spans origin origin id) : id = origin := by
  have place : id = origin + BitVec.ofNat w 0 := by
    unfold Spans at spans
    refine eq_add_of_distance origin ?_
    rw [BitVec.sub_self] at spans ⊢
    exact Nat.le_zero.mp spans
  rw [place, BitVec.add_zero]

/-- The counter goes on by `k`, over identifiers that were met before. Unless all were, it
does not get to the origin. -/
theorem spans_advance {k : Nat} (met : ∀ id, Spans origin last id → id ∈ seen)
    (passed : ∀ i, 0 < i → i < k → last + BitVec.ofNat w i ∈ seen) (positive : 0 < k)
    (unmet : ∃ id, id ∉ seen) :
    last + BitVec.ofNat w k ≠ origin ∧
      ∀ id, Spans origin (last + BitVec.ofNat w k) id → id ∈ seen ∨ id = last + BitVec.ofNat w k := by
  have within : ∀ id, (id - origin).toNat < (last - origin).toNat + k → id ∈ seen := by
    intro id near
    rcases Nat.lt_or_ge (last - origin).toNat (id - origin).toNat with beyond | before
    · have place : id = last + BitVec.ofNat w ((id - origin).toNat - (last - origin).toNat) :=
        eq_add_of_distance origin (by omega)
      rw [place]
      exact passed _ (by omega) (by omega)
    · exact met id before
  have short : (last - origin).toNat + k < 2 ^ w := by
    obtain ⟨id, absent⟩ := unmet
    by_contra long
    exact absent (within id (by have := (id - origin).isLt; omega))
  have distance : (last + BitVec.ofNat w k - origin).toNat = (last - origin).toNat + k := by
    have move : last + BitVec.ofNat w k - origin = (last - origin) + BitVec.ofNat w k := by
      rw [BitVec.sub_eq_add_neg, BitVec.sub_eq_add_neg, BitVec.add_assoc, BitVec.add_assoc,
        BitVec.add_comm (BitVec.ofNat w k)]
    rw [move, BitVec.toNat_add, BitVec.toNat_ofNat, Nat.add_mod_mod, Nat.mod_eq_of_lt short]
  refine ⟨?_, fun id spans => ?_⟩
  · intro equal
    rw [equal, BitVec.sub_self] at distance
    simp at distance
    omega
  · unfold Spans at spans
    rw [distance] at spans
    rcases Nat.lt_or_ge (id - origin).toNat ((last - origin).toNat + k) with near | far
    · exact .inl (within id near)
    · exact .inr (eq_add_of_distance origin (by omega))

/-- Fewer identifiers than there are leave one out. -/
theorem exists_notMem_of_length (short : seen.length < 2 ^ w) : ∃ id, id ∉ seen := by
  by_contra all
  have covered : ∀ id : BitVec w, id ∈ seen := fun id =>
    Classical.byContradiction fun absent => all ⟨id, absent⟩
  have subset : List.range (2 ^ w) ⊆ seen.map BitVec.toNat := by
    intro n inside
    refine List.mem_map.mpr ⟨BitVec.ofNat w n, covered _, ?_⟩
    rw [BitVec.toNat_ofNat, Nat.mod_eq_of_lt (List.mem_range.mp inside)]
  have bound := (List.nodup_range.subperm subset).length_le
  rw [List.length_range, List.length_map] at bound
  omega

end AmneziaBox.Library
