import AmneziaBox.Source.CacheFile.Pending

/-!
# Rejected responses expire

An entry expires the timeout after it was written to the database, and not at all before. So the
time since the rejection is bounded by the timeout if a batch is written in the moment in which it
was queued.
-/
namespace AmneziaBox.Guarantees.RejectionExpiry
open Library Source.DNS Source.CacheFile Option

/-- No rejection waits to be written. -/
def written (s : RDRC) : Bool := s.pending.rdrc.entries.isEmpty && s.writing.isNone

/-- Rejections are written before time passes. -/
def Prompt (s : RDRC) (event : RDRCEvent) : Prop :=
  (event matches .wait _) = true → written s = true

instance (s : RDRC) (event : RDRCEvent) : Decidable (Prompt s event) :=
  inferInstanceAs (Decidable (_ → _))

structure Fresh (rdrcTimeout : Nat) (s : RDRC) : Prop where
  pending : ∀ key, (s.pending.rdrc.lookup key).isSome = true → (key, s.now) ∈ s.recorded
  writing : ∀ writing, s.writing = some writing →
    ∀ key, (writing.rdrc.lookup key).isSome = true → (key, s.now) ∈ s.recorded
  database : ∀ key expiresAt, s.database key = some expiresAt →
    ∃ time, (key, time) ∈ s.recorded ∧ expiresAt ≤ time + rdrcTimeout ∧ time ≤ s.now

variable {rdrcTimeout : Nat} {s t : RDRC}

theorem Fresh.step (fresh : Fresh rdrcTimeout s) {event : RDRCEvent} (prompt : Prompt s event)
    (stepped : rdrcStep rdrcTimeout s event = some t) : Fresh rdrcTimeout t := by
  cases event with
  | queue key =>
    cases stepped
    refine ⟨fun other found => ?_, fun writing here other found => ?_,
      fun other expiresAt found => ?_⟩
    · by_cases same : other = key
      · exact same ▸ List.mem_cons_self
      · refine List.mem_cons_of_mem _ (fresh.pending other ?_)
        unfold Pending.queueRDRC at found
        split at found
        · exact found
        · exact AList.lookup_insert_ne same ▸ found
    · exact List.mem_cons_of_mem _ (fresh.writing writing here other found)
    · obtain ⟨time, known, bounds⟩ := fresh.database other expiresAt found
      exact ⟨time, List.mem_cons_of_mem _ known, bounds⟩
  | swap =>
    obtain ⟨_, same⟩ := ite_none_right_eq_some.mp stepped
    cases same
    refine ⟨nofun, fun writing here => ?_, fresh.database⟩
    exact some.inj here ▸ fresh.pending
  | write =>
    unfold rdrcStep at stepped
    dsimp only at stepped
    split at stepped
    · next writing here =>
      obtain ⟨_, same⟩ := ite_none_left_eq_some.mp stepped
      cases same
      refine ⟨fresh.pending, fresh.writing, fun key expiresAt found => ?_⟩
      dsimp only at found
      split_ifs at found with batch
      · refine ⟨s.now, fresh.writing writing here key batch, ?_, Nat.le_refl _⟩
        exact some.inj found ▸ Nat.div_mul_le_self ..
      · exact fresh.database key expiresAt found
    · cases stepped
  | complete =>
    obtain ⟨_, same⟩ := ite_none_right_eq_some.mp stepped
    cases same
    exact ⟨fresh.pending, nofun, fresh.database⟩
  | wait duration =>
    cases stepped
    obtain ⟨empty, idle⟩ := Bool.and_eq_true_iff.mp (prompt rfl)
    refine ⟨fun key found => ?_, fun writing here => ?_, fun key expiresAt found => ?_⟩
    · rw [AList.lookup, List.isEmpty_iff.mp empty] at found
      cases found
    · rw [here] at idle
      cases idle
    · obtain ⟨time, known, bound, past⟩ := fresh.database key expiresAt found
      exact ⟨time, known, bound, Nat.le_add_right_of_le past⟩

theorem rejections_expire (rdrcTimeout : Nat) (positive : 0 < rdrcTimeout) (events : List RDRCEvent)
    (s : RDRC) (prompt : Along (rdrcStep rdrcTimeout) Prompt {} events)
    (ran : run (rdrcStep rdrcTimeout) {} events = some s) (key : SaveCacheKey)
    (loaded : loadRDRC s key = true) :
    ∃ time, (key, time) ∈ s.recorded ∧ s.now < time + rdrcTimeout ∧ time ≤ s.now := by
  have start : Fresh rdrcTimeout {} :=
    ⟨fun _ found => (nomatch found), fun _ here => (nomatch here), fun _ _ found => (nomatch found)⟩
  have fresh := run_invariant_along (fun _ _ _ fresh prompt => Fresh.step fresh prompt) start
    prompt ran
  rcases (Bool.or_eq_true _ _).mp loaded with batches | database
  · refine ⟨s.now, ?_, Nat.lt_add_of_pos_right positive, Nat.le_refl _⟩
    rcases (Bool.or_eq_true _ _).mp batches with pending | writing
    · exact fresh.pending key pending
    · obtain ⟨_, found⟩ := isSome_iff_exists.mp writing
      obtain ⟨batch, here, there⟩ := bind_eq_some_iff.mp found
      exact fresh.writing batch here key (there ▸ rfl)
  · obtain ⟨expiresAt, found, early⟩ := (any_eq_true _ _).mp database
    obtain ⟨time, known, bound, past⟩ := fresh.database key expiresAt found
    exact ⟨time, known, Nat.lt_of_lt_of_le (of_decide_eq_true early) bound, past⟩

/-- Without a flush a rejection is reported for ever. -/
theorem unwritten_rejection_stays :
    let key : SaveCacheKey := ⟨"dns", "a.", 1⟩
    (run (rdrcStep 10) {} [.queue key, .wait 1000]).map (fun s =>
      (loadRDRC s key, s.recorded, s.now)) = some (true, [(key, 0)], 1000) := by
  decide

theorem written_rejection_kept :
    let key : SaveCacheKey := ⟨"dns", "a.", 1⟩
    ∃ s, run (rdrcStep 9000000000) {} [.queue key, .swap, .write, .complete, .wait 5] = some s ∧
      loadRDRC s key = true ∧
      ∃ time, (key, time) ∈ s.recorded ∧ s.now < time + 9000000000 ∧ time ≤ s.now := by
  intro key
  obtain ⟨s, ran⟩ : ∃ s, run (rdrcStep 9000000000) {}
      [.queue key, .swap, .write, .complete, .wait 5] = some s := ⟨_, rfl⟩
  have loaded : loadRDRC s key = true := by
    cases ran
    decide
  exact ⟨s, ran, loaded, rejections_expire _ (by decide) _ s (by decide +kernel) ran key loaded⟩

end AmneziaBox.Guarantees.RejectionExpiry
