import AmneziaBox.Guarantees.UploadReassembly

/-!
# Reading an upload to its end

Once every packet of an upload has been pushed, reading does not get stuck and does not go on
for ever: a packet with the next number is in the heap or in the channel, and every call that
asks for bytes makes what waits in the queue lighter. With the count of the bytes this says
what reading an upload returns.
-/
namespace AmneziaBox.Guarantees.UploadReassembly
open Library Source.XHTTP List
open UploadQueue

variable {ρ : Type} {payloads : List Bytes}

/-- The packets that wait. -/
def waitingPackets (queue : UploadQueue ρ) : List (Packet ρ) :=
  queue.heap.toList ++ queue.pushedPackets

/-- The bytes that wait, and one for each packet. -/
def weight (queue : UploadQueue ρ) : Nat :=
  ((waitingPackets queue).map fun packet => packet.payload.length + 1).sum

/-- The packet is finished, or a copy of it waits. -/
def Present (queue : UploadQueue ρ) (seq : Nat) : Prop :=
  seq < queue.nextSeq ∨ ∃ packet ∈ waitingPackets queue, packet.seq = seq

def packetsWeight (packets : List (Packet ρ)) : Nat :=
  (packets.map fun packet => packet.payload.length + 1).sum

theorem weight_eq (queue : UploadQueue ρ) :
    weight queue = packetsWeight queue.heap.toList + packetsWeight queue.pushedPackets := by
  simp [weight, waitingPackets, packetsWeight]

variable {packets : List (Packet ρ)}

theorem packetsWeight_perm {others : List (Packet ρ)} (perm : packets.Perm others) :
    packetsWeight packets = packetsWeight others :=
  (perm.map _).sum_eq

@[simp] theorem packetsWeight_append {others : List (Packet ρ)} :
    packetsWeight (packets ++ others) = packetsWeight packets + packetsWeight others := by
  simp [packetsWeight]

@[simp] theorem packetsWeight_cons {packet : Packet ρ} :
    packetsWeight (packet :: packets) = packet.payload.length + 1 + packetsWeight packets := by
  simp [packetsWeight]

theorem packetsWeight_pos (some : packets ≠ []) : 0 < packetsWeight packets := by
  obtain ⟨packet, rest, rfl⟩ := exists_cons_of_ne_nil some
  rw [packetsWeight_cons]
  omega

/-! ## One call -/

section Outcome

variable {queue : UploadQueue ρ} {size : Nat} {turn : Turn ρ}

theorem Present.outcome (held : Held payloads queue) (outcome : Outcome queue size turn) {seq : Nat}
    (present : Present queue seq) : Present (Turn.queue turn) seq := by
  rcases present with finished | ⟨packet, member, rfl⟩
  · left
    cases outcome with
    | finished heap old next all kept => exact finished.trans (Nat.lt_succ_self _)
    | drained | partly | ahead | large => exact finished
  rcases mem_append.mp member with inHeap | inChannel
  · cases outcome with
    | drained stale none => exact Or.inl (stale packet inHeap)
    | @partly stale rest found left heap old next more back =>
      rcases mem_append.mp (heap.mem_iff.mp inHeap) with before | after
      · exact Or.inl (old packet before)
      · right
        rcases mem_cons.mp after with rfl | kept
        · exact ⟨_, mem_append_left _ (back.mem_iff.mpr mem_cons_self), rfl⟩
        · exact ⟨packet, mem_append_left _
            (back.mem_iff.mpr (mem_cons_of_mem _ kept)), rfl⟩
    | @finished stale rest found left heap old next all kept =>
      rcases mem_append.mp (heap.mem_iff.mp inHeap) with before | after
      · exact Or.inl ((old packet before).trans (Nat.lt_succ_self _))
      · rcases mem_cons.mp after with rfl | remains
        · exact Or.inl (next.le.trans_lt (Nat.lt_succ_self _))
        · exact Or.inr ⟨packet, mem_append_left _ (kept.mem_iff.mpr remains), rfl⟩
    | @ahead stale rest left heap old later kept =>
      rcases mem_append.mp (heap.mem_iff.mp inHeap) with before | after
      · exact Or.inl (old packet before)
      · exact Or.inr ⟨packet, mem_append_left _ (kept.mem_iff.mpr after), rfl⟩
    | large many fewer =>
      have waiting := held.waiting
      exact absurd many (by omega)
  · right
    refine ⟨packet, mem_append_right _ ?_, rfl⟩
    cases outcome <;> exact inChannel

/-- The call has returned. -/
def Turn.Returned : Turn ρ → Prop
  | .done _ _ => True
  | .waiting _ _ => False

theorem channel_outcome (outcome : Outcome queue size turn) :
    (Turn.queue turn).pushedPackets = queue.pushedPackets := by
  cases outcome <;> rfl

/-- Nothing is added to the heap, and a call that returns and asked for bytes has taken
something away. -/
theorem heapWeight_outcome (held : Held payloads queue) (outcome : Outcome queue size turn) :
    packetsWeight (Turn.queue turn).heap.toList ≤ packetsWeight queue.heap.toList ∧
      (Turn.Returned turn → 0 < size → queue.heap.toList ≠ [] →
        packetsWeight (Turn.queue turn).heap.toList < packetsWeight queue.heap.toList) := by
  cases outcome with
  | @drained left stale none =>
    have light : packetsWeight left.toList = 0 := by rw [none]; rfl
    exact ⟨light.le.trans (Nat.zero_le _), fun _ _ some => light.trans_lt (packetsWeight_pos some)⟩
  | @partly stale rest packet left heap old next more back =>
    have lighter : packetsWeight left.toList + size ≤ packetsWeight queue.heap.toList := by
      rw [packetsWeight_perm back, packetsWeight_perm heap]
      simp only [packetsWeight_append, packetsWeight_cons, length_drop]
      omega
    exact ⟨show packetsWeight left.toList ≤ _ by omega,
      fun _ positive _ => show packetsWeight left.toList < _ by omega⟩
  | @finished stale rest packet left heap old next all kept =>
    have lighter : packetsWeight left.toList < packetsWeight queue.heap.toList := by
      rw [packetsWeight_perm kept, packetsWeight_perm heap]
      simp only [packetsWeight_append, packetsWeight_cons]
      omega
    exact ⟨lighter.le, fun _ _ _ => lighter⟩
  | @ahead stale rest left heap old later kept =>
    have lighter : packetsWeight left.toList ≤ packetsWeight queue.heap.toList := by
      rw [packetsWeight_perm kept, packetsWeight_perm heap]
      simp only [packetsWeight_append]
      omega
    exact ⟨lighter, nofun⟩
  | large many fewer =>
    have waiting := held.waiting
    exact absurd many (by omega)

theorem weight_outcome (held : Held payloads queue) (outcome : Outcome queue size turn) :
    weight (Turn.queue turn) ≤ weight queue ∧
      (Turn.Returned turn → 0 < size → queue.heap.toList ≠ [] →
        weight (Turn.queue turn) < weight queue) := by
  obtain ⟨most, less⟩ := heapWeight_outcome held outcome
  rw [weight_eq, weight_eq, channel_outcome outcome]
  exact ⟨Nat.add_le_add_right most _, fun returned positive some =>
    Nat.add_lt_add_right (less returned positive some) _⟩

end Outcome

section Moved

variable {queue : UploadQueue ρ} {packet : Packet ρ} {rest : List (Packet ρ)}

theorem weight_moved (front : queue.pushedPackets = packet :: rest) :
    weight (moved queue packet rest) = weight queue := by
  rw [weight_eq, weight_eq, front]
  change packetsWeight (queue.heap.push packet).toList + packetsWeight rest = _
  rw [packetsWeight_perm (Heap.push_perm _ _), packetsWeight_cons, packetsWeight_cons]
  omega

theorem Present.moved (front : queue.pushedPackets = packet :: rest) {seq : Nat}
    (present : Present queue seq) : Present (moved queue packet rest) seq := by
  rcases present with finished | ⟨other, member, same⟩
  · exact Or.inl finished
  · refine Or.inr ⟨other, ?_, same⟩
    rw [waitingPackets, front] at member
    change other ∈ (queue.heap.push packet).toList ++ rest
    rw [mem_append, (Heap.push_perm _ _).mem_iff]
    simp only [mem_append, mem_cons] at member ⊢
    tauto

end Moved

/-! ## From call to call -/

/-- A state with every packet finished or waiting. -/
structure Stocked (payloads : List Bytes) (state : UploadState ρ) : Prop where
  sound : Sound payloads state
  present : ∀ seq < payloads.length, Present state.queue seq

/-- What a part of a call leaves: a stocked state that is no heavier, and lighter if the call
has returned and asked for bytes. -/
structure Lighter (payloads : List Bytes) (before after : UploadState ρ) (size : Nat) : Prop where
  stocked : Stocked payloads after
  most : weight after.queue ≤ weight before.queue
  less : after.call = none → 0 < size → weight after.queue < weight before.queue

variable {state : UploadState ρ} {size : Nat}

theorem returned_of_idle {turn : Turn ρ} (idle : (state.turn size turn).call = none) :
    Turn.Returned turn := by
  cases turn with
  | done result queue => trivial
  | waiting first queue => cases idle

section Stocked
variable (stocked : Stocked payloads state)
include stocked

theorem Stocked.turn {queue : UploadQueue ρ} {turn : Turn ρ} (held : Held payloads queue)
    (present : ∀ seq < payloads.length, Present queue seq)
    (same : weight queue = weight state.queue) (some : queue.heap.toList ≠ [])
    (outcome : Outcome queue size turn) : Lighter payloads state (state.turn size turn) size := by
  obtain ⟨most, less⟩ := weight_outcome held outcome
  rw [same] at most less
  refine ⟨⟨stocked.sound.turn held outcome, fun seq inside => ?_⟩, ?_, fun idle positive => ?_⟩
  · rw [turn_queue]
    exact (present seq inside).outcome held outcome
  · rwa [turn_queue]
  · rw [turn_queue]
    exact less (returned_of_idle idle) positive some

/-- While a call waits, the next packet is in the channel. -/
theorem Stocked.channel (waiting : state.call ≠ none)
    (unfinished : state.queue.nextSeq < payloads.length) :
    ∃ packet rest, state.queue.pushedPackets = packet :: rest := by
  rcases stocked.present _ unfinished with finished | ⟨packet, member, same⟩
  · exact absurd finished (Nat.lt_irrefl _)
  · rcases mem_append.mp member with inHeap | inChannel
    · have later := stocked.sound.ahead waiting packet inHeap
      omega
    · exact exists_cons_of_ne_nil (ne_nil_of_mem inChannel)

/-- A waiting call receives and goes on. -/
theorem Stocked.receives {first : Bool}
    (waiting : state.call = some (size, first))
    (unfinished : state.queue.nextSeq < payloads.length) :
    ∃ next, uploadStep state .receive = some next ∧ Lighter payloads state next size ∧
      (∀ again kind, next.call = some (again, kind) → again = size) ∧
      next.queue.pushedPackets.length < state.queue.pushedPackets.length := by
  obtain ⟨packet, rest, front⟩ := stocked.channel (by rw [waiting]; nofun) unfinished
  have stepped : ∃ next, uploadStep state .receive = some next := by
    rw [uploadStep, waiting]
    unfold UploadQueue.receive
    rw [front]
    dsimp only
    split <;> exact ⟨_, rfl⟩
  obtain ⟨next, stepped⟩ := stepped
  refine ⟨next, stepped, ?_⟩
  have admissible : Admissible payloads state .receive := trivial
  cases moves_of_step stocked.sound.held admissible stepped with
  | receives again kind packet' rest' turn here there outcome =>
    rw [waiting] at here
    cases here
    have held : Held payloads (moved state.queue packet' rest') := stocked.sound.held.moved there
    have some : (moved state.queue packet' rest').heap.toList ≠ [] := by
      intro none
      exact absurd ((Heap.push_perm _ _).mem_iff.mpr mem_cons_self) (none ▸ not_mem_nil)
    refine ⟨stocked.turn held (fun seq inside => (stocked.present seq inside).moved there)
      (weight_moved there) some outcome, fun again kind call => ?_, ?_⟩
    · cases turn with
      | done result queue => cases call
      | waiting other queue =>
        cases call
        rfl
    · rw [turn_queue, channel_outcome outcome, there]
      exact Nat.lt_succ_self _

/-- A waiting call returns after some receives, unless the upload is finished. -/
theorem Stocked.settles {first : Bool}
    (waiting : state.call = some (size, first))
    (unfinished : state.queue.nextSeq < payloads.length) :
    ∃ receives next, run uploadStep state (List.replicate receives .receive) = some next ∧
      Lighter payloads state next size ∧
      (next.call = none ∨ next.queue.nextSeq = payloads.length) := by
  induction count : state.queue.pushedPackets.length using Nat.strong_induction_on
    generalizing state first with
  | _ count ih =>
    obtain ⟨next, stepped, lighter, again, fewer⟩ := stocked.receives waiting unfinished
    cases call : next.call with
    | none => exact ⟨1, next, run_cons.mpr ⟨next, stepped, rfl⟩, lighter, Or.inl call⟩
    | some wait =>
      obtain ⟨other, kind⟩ := wait
      obtain rfl := again other kind call
      rcases Nat.lt_or_ge next.queue.nextSeq payloads.length with more | done
      · obtain ⟨receives, final, ran, onward, ended⟩ :=
          ih _ (by omega) lighter.stocked call more rfl
        refine ⟨receives + 1, final, run_cons.mpr ⟨next, stepped, ran⟩, ⟨onward.stocked, ?_, ?_⟩, ended⟩
        · exact onward.most.trans lighter.most
        · exact fun idle positive => (onward.less idle positive).trans_le lighter.most
      · exact ⟨1, next, run_cons.mpr ⟨next, stepped, rfl⟩, lighter,
          Or.inr (le_antisymm lighter.stocked.sound.held.next done)⟩

/-- A call returns after some receives, and leaves less if it asked for bytes. -/
theorem Stocked.calls (idle : state.call = none)
    (unfinished : state.queue.nextSeq < payloads.length) (size : Nat) :
    ∃ receives next,
      run uploadStep state (.call size :: List.replicate receives .receive) = some next ∧
      Lighter payloads state next size ∧
      (next.call = none ∨ next.queue.nextSeq = payloads.length) := by
  have stepped : uploadStep state (.call size) = some (state.turn size (state.queue.read size)) := by
    rw [uploadStep, idle]
  have admissible : Admissible payloads state (.call size) := trivial
  generalize state.turn size (state.queue.read size) = next at stepped
  cases moves_of_step stocked.sound.held admissible stepped with
  | waits size idle none =>
    have waiting : Stocked payloads { state with call := some (size, true) } :=
      ⟨stocked.sound.step admissible stepped, stocked.present⟩
    obtain ⟨receives, final, ran, lighter, ended⟩ := waiting.settles rfl unfinished
    exact ⟨receives, final, run_cons.mpr ⟨_, stepped, ran⟩,
      ⟨lighter.stocked, lighter.most, lighter.less⟩, ended⟩
  | reads size turn idle some outcome =>
    have lighter := stocked.turn stocked.sound.held stocked.present rfl some outcome
    cases turn with
    | done result queue => exact ⟨0, _, run_cons.mpr ⟨_, stepped, rfl⟩, lighter, Or.inl rfl⟩
    | waiting first queue =>
      rcases Nat.lt_or_ge queue.nextSeq payloads.length with more | done
      · obtain ⟨receives, final, ran, onward, ended⟩ := lighter.stocked.settles rfl more
        refine ⟨receives, final, run_cons.mpr ⟨_, stepped, ran⟩, ⟨onward.stocked, ?_, ?_⟩, ended⟩
        · exact onward.most.trans lighter.most
        · exact fun idle positive => (onward.less idle positive).trans_le lighter.most
      · exact ⟨0, _, run_cons.mpr ⟨_, stepped, rfl⟩, lighter,
          Or.inr (le_antisymm lighter.stocked.sound.held.next done)⟩

end Stocked

/-! ## To the end -/

/-- Calls of the given sizes, each with the number of its receives. -/
def readEvents (calls : List (Nat × Nat)) : List (UploadEvent ρ) :=
  calls.flatMap fun (size, receives) => .call size :: List.replicate receives .receive

/-- Calls that ask for bytes finish the upload, at the latest when they are as many as the bytes
and packets that wait. -/
theorem Stocked.finishes (stocked : Stocked payloads state)
    (idle : state.call = none ∨ state.queue.nextSeq = payloads.length) {sizes : List Nat}
    (positive : ∀ size ∈ sizes, 0 < size) (enough : weight state.queue ≤ sizes.length) :
    ∃ calls final, (calls.map Prod.fst) <+: sizes ∧
      run uploadStep state (readEvents calls) = some final ∧
      final.queue.nextSeq = payloads.length := by
  induction sizes generalizing state with
  | nil =>
    refine ⟨[], state, nil_prefix, rfl, ?_⟩
    by_contra unfinished
    -- a packet with the next number waits and weighs something
    have more := lt_of_le_of_ne stocked.sound.held.next unfinished
    rcases stocked.present _ more with finished | ⟨packet, member, -⟩
    · exact Nat.lt_irrefl _ finished
    · have heavy : 0 < weight state.queue := packetsWeight_pos (ne_nil_of_mem member)
      exact absurd enough (Nat.not_le.mpr heavy)
  | cons size rest ih =>
    rcases Nat.lt_or_ge state.queue.nextSeq payloads.length with more | done
    · have free := idle.resolve_right (Nat.ne_of_lt more)
      obtain ⟨asks, others⟩ := forall_mem_cons.mp positive
      obtain ⟨receives, next, ran, lighter, ended⟩ := stocked.calls free more size
      rcases ended with returned | finished
      · have fewer := lighter.less returned asks
        rw [length_cons] at enough
        obtain ⟨calls, final, sized, onward, complete⟩ :=
          ih lighter.stocked (Or.inl returned) others (by omega)
        refine ⟨(size, receives) :: calls, final, ?_, ?_, complete⟩
        · exact cons_prefix_cons.mpr ⟨rfl, sized⟩
        · exact run_append.mpr ⟨next, ran, onward⟩
      · refine ⟨[(size, receives)], next, ?_, ?_, finished⟩
        · exact cons_prefix_cons.mpr ⟨rfl, nil_prefix⟩
        · exact run_append.mpr ⟨next, ran, rfl⟩
    · exact ⟨[], state, nil_prefix, rfl, le_antisymm stocked.sound.held.next done⟩

section
variable {next : UploadState ρ} {seq : Nat} (sound : Sound payloads state)
include sound

theorem Present.step {event : UploadEvent ρ} (admissible : Admissible payloads state event)
    (stepped : uploadStep state event = some next) (present : Present state.queue seq) :
    Present next.queue seq := by
  cases moves_of_step sound.held admissible stepped with
  | pushed packet =>
    refine present.imp id fun ⟨other, member, same⟩ => ⟨other, ?_, same⟩
    change other ∈ state.queue.heap.toList ++ (state.queue.pushedPackets ++ [packet])
    rw [← append_assoc]
    exact mem_append_left _ member
  | waits size idle none => exact present
  | reads size turn idle some outcome =>
    rw [turn_queue]
    exact present.outcome sound.held outcome
  | receives size first packet rest turn waiting front outcome =>
    have held : Held payloads (UploadReassembly.moved state.queue packet rest) := sound.held.moved front
    rw [turn_queue]
    exact (present.moved front).outcome held outcome

theorem present_of_pushed {packet : Packet ρ}
    (admissible : Admissible payloads state (.push packet))
    (stepped : uploadStep state (.push packet) = some next) : Present next.queue packet.seq := by
  cases moves_of_step sound.held admissible stepped with
  | pushed packet =>
    refine Or.inr ⟨packet, ?_, rfl⟩
    change packet ∈ state.queue.heap.toList ++ (state.queue.pushedPackets ++ [packet])
    simp

/-- What was pushed in a run is finished or waits. -/
theorem present_run {final : UploadState ρ} {events : List (UploadEvent ρ)}
    (admissible : Along uploadStep (Admissible payloads) state events)
    (ran : run uploadStep state events = some final)
    (pushed : Present state.queue seq ∨ ∃ packet, .push packet ∈ events ∧ packet.seq = seq) :
    Present final.queue seq := by
  induction events generalizing state with
  | nil =>
    cases ran
    rcases pushed with present | ⟨packet, member, -⟩
    · exact present
    · cases member
  | cons event rest ih =>
    obtain ⟨next, stepped, onward⟩ := run_cons.mp ran
    refine ih (sound.step admissible.1 stepped) (admissible.2 next stepped) onward ?_
    rcases pushed with present | ⟨packet, member, same⟩
    · exact Or.inl (present.step sound admissible.1 stepped)
    · rcases mem_cons.mp member with rfl | later
      · exact Or.inl (same ▸ present_of_pushed sound admissible.1 stepped)
      · exact Or.inr ⟨packet, later, same⟩

end

/-- For every interleaving of pushes, calls and receives in which no more than `maxPackets`
packets wait: every call returns bytes; when all packets are finished, the bytes are the
payloads in order if and only if no read finished a copy while another one had been begun; and
once every packet has been pushed, calls of any positive sizes finish the upload. -/
theorem reassembly_iff (payloads : List Bytes) (maxPackets : Nat) (events : List (UploadEvent ρ))
    (state : UploadState ρ)
    (admissible : Along uploadStep (Admissible payloads) (initialUpload maxPackets) events)
    (ran : run uploadStep (initialUpload maxPackets) events = some state) :
    (∀ result ∈ state.returned, ∃ data, result = .bytes data) ∧
    (state.queue.nextSeq = payloads.length →
      (state.output = payloads.flatten ↔
        Along uploadStep (Clean payloads) (initialUpload maxPackets) events)) ∧
    ((∀ seq < payloads.length, ∃ packet, .push packet ∈ events ∧ packet.seq = seq) →
      ∀ sizes : List Nat, (∀ size ∈ sizes, 0 < size) → weight state.queue ≤ sizes.length →
        ∃ receives calls final, (calls.map Prod.fst) <+: sizes ∧
          run uploadStep state (List.replicate receives .receive ++ readEvents calls) = some final ∧
          final.queue.nextSeq = payloads.length) := by
  have start : Sound payloads (initialUpload maxPackets : UploadState ρ) :=
    sound_initial payloads maxPackets
  have sound : Sound payloads state := sound_run admissible ran
  refine ⟨sound.answered, output_iff admissible ran, fun pushed sizes positive enough => ?_⟩
  have stocked : Stocked payloads state :=
    ⟨sound, fun seq inside => present_run start admissible ran (Or.inr (pushed seq inside))⟩
  have ready : ∃ receives next, run uploadStep state (replicate receives .receive) = some next ∧
      Stocked payloads next ∧ weight next.queue ≤ weight state.queue ∧
      (next.call = none ∨ next.queue.nextSeq = payloads.length) := by
    cases call : state.call with
    | none => exact ⟨0, state, rfl, stocked, Nat.le_refl _, Or.inl call⟩
    | some wait =>
      rcases Nat.lt_or_ge state.queue.nextSeq payloads.length with more | done
      · obtain ⟨receives, next, went, lighter, ended⟩ := stocked.settles call more
        exact ⟨receives, next, went, lighter.stocked, lighter.most, ended⟩
      · exact ⟨0, state, rfl, stocked, Nat.le_refl _, Or.inr (le_antisymm sound.held.next done)⟩
  obtain ⟨receives, next, went, readyStock, most, ended⟩ := ready
  obtain ⟨calls, final, sized, onward, complete⟩ :=
    readyStock.finishes ended positive (most.trans enough)
  exact ⟨receives, calls, final, sized, run_append.mpr ⟨next, went, onward⟩, complete⟩

/-! ## Runs that are clean -/

theorem frontOf_subperm {next rounds : Nat} {heap left : UploadHeap ρ} {packet : Packet ρ}
    (front : frontOf next rounds heap = some (packet, left)) :
    (packet :: left.toList).Subperm heap.toList := by
  induction rounds generalizing heap with
  | zero => cases front
  | succ rounds ih =>
    rw [frontOf] at front
    cases popped : heap.pop with
    | none =>
      rw [popped] at front
      cases front
    | some found =>
      have perm := (Heap.pop_perm popped).symm
      rw [popped] at front
      dsimp only at front
      split at front
      · exact (ih front).trans ((sublist_cons_self _ _).subperm.trans perm.subperm)
      · cases front
        exact perm.subperm

/-- Of two copies of a packet neither has been begun. -/
def Untouched (payloads : List Bytes) (queue : UploadQueue ρ) : Prop :=
  ∀ packet other, [packet, other].Subperm (waitingPackets queue) → packet.seq = other.seq →
    payloads[other.seq]? = some other.payload

theorem Untouched.apart {queue : UploadQueue ρ} (untouched : Untouched payloads queue) :
    Apart payloads queue size := by
  rintro packet left ⟨front, next, -⟩ other member same
  have pair : [packet, other].Subperm (packet :: left.toList) :=
    (subperm_cons packet).mpr (singleton_subperm_iff.mpr member)
  exact untouched packet other
    (pair.trans ((frontOf_subperm front).trans (sublist_append_left _ _).subperm)) (next.trans same.symm)

theorem waitingPackets_moved {queue : UploadQueue ρ} {packet : Packet ρ} {rest : List (Packet ρ)}
    (front : queue.pushedPackets = packet :: rest) :
    (waitingPackets (moved queue packet rest)).Perm (waitingPackets queue) := by
  rw [waitingPackets, waitingPackets, front]
  exact ((Heap.push_perm _ _).append_right rest).trans perm_middle.symm

theorem Untouched.clean {event : UploadEvent ρ} (untouched : Untouched payloads state.queue) :
    Clean payloads state event := by
  intro started here
  cases event with
  | push packet => cases here
  | call size =>
    rw [reading] at here
    split at here <;> cases here
    exact untouched.apart
  | receive =>
    unfold reading at here
    dsimp only at here
    split at here
    case h_1 size first packet rest call front =>
      cases here
      exact Untouched.apart fun packet other pair =>
        untouched packet other (pair.trans (waitingPackets_moved front).subperm)
    case h_2 => cases here

/-- The buffer that is read into takes every payload. -/
def Roomy (payloads : List Bytes) (state : UploadState ρ) (event : UploadEvent ρ) : Prop :=
  ∀ started ∈ reading state event, ∀ payload ∈ payloads, payload.length ≤ started.2

/-- The numbers of the packets that wait. -/
def numbers (queue : UploadQueue ρ) : List Nat := (waitingPackets queue).map Packet.seq

/-- The numbers of the packets that the events push. -/
def pushedNumbers (events : List (UploadEvent ρ)) : List Nat :=
  events.filterMap fun
    | .push packet => some packet.seq
    | _ => none

section
variable {queue : UploadQueue ρ} {turn : Turn ρ} (held : Held payloads queue)
  (outcome : Outcome queue size turn)
include held outcome

theorem numbers_outcome : (numbers (Turn.queue turn)).Subperm (numbers queue) := by
  have heap : ((Turn.queue turn).heap.toList.map Packet.seq).Subperm
      (queue.heap.toList.map Packet.seq) := by
    cases outcome with
    | @drained left stale none =>
      change (left.toList.map Packet.seq).Subperm _
      rw [none]
      exact nil_subperm
    | @partly stale rest packet left heap old next more back =>
      have kept := (sublist_append_right stale (packet :: rest)).map Packet.seq
      exact (back.map Packet.seq).subperm.trans (kept.subperm.trans (heap.map _).symm.subperm)
    | @finished stale rest packet left heap old next all kept =>
      have fewer := ((sublist_cons_self packet rest).trans (sublist_append_right stale _)).map Packet.seq
      exact (kept.map Packet.seq).subperm.trans (fewer.subperm.trans (heap.map _).symm.subperm)
    | @ahead stale rest left heap old later kept =>
      have fewer := (sublist_append_right stale rest).map Packet.seq
      exact (kept.map Packet.seq).subperm.trans (fewer.subperm.trans (heap.map _).symm.subperm)
    | large many fewer =>
      have waiting := held.waiting
      exact absurd many (by omega)
  rw [numbers, numbers, waitingPackets, waitingPackets, channel_outcome outcome, map_append, map_append]
  exact (subperm_append_right _).mpr heap

/-- A buffer that takes every payload leaves no copy begun. -/
theorem whole_outcome (roomy : ∀ payload ∈ payloads, payload.length ≤ size)
    (whole : ∀ packet ∈ waitingPackets queue, payloads[packet.seq]? = some packet.payload) :
    ∀ packet ∈ waitingPackets (Turn.queue turn), payloads[packet.seq]? = some packet.payload := by
  have inside : (Turn.queue turn).heap.toList ⊆ queue.heap.toList := by
    cases outcome with
    | drained stale none =>
      intro packet member
      exact absurd (none ▸ member) not_mem_nil
    | @partly stale rest packet left heap old next more back =>
      have here : packet ∈ queue.heap.toList := heap.mem_iff.mpr (by simp)
      have fits := roomy _ (mem_of_getElem? (whole packet (mem_append_left _ here)))
      omega
    | @finished stale rest packet left heap old next all kept =>
      exact fun other member => heap.mem_iff.mpr (by simp [kept.mem_iff.mp member])
    | @ahead stale rest left heap old later kept =>
      exact fun other member => heap.mem_iff.mpr (by simp [kept.mem_iff.mp member])
    | large many fewer =>
      have waiting := held.waiting
      exact absurd many (by omega)
  intro packet member
  rw [waitingPackets, channel_outcome outcome] at member
  exact whole packet (mem_append.mpr ((mem_append.mp member).imp_left fun here => inside here))

end

theorem nodup_of_subperm {fewer others : List Nat} (within : fewer.Subperm others)
    (distinct : others.Nodup) : fewer.Nodup := by
  obtain ⟨middle, perm, sublist⟩ := within
  exact perm.nodup_iff.mp (distinct.sublist sublist)

section
variable {event : UploadEvent ρ} {next : UploadState ρ} (sound : Sound payloads state)
  (admissible : Admissible payloads state event) (stepped : uploadStep state event = some next)
include sound admissible stepped

theorem numbers_step :
    (numbers next.queue).Subperm (numbers state.queue ++ pushedNumbers [event]) := by
  cases moves_of_step sound.held admissible stepped with
  | pushed packet =>
    refine Perm.subperm (Perm.of_eq ?_)
    simp [numbers, waitingPackets, pushedNumbers]
  | waits size idle none => exact (sublist_append_left _ _).subperm
  | reads size turn idle some outcome =>
    rw [turn_queue]
    exact (numbers_outcome sound.held outcome).trans (sublist_append_left _ _).subperm
  | receives size first packet rest turn waiting front outcome =>
    rw [turn_queue]
    have same := (waitingPackets_moved front).map Packet.seq
    exact (numbers_outcome (sound.held.moved front) outcome).trans
      (same.subperm.trans (sublist_append_left _ _).subperm)

theorem whole_step (roomy : Roomy payloads state event)
    (whole : ∀ packet ∈ waitingPackets state.queue, payloads[packet.seq]? = some packet.payload) :
    ∀ packet ∈ waitingPackets next.queue, payloads[packet.seq]? = some packet.payload := by
  cases moves_of_step sound.held admissible stepped with
  | pushed packet =>
    change ∀ other ∈ state.queue.heap.toList ++ (state.queue.pushedPackets ++ [packet]), _
    rw [← append_assoc]
    exact forall_mem_append.mpr ⟨whole, forall_mem_singleton.mpr admissible.1.2⟩
  | waits size idle none => exact whole
  | reads size turn idle present outcome =>
    rw [turn_queue]
    have started : reading state (.call size) = some (state.queue, size) := by
      rw [reading, idle]
      rfl
    exact whole_outcome sound.held outcome (roomy _ started) whole
  | receives size first packet rest turn waiting front outcome =>
    rw [turn_queue]
    have started : reading state .receive = some (moved state.queue packet rest, size) := by
      rw [reading, waiting, front]
    exact whole_outcome (sound.held.moved front) outcome (roomy _ started) fun other member =>
      whole other ((waitingPackets_moved front).mem_iff.mp member)

end

section
variable {events : List (UploadEvent ρ)} (sound : Sound payloads state)
  (admissible : Along uploadStep (Admissible payloads) state events)
include sound admissible

/-- No packet is pushed twice. -/
theorem clean_of_pushed_once (once : (numbers state.queue ++ pushedNumbers events).Nodup) :
    Along uploadStep (Clean payloads) state events := by
  induction events generalizing state with
  | nil => trivial
  | cons event rest ih =>
    have split : pushedNumbers (event :: rest) = pushedNumbers [event] ++ pushedNumbers rest :=
      filterMap_append (l := [event])
    rw [split, ← append_assoc] at once
    refine ⟨Untouched.clean fun packet other pair same => ?_, fun next stepped => ?_⟩
    · obtain ⟨middle, perm, sublist⟩ := pair
      have distinct := once.sublist ((sublist.map Packet.seq).trans
        ((sublist_append_left _ _).trans (sublist_append_left _ _)))
      have two := (perm.map Packet.seq).nodup_iff.mp distinct
      simp [same] at two
    · refine ih (sound.step admissible.1 stepped) (admissible.2 next stepped) ?_
      have fewer := numbers_step sound admissible.1 stepped
      exact nodup_of_subperm ((subperm_append_right _).mpr fewer) once

/-- Every buffer takes every payload, so no copy is ever begun. -/
theorem clean_of_roomy (roomy : Along uploadStep (Roomy payloads) state events)
    (whole : ∀ packet ∈ waitingPackets state.queue, payloads[packet.seq]? = some packet.payload) :
    Along uploadStep (Clean payloads) state events := by
  induction events generalizing state with
  | nil => trivial
  | cons event rest ih =>
    refine ⟨Untouched.clean fun packet other pair same => whole other (pair.subset (by simp)),
      fun next stepped => ?_⟩
    exact ih (sound.step admissible.1 stepped) (admissible.2 next stepped) (roomy.2 next stepped)
      (whole_step sound admissible.1 stepped roomy.1 whole)

end

/-! ## Copies that are read in parts -/

instance [DecidableEq ρ] (payloads : List Bytes) (state : UploadState ρ) (event : UploadEvent ρ) :
    Decidable (Admissible payloads state event) := by
  cases event <;> unfold Admissible
  · unfold Whole
    infer_instance
  · infer_instance
  · infer_instance

instance (payloads : List Bytes) (state : UploadState ρ) (event : UploadEvent ρ) :
    Decidable (Clean payloads state event) :=
  decidable_of_iff (∀ started ∈ reading state event,
    ∀ found ∈ frontOf started.1.nextSeq started.1.heap.size started.1.heap,
      found.1.seq = started.1.nextSeq → found.1.payload.length ≤ started.2 →
        ∀ other ∈ found.2.toList, other.seq = started.1.nextSeq →
          payloads[other.seq]? = some other.payload)
    (forall₂_congr fun _ _ => ⟨fun apart packet left finishes =>
      apart (packet, left) finishes.1 finishes.2.1 finishes.2.2,
      fun apart found front next all => apart found.1 found.2 ⟨front, next, all⟩⟩)

/-- Packets `[1]` and `[2, 3]`, the second one sent twice, and reads of one byte. -/
def resent : List (UploadEvent Unit) :=
  [.push ⟨none, [2, 3], 1⟩, .push ⟨none, [2, 3], 1⟩, .push ⟨none, [1], 0⟩, .call 1, .receive, .receive,
    .receive, .call 1, .call 1, .call 1]

/-- The heap prefers the untouched copy to the one that was begun, and the byte 2 comes twice. -/
theorem resent_repeated :
    Along uploadStep (Admissible [[1], [2, 3]]) (initialUpload 3) resent ∧
      ∃ state, run uploadStep (initialUpload 3) resent = some state ∧ state.queue.nextSeq = 2 ∧
        state.output = [1, 2, 2, 3] ∧ state.output ≠ [[1], [2, 3]].flatten := by
  refine ⟨by decide +kernel, ?_⟩
  have outputs : (run uploadStep (initialUpload 3) resent).map
      (fun state => (state.queue.nextSeq, state.output)) = some (2, [1, 2, 2, 3]) := by
    decide +kernel
  obtain ⟨state, ran, same⟩ := Option.map_eq_some_iff.mp outputs
  obtain ⟨next, output⟩ := Prod.mk.inj same
  exact ⟨state, ran, next, output, by rw [output]; decide⟩

/-- The same packets read whole. -/
def resentWhole : List (UploadEvent Unit) :=
  [.push ⟨none, [2, 3], 1⟩, .push ⟨none, [2, 3], 1⟩, .push ⟨none, [1], 0⟩, .call 2, .receive, .receive,
    .receive, .call 2]

theorem reassembly_iff_whole :
    ∃ state, run uploadStep (initialUpload 3) resentWhole = some state ∧
      Along uploadStep (Clean [[1], [2, 3]]) (initialUpload 3) resentWhole ∧
      state.output = [[1], [2, 3]].flatten := by
  have admissible : Along uploadStep (Admissible [[1], [2, 3]]) (initialUpload 3) resentWhole := by
    decide +kernel
  have clean : Along uploadStep (Clean [[1], [2, 3]]) (initialUpload 3) resentWhole := by
    decide +kernel
  have nexts : (run uploadStep (initialUpload 3) resentWhole).map (fun state => state.queue.nextSeq) =
      some 2 := by
    decide +kernel
  obtain ⟨state, ran, complete⟩ := Option.map_eq_some_iff.mp nexts
  exact ⟨state, ran, clean,
    ((reassembly_iff [[1], [2, 3]] 3 resentWhole state admissible ran).2.1 complete).mpr clean⟩

end AmneziaBox.Guarantees.UploadReassembly
