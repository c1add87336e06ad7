import AmneziaBox.Source.XHTTP.UploadQueue
import Mathlib.Algebra.Order.BigOperators.Group.List

/-!
# Reassembly of uploads

A packet that is read in parts goes back to the heap with the rest of its payload, beside any
other copy of it. The heap does not prefer one copy over another, so a later read may begin a
second copy, and its bytes come twice.

The bytes that a run returns are counted: those of the finished packets, those already taken
from copies of the next one, and the excess. The excess never shrinks, and it grows when a copy
is finished while another copy of the packet has been begun. So a run that finishes all packets
returns exactly the payloads if and only if a copy that is finished is always the only one that
may have been begun. If every packet is pushed, reading goes on to that end.
-/
namespace AmneziaBox.Guarantees.UploadReassembly
open Library Source.XHTTP Heap List
open UploadQueue

variable {ρ : Type}

/-! ## What a part of a call can do -/

/-- The first packet of the heap that is not stale, and the heap without it and the stale ones
before it. -/
def frontOf (next : Nat) : Nat → UploadHeap ρ → Option (Packet ρ × UploadHeap ρ)
  | 0, _ => none
  | rounds + 1, heap =>
    match heap.pop with
    | none => none
    | some (packet, left) =>
      if packet.seq < next then frontOf next rounds left else some (packet, left)

/-- A read into a buffer of the size finishes the packet: it is the next one, it is in front, and
the buffer takes what is left of it. -/
def Finishes (queue : UploadQueue ρ) (size : Nat) (packet : Packet ρ) (left : UploadHeap ρ) : Prop :=
  frontOf queue.nextSeq queue.heap.size queue.heap = some (packet, left) ∧
    packet.seq = queue.nextSeq ∧ packet.payload.length ≤ size

/-- The loop drops stale packets and then takes from a copy of the next packet, finds only
later ones, or finds nothing. -/
inductive Outcome (queue : UploadQueue ρ) (size : Nat) : Turn ρ → Prop where
  | drained {left : UploadHeap ρ} (stale : ∀ packet ∈ queue.heap.toList, packet.seq < queue.nextSeq)
      (none : left.toList = []) (unfinished : ∀ found left, ¬Finishes queue size found left) :
      Outcome queue size (.done (.bytes []) { queue with heap := left })
  | partly {stale rest : List (Packet ρ)} {packet : Packet ρ} {left : UploadHeap ρ}
      (heap : queue.heap.toList.Perm (stale ++ packet :: rest))
      (old : ∀ other ∈ stale, other.seq < queue.nextSeq) (next : packet.seq = queue.nextSeq)
      (more : size < packet.payload.length)
      (back : left.toList.Perm ({ packet with payload := packet.payload.drop size } :: rest))
      (unfinished : ∀ found left, ¬Finishes queue size found left) :
      Outcome queue size (.done (.bytes (packet.payload.take size)) { queue with heap := left })
  | finished {stale rest : List (Packet ρ)} {packet : Packet ρ} {left : UploadHeap ρ}
      (heap : queue.heap.toList.Perm (stale ++ packet :: rest))
      (old : ∀ other ∈ stale, other.seq < queue.nextSeq) (next : packet.seq = queue.nextSeq)
      (all : packet.payload.length ≤ size) (kept : left.toList.Perm rest)
      (finishes : Finishes queue size packet left) :
      Outcome queue size
        (.done (.bytes packet.payload) { queue with heap := left, nextSeq := queue.nextSeq + 1 })
  | ahead {stale rest : List (Packet ρ)} {left : UploadHeap ρ}
      (heap : queue.heap.toList.Perm (stale ++ rest))
      (old : ∀ other ∈ stale, other.seq < queue.nextSeq)
      (later : ∀ packet ∈ rest, queue.nextSeq < packet.seq) (kept : left.toList.Perm rest)
      (unfinished : ∀ found left, ¬Finishes queue size found left) :
      Outcome queue size (.waiting false { queue with heap := left })
  | large {left : UploadHeap ρ} (many : queue.maxPackets < left.size)
      (fewer : left.size < queue.heap.size) (unfinished : ∀ found left, ¬Finishes queue size found left) :
      Outcome queue size (.done .tooLarge { queue with heap := left })

theorem size_eq (heap : UploadHeap ρ) : heap.size = heap.toList.length := rfl

theorem size_of_perm {heap left : UploadHeap ρ} {packet : Packet ρ}
    (popped : heap.toList.Perm (packet :: left.toList)) : heap.size = left.size + 1 := by
  rw [size_eq, popped.length_eq, length_cons, size_eq]

section
variable {queue : UploadQueue ρ} {size : Nat} {packet : Packet ρ} {left : UploadHeap ρ}
  (popped : queue.heap.pop = some (packet, left))
include popped

theorem frontOf_pop : frontOf queue.nextSeq queue.heap.size queue.heap =
    if packet.seq < queue.nextSeq then frontOf queue.nextSeq left.size left
    else some (packet, left) := by
  rw [size_of_perm (pop_perm popped), frontOf, popped]

/-- A stale packet at the front changes nothing but the heap. -/
theorem Outcome.after_stale {turn : Turn ρ} (stale : packet.seq < queue.nextSeq)
    (outcome : Outcome { queue with heap := left } size turn) : Outcome queue size turn := by
  have perm := pop_perm popped
  have grown := size_of_perm perm
  have front := frontOf_pop popped
  rw [if_pos stale] at front
  have unfinished (others : ∀ found rest, ¬Finishes { queue with heap := left } size found rest)
      (found : Packet ρ) (rest : UploadHeap ρ) : ¬Finishes queue size found rest := by
    rintro ⟨here, next, all⟩
    exact others found rest ⟨front.symm.trans here, next, all⟩
  cases outcome with
  | drained others empty none =>
    refine .drained (fun other member => ?_) empty (unfinished none)
    rcases mem_cons.mp (perm.mem_iff.mp member) with rfl | inside
    · exact stale
    · exact others other inside
  | partly heap old next more back none =>
    exact .partly (perm.trans (heap.cons packet)) (forall_mem_cons.mpr ⟨stale, old⟩) next more back
      (unfinished none)
  | finished heap old next all kept finishes =>
    exact .finished (perm.trans (heap.cons packet)) (forall_mem_cons.mpr ⟨stale, old⟩) next all kept
      ⟨front.trans finishes.1, finishes.2⟩
  | ahead heap old later kept none =>
    exact .ahead (perm.trans (heap.cons packet)) (forall_mem_cons.mpr ⟨stale, old⟩) later kept
      (unfinished none)
  | large many fewer none => exact .large many (lt_trans fewer (by dsimp only; omega)) (unfinished none)

end

theorem Outcome.empty {size : Nat} {queue : UploadQueue ρ} (none : queue.heap.toList = []) :
    Outcome queue size (.done (.bytes []) queue) := by
  refine .drained (by rw [none]; nofun) none ?_
  rintro found left ⟨front, -⟩
  rw [size_eq, none] at front
  cases front

theorem readLoop_outcome {size rounds : Nat} {queue : UploadQueue ρ}
    (enough : queue.heap.size ≤ rounds) : Outcome queue size (readLoop size rounds queue) := by
  induction rounds generalizing queue with
  | zero => exact .empty (length_eq_zero_iff.mp (Nat.le_zero.mp enough))
  | succ rounds ih =>
    unfold readLoop
    cases popped : queue.heap.pop with
    | none => exact .empty (pop_eq_none.mp popped)
    | some found =>
      obtain ⟨packet, heap⟩ := found
      have perm : queue.heap.toList.Perm ([] ++ packet :: heap.toList) := pop_perm popped
      have grown := size_of_perm perm
      have front := frontOf_pop popped
      dsimp only
      by_cases next : packet.seq = queue.nextSeq
      · rw [if_pos next]
        rw [if_neg (by omega)] at front
        by_cases more : size < packet.payload.length
        · rw [if_pos (by omega), Nat.min_eq_left more.le]
          refine .partly perm nofun next more (push_perm _ _) ?_
          rintro found left ⟨here, -, all⟩
          cases front.symm.trans here
          omega
        · rw [if_neg (by omega), Nat.min_eq_right (by omega), take_length, next]
          have all := Nat.le_of_not_lt more
          exact .finished perm nofun next all (List.Perm.refl _) ⟨front, next, all⟩
      rw [if_neg next]
      by_cases later : queue.nextSeq < packet.seq
      · rw [if_pos later]
        rw [if_neg (by omega)] at front
        have unfinished (found : Packet ρ) (left : UploadHeap ρ) :
            ¬Finishes queue size found left := by
          rintro ⟨here, same, -⟩
          cases front.symm.trans here
          exact next same
        by_cases many : queue.maxPackets < heap.size
        · rw [if_pos many]
          exact .large many (by omega) unfinished
        · rw [if_neg many]
          refine .ahead perm nofun (fun other member => ?_) (push_perm _ _) unfinished
          exact lt_of_lt_of_le later (pop_least popped (perm.mem_iff.mpr member))
      · rw [if_neg later]
        exact (ih (by dsimp only; omega)).after_stale popped (by omega)

/-! ## What the queue holds -/

section Payloads

variable (payloads : List Bytes)

/-- The rest of a payload. Only copies of packets up to the next one have been begun, and none
of them is left without bytes. -/
def Part (next : Nat) (packet : Packet ρ) : Prop :=
  ∃ whole, payloads[packet.seq]? = some whole ∧ packet.payload <:+ whole ∧
    (packet.payload ≠ whole → packet.payload ≠ [] ∧ packet.seq ≤ next)

/-- A packet as it is pushed. -/
def Whole (packet : Packet ρ) : Prop :=
  packet.reader = none ∧ payloads[packet.seq]? = some packet.payload

structure Held (queue : UploadQueue ρ) : Prop where
  plain : queue.reader = none ∧ queue.nomore = false ∧ queue.closed = false
  channel : ∀ packet ∈ queue.pushedPackets, Whole payloads packet
  heap : ∀ packet ∈ queue.heap.toList, Part payloads queue.nextSeq packet
  waiting : queue.heap.size + queue.pushedPackets.length ≤ queue.maxPackets
  next : queue.nextSeq ≤ payloads.length

variable {payloads} {next : Nat} {packet : Packet ρ}

theorem Whole.part (whole : Whole payloads packet) : Part payloads next packet :=
  ⟨packet.payload, whole.2, suffix_refl _, fun differs => absurd rfl differs⟩

theorem Part.mono {later : Nat} (part : Part payloads next packet) (le : next ≤ later) :
    Part payloads later packet := by
  obtain ⟨whole, found, suffix, begun⟩ := part
  exact ⟨whole, found, suffix, fun differs => ⟨(begun differs).1, (begun differs).2.trans le⟩⟩

variable {size : Nat}

theorem Part.drop (part : Part payloads next packet) (more : size < packet.payload.length)
    (le : packet.seq ≤ next) :
    Part payloads next { packet with payload := packet.payload.drop size } := by
  obtain ⟨whole, found, suffix, -⟩ := part
  refine ⟨whole, found, (drop_suffix _ _).trans suffix, fun _ => ⟨?_, le⟩⟩
  intro empty
  have length := congrArg length empty
  rw [length_drop] at length
  exact absurd length (by simp only [length_nil]; omega)

def Turn.queue : Turn ρ → UploadQueue ρ
  | .done _ queue => queue
  | .waiting _ queue => queue

/-- The bytes that a part of a call returns. -/
def Turn.data : Turn ρ → Bytes
  | .done result _ => result.data
  | .waiting _ _ => []

variable {queue : UploadQueue ρ}

theorem Held.room (held : Held payloads queue) {left : UploadHeap ρ} {stale rest : List (Packet ρ)}
    (heap : queue.heap.toList.Perm (stale ++ rest)) (fewer : left.toList.length ≤ rest.length) :
    left.size + queue.pushedPackets.length ≤ queue.maxPackets := by
  have waiting := held.waiting
  rw [size_eq, heap.length_eq, length_append] at waiting
  rw [size_eq]
  omega

/-- The heap of a queue loses the stale packets and keeps the others. -/
theorem Held.outcome (held : Held payloads queue) {turn : Turn ρ}
    (outcome : Outcome queue size turn) : Held payloads (Turn.queue turn) := by
  have all := held.heap
  have waiting := held.waiting
  have channel := held.channel
  cases outcome with
  | @drained left stale none =>
    refine ⟨held.plain, held.channel, ?_, ?_, held.next⟩
    · change ∀ packet ∈ left.toList, _
      rw [none]
      nofun
    · change left.toList.length + _ ≤ _
      rw [none]
      exact le_trans (by simp [Turn.queue]) waiting
  | @partly stale rest packet left heap old next more back =>
    have parts := fun other member => all other (heap.mem_iff.mpr member)
    refine ⟨held.plain, held.channel, fun other member => ?_, held.room heap back.length_eq.le,
      held.next⟩
    rcases List.mem_cons.mp (back.mem_iff.mp member) with rfl | kept
    · exact (parts packet (by simp)).drop more next.le
    · exact parts other (by simp [kept])
  | @finished stale rest packet left heap old next enough kept =>
    have parts := fun other member => all other (heap.mem_iff.mpr member)
    refine ⟨held.plain, held.channel, fun other member => ?_,
      held.room heap (kept.length_eq.le.trans (Nat.le_succ _)), ?_⟩
    · exact (parts other (by simp [kept.mem_iff.mp member])).mono (Nat.le_succ _)
    · obtain ⟨whole, found, -⟩ := parts packet (by simp)
      obtain ⟨inside, -⟩ := List.getElem?_eq_some_iff.mp found
      rw [next] at inside
      exact inside
  | @ahead stale rest left heap old later kept =>
    refine ⟨held.plain, held.channel, fun packet member => ?_, held.room heap kept.length_eq.le,
      held.next⟩
    exact all packet (heap.mem_iff.mpr (List.mem_append_right _ (kept.mem_iff.mp member)))
  | large many fewer => exact absurd many (by omega)

variable {rest : List (Packet ρ)}

/-- The packet that is received goes from the channel to the heap. -/
theorem Held.moved (held : Held payloads queue)
    (front : queue.pushedPackets = packet :: rest) :
    Held payloads { queue with pushedPackets := rest, heap := queue.heap.push packet } := by
  have perm := push_perm queue.heap packet
  have channel := held.channel
  have waiting := held.waiting
  rw [front] at channel waiting
  obtain ⟨whole, others⟩ := forall_mem_cons.mp channel
  refine ⟨held.plain, others, fun other member => ?_, ?_, held.next⟩
  · rcases mem_cons.mp (perm.mem_iff.mp member) with rfl | old
    · exact whole.part
    · exact held.heap other old
  · change (queue.heap.push packet).toList.length + rest.length ≤ queue.maxPackets
    rw [perm.length_eq]
    rw [length_cons, size_eq] at waiting
    rw [length_cons]
    omega

/-! ## Counting -/

variable (payloads) in
/-- How much of its payload was already taken from a copy. -/
def begun (packet : Packet ρ) : Nat := (payloads.getD packet.seq []).length - packet.payload.length

variable (payloads) in
/-- What was taken from the packets whose numbers are selected. -/
def taken (select : Nat → Prop) [DecidablePred select] (packets : List (Packet ρ)) : Nat :=
  ((packets.filter fun packet => select packet.seq).map (begun payloads)).sum

variable {others : List (Packet ρ)}

section Taken

variable {select : Nat → Prop} [DecidablePred select] {packets : List (Packet ρ)}

theorem taken_perm (perm : packets.Perm others) :
    taken payloads select packets = taken payloads select others :=
  ((perm.filter _).map _).sum_eq

theorem taken_append :
    taken payloads select (packets ++ others) =
      taken payloads select packets + taken payloads select others := by
  simp [taken]

theorem taken_cons {packet : Packet ρ} :
    taken payloads select (packet :: packets) =
      (if select packet.seq then begun payloads packet else 0) + taken payloads select packets := by
  unfold taken
  by_cases selected : select packet.seq
  · simp [selected]
  · simp [selected]

theorem taken_eq_zero :
    taken payloads select packets = 0 ↔
      ∀ packet ∈ packets, select packet.seq → begun payloads packet = 0 := by
  unfold taken
  simp only [sum_eq_zero_iff, mem_map, mem_filter, decide_eq_true_eq]
  constructor
  · intro zero packet member selected
    exact zero _ ⟨packet, ⟨member, selected⟩, rfl⟩
  · rintro zero _ ⟨packet, ⟨member, selected⟩, rfl⟩
    exact zero packet member selected

end Taken

theorem Part.begun_eq (part : Part payloads next packet) :
    ∃ whole, payloads[packet.seq]? = some whole ∧ packet.payload = whole.drop (begun payloads packet) ∧
      begun payloads packet + packet.payload.length = whole.length ∧
      (0 < begun payloads packet → packet.seq ≤ next) := by
  obtain ⟨whole, found, suffix, partly⟩ := part
  have length := suffix.length_le
  have amount : begun payloads packet = whole.length - packet.payload.length := by
    rw [begun, getD_eq_getElem?_getD, found, Option.getD_some]
  refine ⟨whole, found, ?_, by omega, fun positive => ?_⟩
  · rw [amount]
    exact suffix_iff_eq_drop.mp suffix
  · refine (partly fun same => ?_).2
    rw [same] at amount
    omega

theorem Whole.begun_eq (whole : Whole payloads packet) : begun payloads packet = 0 := by
  rw [begun, getD_eq_getElem?_getD, whole.2, Option.getD_some, Nat.sub_self]

theorem begun_drop {whole : Bytes} (found : payloads[packet.seq]? = some whole)
    (amount : begun payloads packet + packet.payload.length = whole.length)
    (more : size < packet.payload.length) :
    begun payloads { packet with payload := packet.payload.drop size } =
      begun payloads packet + size := by
  simp only [begun, getD_eq_getElem?_getD, found, Option.getD_some, length_drop]
  omega

/-- The bytes returned are those of the finished packets, what was taken from the copies of the
next one, and the excess. -/
def Counted (payloads : List Bytes) (next : Nat) (packets : List (Packet ρ)) (output : Bytes)
    (excess : Nat) : Prop :=
  output.length = (payloads.take next).flatten.length + taken payloads (· = next) packets + excess

variable (payloads) in
/-- A copy that is finished is the only one of its packet that may have been begun. -/
def Apart (queue : UploadQueue ρ) (size : Nat) : Prop :=
  ∀ packet left, Finishes queue size packet left → ∀ other ∈ left.toList,
    other.seq = queue.nextSeq → payloads[other.seq]? = some other.payload

theorem flatten_take_succ {whole : Bytes} (found : payloads[next]? = some whole) :
    (payloads.take (next + 1)).flatten = (payloads.take next).flatten ++ whole := by
  rw [take_add_one, found]
  simp

variable {packets : List (Packet ρ)}

theorem taken_of_lt (old : ∀ packet ∈ packets, packet.seq < next) :
    taken payloads (· = next) packets = 0 :=
  taken_eq_zero.mpr fun packet member same => absurd same (old packet member).ne

theorem taken_of_gt (later : ∀ packet ∈ packets, next < packet.seq) :
    taken payloads (· = next) packets = 0 :=
  taken_eq_zero.mpr fun packet member same => absurd same (later packet member).ne'

theorem taken_front {stale : List (Packet ρ)}
    (heap : queue.heap.toList.Perm (stale ++ packet :: rest))
    (old : ∀ other ∈ stale, other.seq < queue.nextSeq) (next : packet.seq = queue.nextSeq) :
    taken payloads (· = queue.nextSeq) queue.heap.toList =
      begun payloads packet + taken payloads (· = queue.nextSeq) rest := by
  rw [taken_perm heap, taken_append, taken_of_lt old, taken_cons, if_pos next, Nat.zero_add]

/-- Nothing was taken yet from the copies of a packet after the next one. -/
theorem Held.taken_later (held : Held payloads queue)
    (inside : ∀ packet ∈ packets, packet ∈ queue.heap.toList) :
    taken payloads (· = queue.nextSeq + 1) packets = 0 := by
  refine taken_eq_zero.mpr fun packet member same => ?_
  obtain ⟨-, -, -, -, low⟩ := (held.heap packet (inside packet member)).begun_eq
  by_contra positive
  have bound := low (Nat.pos_of_ne_zero positive)
  omega

variable {output : Bytes} {excess : Nat}

theorem apart_of_unfinished (unfinished : ∀ found left, ¬Finishes queue size found left) :
    Apart payloads queue size :=
  fun packet left finishes => absurd finishes (unfinished packet left)

/-- Nothing was taken from the other copies of a packet that is finished. -/
theorem taken_apart_iff (held : Held payloads queue) {left : UploadHeap ρ}
    (finishes : Finishes queue size packet left)
    (inside : ∀ other ∈ left.toList, other ∈ queue.heap.toList) :
    Apart payloads queue size ↔ taken payloads (· = queue.nextSeq) left.toList = 0 := by
  have whole (other : Packet ρ) (member : other ∈ left.toList) :
      payloads[other.seq]? = some other.payload ↔ begun payloads other = 0 := by
    obtain ⟨whole, found, drop, amount, -⟩ := (held.heap other (inside other member)).begun_eq
    rw [found]
    constructor
    · intro same
      rw [← Option.some.inj same] at amount
      omega
    · intro none
      rw [none, drop_zero] at drop
      rw [drop]
  rw [taken_eq_zero]
  constructor
  · intro apart other member same
    exact (whole other member).mp (apart packet left finishes other member same)
  · rintro none found rest ⟨front, -⟩ other member same
    cases finishes.1.symm.trans front
    exact (whole other member).mpr (none other member same)

/-- The excess grows by what was taken from the other copies of a packet that is finished. -/
theorem Counted.outcome (held : Held payloads queue)
    (counted : Counted payloads queue.nextSeq queue.heap.toList output excess) {turn : Turn ρ}
    (outcome : Outcome queue size turn) :
    ∃ more, Counted payloads (Turn.queue turn).nextSeq (Turn.queue turn).heap.toList
      (output ++ Turn.data turn) (excess + more) ∧ (more = 0 → Apart payloads queue size) := by
  unfold Counted at counted
  cases outcome with
  | @drained left stale none unfinished =>
    rw [taken_of_lt stale] at counted
    refine ⟨0, show Counted payloads queue.nextSeq left.toList (output ++ []) excess from ?_,
      fun _ => apart_of_unfinished unfinished⟩
    rw [none, append_nil]
    exact counted
  | @partly stale rest packet left heap old next more back unfinished =>
    obtain ⟨whole, found, -, amount, -⟩ :=
      (held.heap packet (heap.mem_iff.mpr (by simp))).begun_eq
    have grown := begun_drop found amount more
    rw [taken_front heap old next] at counted
    refine ⟨0, show Counted payloads queue.nextSeq left.toList (output ++ packet.payload.take size)
      excess from ?_, fun _ => apart_of_unfinished unfinished⟩
    rw [Counted, taken_perm back, taken_cons, if_pos next, length_append, length_take]
    omega
  | @finished stale rest packet left heap old next enough kept finishes =>
    obtain ⟨whole, found, -, amount, -⟩ :=
      (held.heap packet (heap.mem_iff.mpr (by simp))).begun_eq
    have later := held.taken_later (fun other (member : other ∈ rest) =>
      heap.mem_iff.mpr (by simp [member]))
    rw [next] at found
    rw [taken_front heap old next] at counted
    refine ⟨taken payloads (· = queue.nextSeq) rest, ?_, fun none => ?_⟩
    · -- what was taken from the other copies is now excess
      change (output ++ packet.payload).length = (payloads.take (queue.nextSeq + 1)).flatten.length +
        taken payloads (· = queue.nextSeq + 1) left.toList + _
      rw [taken_perm kept, flatten_take_succ found, length_append, length_append]
      omega
    · refine (taken_apart_iff held finishes fun other member => ?_).mpr (by rw [taken_perm kept, none])
      exact heap.mem_iff.mpr (by simp [kept.mem_iff.mp member])
  | @ahead stale rest left heap old later kept unfinished =>
    rw [taken_perm heap, taken_append, taken_of_lt old, taken_of_gt later] at counted
    refine ⟨0, show Counted payloads queue.nextSeq left.toList (output ++ []) excess from ?_,
      fun _ => apart_of_unfinished unfinished⟩
    rw [Counted, append_nil, taken_perm kept, taken_of_gt later, counted]
  | large many fewer =>
    have waiting := held.waiting
    exact absurd many (by omega)

/-! ## The bytes themselves -/

variable (payloads) in
/-- How many copies of a packet have been begun. -/
def begunCopies (next : Nat) (packets : List (Packet ρ)) : Nat :=
  packets.countP fun packet => packet.seq = next ∧ 0 < begun payloads packet

theorem begunCopies_eq_zero :
    begunCopies payloads next packets = 0 ↔ taken payloads (· = next) packets = 0 := by
  rw [taken_eq_zero, begunCopies]
  simp

theorem begunCopies_perm (perm : packets.Perm others) :
    begunCopies payloads next packets = begunCopies payloads next others :=
  perm.countP_eq _

/-- Unless two copies of the next packet have been begun, the output is the finished packets and
what was taken from the next one. -/
def Faithful (payloads : List Bytes) (next : Nat) (packets : List (Packet ρ)) (output : Bytes) : Prop :=
  begunCopies payloads next packets ≤ 1 →
    output = (payloads.take next).flatten ++
      (payloads.getD next []).take (taken payloads (· = next) packets)

theorem Faithful.none_taken (faithful : Faithful payloads next packets output)
    (none : taken payloads (· = next) packets = 0) : output = (payloads.take next).flatten := by
  have same := faithful (by rw [begunCopies_eq_zero.mpr none]; exact Nat.zero_le _)
  rw [none] at same
  simpa using same

theorem faithful_of_none (none : taken payloads (· = next) packets = 0)
    (same : output = (payloads.take next).flatten) : Faithful payloads next packets output := by
  intro
  rw [none, same]
  simp

theorem begunCopies_cons :
    begunCopies payloads next (packet :: packets) = begunCopies payloads next packets +
      if packet.seq = next ∧ 0 < begun payloads packet then 1 else 0 := by
  unfold begunCopies
  rw [countP_cons]
  simp

theorem begunCopies_front {stale : List (Packet ρ)}
    (heap : queue.heap.toList.Perm (stale ++ packet :: rest))
    (old : ∀ other ∈ stale, other.seq < queue.nextSeq) :
    begunCopies payloads queue.nextSeq queue.heap.toList =
      begunCopies payloads queue.nextSeq (packet :: rest) := by
  have none : begunCopies payloads queue.nextSeq stale = 0 := begunCopies_eq_zero.mpr (taken_of_lt old)
  rw [begunCopies_perm heap, begunCopies, countP_append]
  change begunCopies payloads queue.nextSeq stale + begunCopies payloads queue.nextSeq _ = _
  rw [none, Nat.zero_add]

theorem Faithful.outcome (held : Held payloads queue)
    (faithful : Faithful payloads queue.nextSeq queue.heap.toList output) {turn : Turn ρ}
    (outcome : Outcome queue size turn) (apart : Apart payloads queue size) :
    Faithful payloads (Turn.queue turn).nextSeq (Turn.queue turn).heap.toList
      (output ++ Turn.data turn) := by
  cases outcome with
  | @drained left stale none =>
    refine show Faithful payloads queue.nextSeq left.toList (output ++ []) from ?_
    rw [none, append_nil]
    exact faithful_of_none rfl (faithful.none_taken (taken_of_lt stale))
  | @partly stale rest packet left heap old next more back =>
    obtain ⟨whole, found, drop, amount, -⟩ :=
      (held.heap packet (heap.mem_iff.mpr (by simp))).begun_eq
    refine show Faithful payloads queue.nextSeq left.toList (output ++ packet.payload.take size) from ?_
    have grown := begun_drop found amount more
    intro few
    rw [begunCopies_perm back, begunCopies_cons] at few
    have before : begunCopies payloads queue.nextSeq queue.heap.toList ≤ 1 := by
      rw [begunCopies_front heap old, begunCopies_cons]
      dsimp only at few
      split_ifs at few ⊢ <;> omega
    have wholly : payloads.getD queue.nextSeq [] = whole := by
      rw [getD_eq_getElem?_getD, ← next, found, Option.getD_some]
    rw [faithful before, taken_front heap old next, taken_perm back, taken_cons, if_pos next, grown,
      append_assoc, wholly]
    congr 1
    rcases Nat.eq_zero_or_pos size with rfl | positive
    · simp
    · -- this copy has been begun now, so no other one has
      rw [if_pos ⟨next, by omega⟩] at few
      have alone : begunCopies payloads queue.nextSeq rest = 0 := by omega
      have none := begunCopies_eq_zero.mp alone
      rw [none, Nat.add_zero, Nat.add_zero, take_add, ← drop]
  | @finished stale rest packet left heap old next enough kept finishes =>
    obtain ⟨whole, found, drop, amount, -⟩ :=
      (held.heap packet (heap.mem_iff.mpr (by simp))).begun_eq
    have inside : ∀ other ∈ rest, other ∈ queue.heap.toList := fun other member =>
      heap.mem_iff.mpr (by simp [member])
    have later := held.taken_later inside
    have none : taken payloads (· = queue.nextSeq) rest = 0 := by
      rw [← taken_perm kept]
      exact (taken_apart_iff held finishes fun other member =>
        inside other (kept.mem_iff.mp member)).mp apart
    have before : begunCopies payloads queue.nextSeq queue.heap.toList ≤ 1 := by
      rw [begunCopies_front heap old, begunCopies_cons, begunCopies_eq_zero.mpr none]
      split_ifs <;> omega
    have wholly : whole.take (begun payloads packet) ++ packet.payload = whole := by
      calc whole.take (begun payloads packet) ++ packet.payload
          = whole.take (begun payloads packet) ++ whole.drop (begun payloads packet) := by rw [← drop]
        _ = whole := take_append_drop _ _
    rw [next] at found
    refine show Faithful payloads (queue.nextSeq + 1) left.toList (output ++ packet.payload) from
      faithful_of_none (by rw [taken_perm kept, later]) ?_
    rw [faithful before, taken_front heap old next, none, Nat.add_zero, flatten_take_succ found,
      getD_eq_getElem?_getD, found, Option.getD_some, append_assoc, wholly]
  | @ahead stale rest left heap old later kept =>
    refine show Faithful payloads queue.nextSeq left.toList (output ++ []) from ?_
    rw [append_nil]
    refine faithful_of_none (by rw [taken_perm kept, taken_of_gt later]) (faithful.none_taken ?_)
    rw [taken_perm heap, taken_append, taken_of_lt old, taken_of_gt later]
  | large many fewer =>
    have waiting := held.waiting
    exact absurd many (by omega)

/-! ## Steps -/

/-- Pushed packets are those of the upload, and no more than `maxPackets` wait. -/
def Admissible (payloads : List Bytes) (state : UploadState ρ) : UploadEvent ρ → Prop
  | .push packet => Whole payloads packet ∧
      state.queue.heap.size + state.queue.pushedPackets.length < state.queue.maxPackets
  | _ => True

/-- The queue after a packet went from the channel to the heap. -/
def moved (queue : UploadQueue ρ) (packet : Packet ρ) (rest : List (Packet ρ)) : UploadQueue ρ :=
  { queue with pushedPackets := rest, heap := queue.heap.push packet }

/-- What an event can do. -/
inductive Moves (state : UploadState ρ) : UploadEvent ρ → UploadState ρ → Prop where
  | pushed (packet : Packet ρ) : Moves state (.push packet)
      { state with queue.pushedPackets := state.queue.pushedPackets ++ [packet] }
  | waits (size : Nat) (idle : state.call = none) (none : state.queue.heap.toList = []) :
      Moves state (.call size) { state with call := some (size, true) }
  | reads (size : Nat) (turn : Turn ρ) (idle : state.call = none)
      (some : state.queue.heap.toList ≠ []) (outcome : Outcome state.queue size turn) :
      Moves state (.call size) (state.turn size turn)
  | receives (size : Nat) (first : Bool) (packet : Packet ρ) (rest : List (Packet ρ)) (turn : Turn ρ)
      (waiting : state.call = some (size, first))
      (front : state.queue.pushedPackets = packet :: rest)
      (outcome : Outcome (moved state.queue packet rest) size turn) :
      Moves state .receive (state.turn size turn)

variable {state : UploadState ρ} {event : UploadEvent ρ} {next : UploadState ρ}

theorem moves_of_step (held : Held payloads state.queue)
    (admissible : Admissible payloads state event) (stepped : uploadStep state event = some next) :
    Moves state event next := by
  obtain ⟨⟨reader, nomore, closed⟩, channel, -⟩ := held
  cases event with
  | push packet =>
    have room : state.queue.pushedPackets.length < state.queue.maxPackets :=
      lt_of_le_of_lt (Nat.le_add_left _ _) admissible.2
    have pushes : state.queue.push packet = some (.ok { state.queue with
        pushedPackets := state.queue.pushedPackets ++ [packet] }) := by
      unfold UploadQueue.push
      rw [if_neg (by rw [closed]; decide), if_neg (by rw [nomore]; decide), if_pos room, admissible.1.1]
      simp
    rw [uploadStep, pushes] at stepped
    cases stepped
    exact .pushed packet
  | call size =>
    cases idle : state.call with
    | some call =>
      rw [uploadStep, idle] at stepped
      cases stepped
    | none =>
      rw [uploadStep, idle] at stepped
      cases stepped
      unfold UploadQueue.read
      rw [reader, closed]
      by_cases empty : state.queue.heap.size = 0
      · rw [if_pos empty]
        exact .waits size idle (length_eq_zero_iff.mp empty)
      · rw [if_neg empty]
        exact .reads size _ idle (fun none => empty (congrArg length none))
          (readLoop_outcome (Nat.le_refl _))
  | receive =>
    cases waiting : state.call with
    | none =>
      rw [uploadStep, waiting] at stepped
      cases stepped
    | some call =>
      obtain ⟨size, first⟩ := call
      rw [uploadStep, waiting] at stepped
      unfold UploadQueue.receive at stepped
      cases front : state.queue.pushedPackets with
      | nil =>
        rw [front, closed] at stepped
        cases stepped
      | cons packet rest =>
        have plain : packet.reader = none := (channel packet (by rw [front]; simp)).1
        rw [front] at stepped
        dsimp only at stepped
        rw [plain] at stepped
        have accepted : next = state.turn size
            (({ state.queue with pushedPackets := rest } : UploadQueue ρ).accept size packet) := by
          cases first <;> exact (Option.some.inj stepped).symm
        rw [accepted]
        exact .receives size first packet rest _ waiting front (readLoop_outcome (Nat.le_refl _))

/-! ## Runs -/

theorem turn_queue (state : UploadState ρ) (size : Nat) (turn : Turn ρ) :
    (state.turn size turn).queue = Turn.queue turn := by
  cases turn <;> rfl

theorem turn_output (state : UploadState ρ) (size : Nat) (turn : Turn ρ) :
    (state.turn size turn).output = state.output ++ Turn.data turn := by
  cases turn <;> simp [UploadState.turn, UploadState.output, Turn.data]

structure Sound (payloads : List Bytes) (state : UploadState ρ) : Prop where
  held : Held payloads state.queue
  ahead : state.call ≠ none → ∀ packet ∈ state.queue.heap.toList, state.queue.nextSeq < packet.seq
  answered : ∀ result ∈ state.returned, ∃ data, result = .bytes data

theorem sound_initial (payloads : List Bytes) (maxPackets : Nat) :
    Sound payloads (initialUpload maxPackets : UploadState ρ) :=
  ⟨⟨⟨rfl, rfl, rfl⟩, nofun, nofun, Nat.zero_le _, Nat.zero_le _⟩, fun waiting => absurd rfl waiting, nofun⟩

/-- The count and the order of the bytes, for one state. -/
abbrev CountedAt (payloads : List Bytes) (state : UploadState ρ) (excess : Nat) : Prop :=
  Counted payloads state.queue.nextSeq state.queue.heap.toList state.output excess

abbrev FaithfulAt (payloads : List Bytes) (state : UploadState ρ) : Prop :=
  Faithful payloads state.queue.nextSeq state.queue.heap.toList state.output

/-- A packet from the channel has not been begun. -/
theorem taken_moved (held : Held payloads queue)
    (front : queue.pushedPackets = packet :: rest) (select : Nat → Prop) [DecidablePred select] :
    taken payloads select (moved queue packet rest).heap.toList =
      taken payloads select queue.heap.toList := by
  have whole : Whole payloads packet := held.channel packet (by rw [front]; simp)
  change taken payloads select (queue.heap.push packet).toList = _
  rw [taken_perm (push_perm _ _), taken_cons, whole.begun_eq]
  simp

theorem begunCopies_moved (held : Held payloads queue)
    (front : queue.pushedPackets = packet :: rest) (next : Nat) :
    begunCopies payloads next (moved queue packet rest).heap.toList =
      begunCopies payloads next queue.heap.toList := by
  have whole : Whole payloads packet := held.channel packet (by rw [front]; simp)
  change begunCopies payloads next (queue.heap.push packet).toList = _
  rw [begunCopies_perm (push_perm _ _), begunCopies_cons, whole.begun_eq]
  simp

/-- The queue and the buffer of the part of a call that an event starts. -/
def reading (state : UploadState ρ) : UploadEvent ρ → Option (UploadQueue ρ × Nat)
  | .push _ => none
  | .call size => if state.call.isNone then some (state.queue, size) else none
  | .receive =>
    match state.call, state.queue.pushedPackets with
    | some (size, _), packet :: rest => some (moved state.queue packet rest, size)
    | _, _ => none

/-- The read that an event starts, if it finishes a copy of a packet, leaves no other copy behind
that has been begun. -/
def Clean (payloads : List Bytes) (state : UploadState ρ) (event : UploadEvent ρ) : Prop :=
  ∀ started ∈ reading state event, Apart payloads started.1 started.2

section
variable (sound : Sound payloads state)
include sound

theorem Sound.turn {turn : Turn ρ} (held : Held payloads queue) (outcome : Outcome queue size turn) :
    Sound payloads (state.turn size turn) := by
  refine ⟨by rw [turn_queue]; exact held.outcome outcome, fun waiting => ?_, ?_⟩
  · cases outcome with
    | @ahead stale rest left heap old later kept =>
      intro packet member
      exact later packet (kept.mem_iff.mp member)
    | drained | partly | finished | large => exact absurd rfl waiting
  · have answers (data : Bytes) : ∀ result ∈ state.returned ++ [Result.bytes data],
        ∃ data, result = .bytes data :=
      forall_mem_append.mpr ⟨sound.answered, forall_mem_singleton.mpr ⟨data, rfl⟩⟩
    cases outcome with
    | drained | partly | finished => exact answers _
    | ahead heap old later kept => exact sound.answered
    | large many fewer =>
      have waiting := held.waiting
      exact absurd many (by omega)

theorem Sound.step (admissible : Admissible payloads state event)
    (stepped : uploadStep state event = some next) :
    Sound payloads next := by
  have held := sound.held
  cases moves_of_step held admissible stepped with
  | pushed packet =>
    refine ⟨⟨held.plain, ?_, held.heap, ?_, held.next⟩, sound.ahead, sound.answered⟩
    · exact forall_mem_append.mpr ⟨held.channel, forall_mem_singleton.mpr admissible.1⟩
    · have room := admissible.2
      change state.queue.heap.size + (state.queue.pushedPackets ++ [packet]).length ≤
        state.queue.maxPackets
      rw [length_append, length_singleton]
      omega
  | waits size idle none =>
    refine ⟨held, fun _ packet member => ?_, sound.answered⟩
    rw [none] at member
    cases member
  | reads size turn idle some outcome => exact sound.turn held outcome
  | receives size first packet rest turn waiting front outcome =>
    exact sound.turn (held.moved front) outcome

theorem Counted.step (counted : CountedAt payloads state excess)
    (admissible : Admissible payloads state event) (stepped : uploadStep state event = some next) :
    ∃ more, CountedAt payloads next (excess + more) ∧ (more = 0 → Clean payloads state event) := by
  have held := sound.held
  cases moves_of_step held admissible stepped with
  | pushed => exact ⟨0, counted, fun _ => nofun⟩
  | waits size idle none =>
    refine ⟨0, counted, fun _ started here => ?_⟩
    rw [reading, idle] at here
    cases here
    rintro packet left ⟨front, -⟩
    rw [size_eq, none] at front
    cases front
  | reads size turn idle some outcome =>
    obtain ⟨more, after, apart⟩ := Counted.outcome held counted outcome
    refine ⟨more, by rwa [CountedAt, turn_queue, turn_output], fun zero started here => ?_⟩
    rw [reading, idle] at here
    cases here
    exact apart zero
  | receives size first packet rest turn waiting front outcome =>
    have moving : Held payloads (moved state.queue packet rest) := held.moved front
    have before : Counted payloads (moved state.queue packet rest).nextSeq
        (moved state.queue packet rest).heap.toList state.output excess := by
      rw [Counted, taken_moved held front]
      exact counted
    obtain ⟨more, after, apart⟩ := Counted.outcome moving before outcome
    refine ⟨more, by rwa [CountedAt, turn_queue, turn_output], fun zero started here => ?_⟩
    rw [reading, waiting, front] at here
    cases here
    exact apart zero

theorem Faithful.step (faithful : FaithfulAt payloads state)
    (admissible : Admissible payloads state event) (stepped : uploadStep state event = some next)
    (clean : Clean payloads state event) :
    FaithfulAt payloads next := by
  have held := sound.held
  cases moves_of_step held admissible stepped with
  | pushed | waits => exact faithful
  | reads size turn idle some outcome =>
    rw [FaithfulAt, turn_queue, turn_output]
    have apart := clean (state.queue, size) (by rw [reading, idle]; rfl)
    exact Faithful.outcome held faithful outcome apart
  | receives size first packet rest turn waiting front outcome =>
    rw [FaithfulAt, turn_queue, turn_output]
    have moving : Held payloads (moved state.queue packet rest) := held.moved front
    have apart := clean (moved state.queue packet rest, size) (by rw [reading, waiting, front]; rfl)
    refine Faithful.outcome moving (fun few => ?_) outcome apart
    rw [begunCopies_moved held front] at few
    rw [taken_moved held front]
    exact faithful few

/-- The excess of a run never shrinks, so a run without excess is clean. -/
theorem clean_of_counted {final : UploadState ρ} {events : List (UploadEvent ρ)}
    (counted : CountedAt payloads state excess)
    (admissible : Along uploadStep (Admissible payloads) state events)
    (ran : run uploadStep state events = some final) :
    ∃ more, CountedAt payloads final (excess + more) ∧
      (excess + more = 0 → Along uploadStep (Clean payloads) state events) := by
  induction events generalizing state excess with
  | nil =>
    cases ran
    exact ⟨0, counted, fun _ => trivial⟩
  | cons event rest ih =>
    obtain ⟨middle, stepped, onward⟩ := run_cons.mp ran
    obtain ⟨first, here, clean⟩ := Counted.step sound counted admissible.1 stepped
    have next := sound.step admissible.1 stepped
    obtain ⟨second, there, later⟩ := ih next here (admissible.2 middle stepped) onward
    refine ⟨first + second, by rwa [← Nat.add_assoc], fun zero => ⟨clean (by omega),
      fun other reached => ?_⟩⟩
    cases stepped.symm.trans reached
    exact later (by omega)

end

theorem faithful_initial (payloads : List Bytes) (maxPackets : Nat) :
    FaithfulAt payloads (initialUpload maxPackets : UploadState ρ) := by
  intro
  simp [initialUpload, UploadState.output, newUploadQueue, empty, toList, taken]

/-- No packet has the number after the last one. -/
theorem Held.taken_last (held : Held payloads queue)
    (complete : queue.nextSeq = payloads.length) :
    taken payloads (· = queue.nextSeq) queue.heap.toList = 0 := by
  refine taken_eq_zero.mpr fun packet member same => ?_
  obtain ⟨whole, found, -⟩ := held.heap packet member
  obtain ⟨inside, -⟩ := List.getElem?_eq_some_iff.mp found
  omega

section
variable {maxPackets : Nat} {events : List (UploadEvent ρ)} {final : UploadState ρ}
  (admissible : Along uploadStep (Admissible payloads) (initialUpload maxPackets) events)
  (ran : run uploadStep (initialUpload maxPackets) events = some final)
include admissible ran

theorem sound_run : Sound payloads final :=
  run_invariant_along (fun _ _ _ before allowed stepped => before.step allowed stepped)
    (sound_initial payloads maxPackets) admissible ran

/-- A run that finishes all packets returns the payloads if and only if it is clean. -/
theorem output_iff (complete : final.queue.nextSeq = payloads.length) :
    final.output = payloads.flatten ↔
      Along uploadStep (Clean payloads) (initialUpload maxPackets) events := by
  have start : Sound payloads (initialUpload maxPackets : UploadState ρ) := sound_initial payloads maxPackets
  have last := (sound_run admissible ran).held.taken_last complete
  constructor
  · intro same
    have none : CountedAt payloads (initialUpload maxPackets : UploadState ρ) 0 := rfl
    obtain ⟨more, counted, clean⟩ := clean_of_counted start none admissible ran
    refine clean ?_
    rw [CountedAt, Counted, complete, take_length, same, ← complete, last] at counted
    omega
  · intro clean
    have preserved (s : UploadState ρ) (event : UploadEvent ρ) (t : UploadState ρ)
        (before : Sound payloads s ∧ FaithfulAt payloads s)
        (allowed : Admissible payloads s event ∧ Clean payloads s event)
        (stepped : uploadStep s event = some t) : Sound payloads t ∧ FaithfulAt payloads t :=
      ⟨before.1.step allowed.1 stepped,
        Faithful.step before.1 before.2 allowed.1 stepped allowed.2⟩
    have faithful := run_invariant_along preserved ⟨start, faithful_initial payloads maxPackets⟩
      (admissible.and clean) ran
    have same := faithful.2.none_taken last
    rwa [complete, take_length] at same

end

end Payloads

end AmneziaBox.Guarantees.UploadReassembly
