import AmneziaBox.Library.Codec
import AmneziaBox.Library.Heap
import AmneziaBox.Library.Machine

/-!
# The upload queue of XHTTP

Embeds `transport/v2rayxhttp/upload_queue.go`. Uploads arrive as numbered packets through a
channel; `Read` puts what comes too early into a heap. A packet may instead hold a reader, to
which all later reads go; the type of readers is left open.

`Read` stops in the middle to receive from the channel, and packets may be pushed meanwhile.
It is therefore cut there: a call ends with a result or waits, and a receive goes on with it.
Sequence numbers stay far below `2 ^ 64` and are natural numbers.

Outside the model: `Close`, and the channel of no capacity, on which a push waits for its
receive.
-/
namespace AmneziaBox.Source.XHTTP
open Library

variable {ρ : Type}

structure Packet (ρ : Type) where
  reader : Option ρ := none
  payload : Bytes
  seq : Nat
  deriving DecidableEq, Repr

/-- `container/heap` over `uploadHeap`, whose `Less` compares sequence numbers. -/
abbrev UploadHeap (ρ : Type) := Heap (Packet.seq (ρ := ρ))

structure UploadQueue (ρ : Type) where
  reader : Option ρ := none
  nomore : Bool := false
  pushedPackets : List (Packet ρ) := []
  heap : UploadHeap ρ := Heap.empty
  nextSeq : Nat := 0
  closed : Bool := false
  maxPackets : Nat

def newUploadQueue (maxPackets : Nat) : UploadQueue ρ := { maxPackets }

namespace UploadQueue

/-- `Push`; nothing while the channel is full. -/
def push (queue : UploadQueue ρ) (packet : Packet ρ) : Option (Except String (UploadQueue ρ)) :=
  if queue.closed then some (.error "packet queue closed")
  else if queue.nomore then some (.error "h.reader already exists")
  else if queue.pushedPackets.length < queue.maxPackets then
    some (.ok { queue with
      nomore := queue.nomore || packet.reader.isSome
      pushedPackets := queue.pushedPackets ++ [packet] })
  else none

/-- What `Read` returns; after a packet with a reader its reads are those of the reader. -/
inductive Result (ρ : Type) where
  | bytes (data : Bytes)
  | eof
  | tooLarge
  | delegated (reader : ρ)
  deriving DecidableEq, Repr

def Result.data : Result ρ → Bytes
  | .bytes data => data
  | _ => []

/-- A call of `Read` has returned, or waits for the channel. The first receive of a call
takes a packet with a reader, a later one does not look for it. -/
inductive Turn (ρ : Type) where
  | done (result : Result ρ) (queue : UploadQueue ρ)
  | waiting (first : Bool) (queue : UploadQueue ρ)

/-- The loop of `Read` with a bound on its rounds: it goes on only after it dropped a packet
from the heap. -/
def readLoop (size : Nat) : Nat → UploadQueue ρ → Turn ρ
  | 0, queue => .done (.bytes []) queue
  | rounds + 1, queue =>
    match queue.heap.pop with
    | none => .done (.bytes []) queue
    | some (packet, heap) =>
      if packet.seq = queue.nextSeq then
        let n := min size packet.payload.length
        if n < packet.payload.length then
          -- partial read
          .done (.bytes (packet.payload.take n))
            { queue with heap := heap.push { packet with payload := packet.payload.drop n } }
        else
          .done (.bytes (packet.payload.take n)) { queue with heap, nextSeq := packet.seq + 1 }
      else if queue.nextSeq < packet.seq then
        -- misordered packet
        if queue.maxPackets < heap.size then .done .tooLarge { queue with heap }
        else .waiting false { queue with heap := heap.push packet }
      else readLoop size rounds { queue with heap }

/-- `Read` into a buffer of the given size, until it waits for the channel. -/
def read (queue : UploadQueue ρ) (size : Nat) : Turn ρ :=
  match queue.reader with
  | some reader => .done (.delegated reader) queue
  | none =>
    if queue.closed then .done .eof queue
    else if queue.heap.size = 0 then .waiting true queue
    else readLoop size queue.heap.size queue

/-- The packet goes to the heap and the loop goes on. -/
def accept (queue : UploadQueue ρ) (size : Nat) (packet : Packet ρ) : Turn ρ :=
  let heap := queue.heap.push packet
  readLoop size heap.size { queue with heap }

/-- A receive of a waiting `Read`; nothing while the channel is open and empty. -/
def receive (queue : UploadQueue ρ) (size : Nat) (first : Bool) : Option (Turn ρ) :=
  match queue.pushedPackets with
  | [] => if queue.closed then some (.done .eof queue) else none
  | packet :: rest =>
    let queue := { queue with pushedPackets := rest }
    match first, packet.reader with
    | true, some reader => some (.done (.delegated reader) { queue with reader := some reader })
    | _, _ => some (queue.accept size packet)

end UploadQueue

open UploadQueue

/-- The queue, the size and the kind of the wait of a call in progress, and what the calls have
returned so far. -/
structure UploadState (ρ : Type) where
  queue : UploadQueue ρ
  call : Option (Nat × Bool) := none
  returned : List (Result ρ) := []

inductive UploadEvent (ρ : Type) where
  | push (packet : Packet ρ)
  | call (size : Nat)
  | receive

/-- The state after a part of a call. -/
def UploadState.turn (state : UploadState ρ) (size : Nat) : Turn ρ → UploadState ρ
  | .done result queue => ⟨queue, none, state.returned ++ [result]⟩
  | .waiting first queue => ⟨queue, some (size, first), state.returned⟩

/-- One packet is pushed, a call of `Read` starts, or the waiting call receives. There is one
reader, so a call starts only after the last one has returned. -/
def uploadStep (state : UploadState ρ) : UploadEvent ρ → Option (UploadState ρ)
  | .push packet =>
    match state.queue.push packet with
    | some (.ok queue) => some { state with queue }
    | some (.error _) => some state
    | none => none
  | .call size =>
    match state.call with
    | none => some (state.turn size (state.queue.read size))
    | some _ => none
  | .receive =>
    match state.call with
    | none => none
    | some (size, first) => (state.queue.receive size first).map (state.turn size)

/-- The bytes of all calls so far. -/
def UploadState.output (state : UploadState ρ) : Bytes := state.returned.flatMap Result.data

def initialUpload (maxPackets : Nat) : UploadState ρ := { queue := newUploadQueue maxPackets }

end AmneziaBox.Source.XHTTP
