import CuckooEcho.Lib.Dict
import CuckooEcho.Lib.Run

namespace CuckooEcho.Chat.Streaming
open Lib

/-! ## Buffers of streams and the flow that their clients permit -/

structure StreamBuffer where
  content : List String := []
  capacity : Nat := 100
  deriving DecidableEq, Repr

namespace StreamBuffer
variable (buffer : StreamBuffer)

def add (chunk : String) : StreamBuffer × Bool :=
  if buffer.content.length ≥ buffer.capacity then (buffer, false)
  else ({ buffer with content := buffer.content ++ [chunk] }, true)

def get : StreamBuffer × String := ({ buffer with content := [] }, String.join buffer.content)

end StreamBuffer

structure StreamingOptimizer where
  buffers : Dict String StreamBuffer := .empty
  clientFlow : Dict String Bool := .empty
  streamStartTimes : Dict String Nat := .empty
  backpressureEvents : Nat := 0

namespace StreamingOptimizer
variable (o : StreamingOptimizer)

/-- What the first chunk of a stream sets up. -/
def initStream (now : Nat) (streamId : String) : StreamingOptimizer :=
  if streamId ∈ o.buffers.keys then o
  else
    { o with
      buffers := o.buffers.set streamId {}
      clientFlow := o.clientFlow.set streamId true
      streamStartTimes := o.streamStartTimes.set streamId now }

def canEnqueue (now : Nat) (streamId content : String) : StreamingOptimizer × Bool :=
  let o := o.initStream now streamId
  let buffer := (o.buffers.get streamId).getD {}
  if ¬ (o.clientFlow.get streamId).getD true then
    ({ o with backpressureEvents := o.backpressureEvents + 1 }, false)
  else
    let (buffer, added) := buffer.add content
    ({ o with buffers := o.buffers.set streamId buffer }, added)

def handleBackpressure (streamId : String) (permitted : Bool) : StreamingOptimizer :=
  { o with clientFlow := o.clientFlow.set streamId permitted }

def flushBuffer (streamId : String) : StreamingOptimizer × String :=
  match o.buffers.get streamId with
  | some buffer => ({ o with buffers := o.buffers.set streamId buffer.get.1 }, buffer.get.2)
  | none => (o, "")

end StreamingOptimizer

/-! ### Sequences of calls -/

inductive Call
  | canEnqueue (now : Nat) (streamId content : String)
  | handleBackpressure (streamId : String) (permitted : Bool)
  | flushBuffer (streamId : String)
  deriving DecidableEq, Repr

namespace StreamingOptimizer
variable (o : StreamingOptimizer)

def call : Call → StreamingOptimizer
  | .canEnqueue now streamId content => (o.canEnqueue now streamId content).1
  | .handleBackpressure streamId permitted => o.handleBackpressure streamId permitted
  | .flushBuffer streamId => (o.flushBuffer streamId).1

def step (call : Call) : Option StreamingOptimizer := some (o.call call)

def run (calls : List Call) : StreamingOptimizer := calls.foldl call o

end StreamingOptimizer

/-! ### What a call does to each stream -/

namespace StreamingOptimizer
variable {o : StreamingOptimizer} {now : Nat} {streamId content : String}

/-- What the check of the flow sees: the first chunk of a stream is always permitted. -/
def permits (o : StreamingOptimizer) (streamId : String) : Bool :=
  (o.buffers.get streamId).isNone || (o.clientFlow.get streamId).getD true

def bufferOf (o : StreamingOptimizer) (streamId : String) : StreamBuffer := (o.buffers.get streamId).getD {}

def accepts (o : StreamingOptimizer) (streamId : String) : Bool :=
  o.permits streamId && decide ((o.bufferOf streamId).content.length < (o.bufferOf streamId).capacity)

theorem not_mem_keys : streamId ∉ o.buffers.keys ↔ o.buffers.get streamId = none := by
  rw [Dict.mem_keys, Option.eq_none_iff_forall_ne_some, not_exists]

theorem initStream_buffers (now : Nat) (other : String) : (o.initStream now streamId).buffers.get other =
    if other = streamId then some (o.bufferOf streamId) else o.buffers.get other := by
  unfold initStream bufferOf
  split
  · rename_i known
    obtain ⟨buffer, found⟩ := Dict.mem_keys.mp known
    split
    · rename_i same
      rw [same, found, Option.getD_some]
    · rfl
  · rename_i unknown
    rw [Dict.get_set, not_mem_keys.mp unknown, Option.getD_none]

theorem initStream_clientFlow (now : Nat) (other : String) : (o.initStream now streamId).clientFlow.get other =
    if other = streamId ∧ o.buffers.get streamId = none then some true else o.clientFlow.get other := by
  unfold initStream
  split
  · rename_i known
    obtain ⟨buffer, found⟩ := Dict.mem_keys.mp known
    simp [found]
  · rename_i unknown
    rw [Dict.get_set]
    simp [not_mem_keys.mp unknown]

theorem initStream_permits (now : Nat) :
    ((o.initStream now streamId).clientFlow.get streamId).getD true = o.permits streamId := by
  rw [initStream_clientFlow, permits]
  cases o.buffers.get streamId with
  | none => simp
  | some buffer => simp

theorem initStream_bufferOf (now : Nat) :
    ((o.initStream now streamId).buffers.get streamId).getD {} = o.bufferOf streamId := by
  rw [initStream_buffers, if_pos rfl, Option.getD_some]

theorem canEnqueue_accepts (now : Nat) (streamId content : String) :
    (o.canEnqueue now streamId content).2 = o.accepts streamId := by
  unfold canEnqueue accepts
  dsimp only
  rw [initStream_permits, initStream_bufferOf]
  cases o.permits streamId with
  | false => rfl
  | true =>
      rw [if_neg (by simp), StreamBuffer.add, Bool.true_and]
      split
      · rename_i full
        exact (decide_eq_false (Nat.not_lt_of_le full)).symm
      · rename_i room
        exact (decide_eq_true (Nat.lt_of_not_le room)).symm

theorem canEnqueue_buffers (now : Nat) (streamId content other : String) :
    (o.canEnqueue now streamId content).1.buffers.get other =
      if other = streamId then some { o.bufferOf streamId with
        content := (o.bufferOf streamId).content ++ if o.accepts streamId then [content] else [] }
      else o.buffers.get other := by
  unfold canEnqueue accepts
  dsimp only
  rw [initStream_permits, initStream_bufferOf]
  cases o.permits streamId with
  | false =>
      rw [if_pos (by simp), initStream_buffers]
      simp
  | true =>
      rw [if_neg (by simp), StreamBuffer.add, Bool.true_and]
      split
      · rename_i full
        dsimp only
        rw [Dict.get_set, initStream_buffers, decide_eq_false (Nat.not_lt_of_le full)]
        split <;> simp
      · rename_i room
        dsimp only
        rw [Dict.get_set, initStream_buffers, decide_eq_true (Nat.lt_of_not_le room)]
        split <;> simp

theorem canEnqueue_clientFlow (now : Nat) (streamId content other : String) :
    (o.canEnqueue now streamId content).1.clientFlow.get other =
      if other = streamId ∧ o.buffers.get streamId = none then some true else o.clientFlow.get other := by
  rw [← initStream_clientFlow now]
  unfold canEnqueue
  dsimp only
  split
  · rfl
  · rfl

theorem flushBuffer_get (streamId other : String) : (o.flushBuffer streamId).1.buffers.get other =
    if other = streamId then (o.buffers.get streamId).map (·.get.1) else o.buffers.get other := by
  unfold flushBuffer
  cases found : o.buffers.get streamId with
  | none =>
      by_cases same : other = streamId
      · rw [if_pos same, same]
        exact found
      · rw [if_neg same]
  | some buffer => exact Dict.get_set ..

theorem flushBuffer_text (streamId : String) :
    (o.flushBuffer streamId).2 = String.join (o.bufferOf streamId).content := by
  unfold flushBuffer bufferOf
  cases o.buffers.get streamId with
  | none => rfl
  | some buffer => rfl

theorem flushBuffer_clientFlow (streamId : String) : (o.flushBuffer streamId).1.clientFlow = o.clientFlow := by
  unfold flushBuffer
  split
  · rfl
  · rfl

end StreamingOptimizer

end CuckooEcho.Chat.Streaming
