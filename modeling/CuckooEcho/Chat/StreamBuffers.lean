import CuckooEcho.Chat.StreamingOptimizer

namespace CuckooEcho.Chat.Streaming
open Lib

/-! ## What is accepted is flushed or still buffered -/

namespace StreamingOptimizer

def buffered (o : StreamingOptimizer) (streamId : String) : String := String.join (o.bufferOf streamId).content

/-- What a call adds to the buffer of the stream. -/
def acceptedBy (o : StreamingOptimizer) (streamId : String) : Call → String
  | .canEnqueue now other content => if other = streamId ∧ (o.canEnqueue now other content).2 then content else ""
  | .handleBackpressure _ _ | .flushBuffer _ => ""

/-- What a call returns of the buffer of the stream. -/
def flushedBy (o : StreamingOptimizer) (streamId : String) : Call → String
  | .flushBuffer other => if other = streamId then (o.flushBuffer other).2 else ""
  | .canEnqueue _ _ _ | .handleBackpressure _ _ => ""

def accepted (streamId : String) : StreamingOptimizer → List Call → String
  | _, [] => ""
  | o, call :: calls => o.acceptedBy streamId call ++ accepted streamId (o.call call) calls

def flushed (streamId : String) : StreamingOptimizer → List Call → String
  | _, [] => ""
  | o, call :: calls => o.flushedBy streamId call ++ flushed streamId (o.call call) calls

def WithinCapacity (o : StreamingOptimizer) : Prop :=
  ∀ streamId buffer, o.buffers.get streamId = some buffer → buffer.content.length ≤ buffer.capacity

variable {o : StreamingOptimizer}

theorem bufferOf_of_get {o' : StreamingOptimizer} {streamId : String}
    (same : o'.buffers.get streamId = o.buffers.get streamId) : o'.bufferOf streamId = o.bufferOf streamId := by
  rw [bufferOf, bufferOf, same]

/-- What a call adds is behind what was buffered, and what it returns was in front. -/
theorem buffered_call (o : StreamingOptimizer) (streamId : String) (call : Call) :
    o.buffered streamId ++ o.acceptedBy streamId call =
      o.flushedBy streamId call ++ (o.call call).buffered streamId := by
  cases call with
  | canEnqueue now other content =>
      have buffers := canEnqueue_buffers (o := o) now other content streamId
      rw [acceptedBy, flushedBy, canEnqueue_accepts, String.empty_append, StreamingOptimizer.call]
      by_cases here : streamId = other
      · subst here
        have after : ((o.canEnqueue now streamId content).1.bufferOf streamId).content =
            (o.bufferOf streamId).content ++ if o.accepts streamId then [content] else [] := by
          rw [bufferOf, buffers, if_pos rfl, Option.getD_some]
        rw [buffered, buffered, after, String.join_append]
        cases o.accepts streamId with
        | true => simp
        | false => simp
      · rw [if_neg here] at buffers
        rw [buffered, buffered, bufferOf_of_get buffers, if_neg fun both => here both.1.symm, String.append_empty]
  | handleBackpressure other permitted =>
      rw [acceptedBy, flushedBy, String.append_empty, String.empty_append]
      rfl
  | flushBuffer other =>
      have buffers := flushBuffer_get (o := o) other streamId
      rw [acceptedBy, flushedBy, String.append_empty, StreamingOptimizer.call]
      by_cases here : streamId = other
      · subst here
        have emptied : (o.flushBuffer streamId).1.buffered streamId = "" := by
          rw [if_pos rfl] at buffers
          rw [buffered, bufferOf, buffers]
          cases o.buffers.get streamId with
          | none => rfl
          | some buffer => rfl
        rw [if_pos rfl, flushBuffer_text, emptied, String.append_empty, buffered]
      · rw [if_neg here] at buffers
        rw [buffered, buffered, bufferOf_of_get buffers, if_neg fun same => here same.symm, String.empty_append]

theorem buffered_run (o : StreamingOptimizer) (streamId : String) (calls : List Call) :
    o.buffered streamId ++ accepted streamId o calls = flushed streamId o calls ++ (o.run calls).buffered streamId := by
  induction calls generalizing o with
  | nil => rw [accepted, flushed, String.append_empty, String.empty_append, run, List.foldl_nil]
  | cons call calls ih =>
      calc o.buffered streamId ++ accepted streamId o (call :: calls)
        _ = (o.buffered streamId ++ o.acceptedBy streamId call) ++ accepted streamId (o.call call) calls := by
          rw [accepted, String.append_assoc]
        _ = o.flushedBy streamId call ++
              ((o.call call).buffered streamId ++ accepted streamId (o.call call) calls) := by
          rw [buffered_call, String.append_assoc]
        _ = flushed streamId o (call :: calls) ++ (o.run (call :: calls)).buffered streamId := by
          rw [ih, flushed, String.append_assoc]
          rfl

theorem WithinCapacity.call (h : WithinCapacity o) (call : Call) : WithinCapacity (o.call call) := by
  intro streamId buffer found
  cases call with
  | canEnqueue now other content =>
      rw [StreamingOptimizer.call, canEnqueue_buffers] at found
      split at found
      · have within : (o.bufferOf other).content.length ≤ (o.bufferOf other).capacity := by
          unfold bufferOf
          cases known : o.buffers.get other with
          | none => exact Nat.zero_le _
          | some buffer => exact h other buffer known
        rw [← Option.some.inj found]
        cases accepted : o.accepts other with
        | true =>
            have room : (o.bufferOf other).content.length < (o.bufferOf other).capacity :=
              of_decide_eq_true (Bool.and_eq_true_iff.mp accepted).2
            rw [if_pos rfl, List.length_append, List.length_singleton]
            exact room
        | false => simpa using within
      · exact h streamId buffer found
  | handleBackpressure other permitted => exact h streamId buffer found
  | flushBuffer other =>
      rw [StreamingOptimizer.call, flushBuffer_get] at found
      split at found
      · obtain ⟨old, -, rfl⟩ := Option.map_eq_some_iff.mp found
        exact Nat.zero_le _
      · exact h streamId buffer found

/-- Every stream is a queue that loses nothing and never outgrows its capacity. -/
theorem lossless (calls : List Call) :
    (∀ streamId, accepted streamId {} calls = flushed streamId {} calls ++ (run {} calls).buffered streamId) ∧
      Throughout step WithinCapacity {} calls := by
  refine ⟨fun streamId => ?_, ?_⟩
  · have balance := buffered_run {} streamId calls
    have empty : buffered {} streamId = "" := rfl
    rwa [empty, String.empty_append] at balance
  · have start : WithinCapacity {} := fun _ _ found => by cases found
    exact throughout_of_step (fun o call o' h next => Option.some.inj next ▸ h.call call) start

end StreamingOptimizer

/-! ## Which clients stay paused -/

def Call.pauses (streamId : String) (call : Call) : Prop := call = .handleBackpressure streamId false

def Call.keepsPaused (streamId : String) (call : Call) : Prop := call ≠ .handleBackpressure streamId true

/-- The client of the stream has asked for a pause and not yet for the stream to go on. -/
def Paused (streamId : String) (calls : List Call) : Prop :=
  Since (Call.pauses streamId) (Call.keepsPaused streamId) calls

/-- No chunk is accepted of a stream whose client has paused, and its buffer is left alone. -/
def StaysPaused (calls : List Call) : Prop :=
  ∀ past now streamId content rest, calls = past ++ .canEnqueue now streamId content :: rest → Paused streamId past →
    let o := StreamingOptimizer.run {} past
    (o.canEnqueue now streamId content).2 = false ∧
      (o.canEnqueue now streamId content).1.buffers.get streamId = o.buffers.get streamId

/-- No stream is paused when its first chunk comes. -/
def PausedAfterFirst (calls : List Call) : Prop :=
  ∀ past now streamId content rest, calls = past ++ .canEnqueue now streamId content :: rest → Paused streamId past →
    ∃ now content, .canEnqueue now streamId content ∈ past

namespace StreamingOptimizer
variable {o : StreamingOptimizer}

theorem run_concat (o : StreamingOptimizer) (calls : List Call) (call : Call) :
    o.run (calls ++ [call]) = (o.run calls).call call := by
  rw [run, List.foldl_append]
  rfl

theorem run_get_eq_none {past : List Call} {streamId : String} :
    (run {} past).buffers.get streamId = none ↔ ∀ now content, .canEnqueue now streamId content ∉ past := by
  induction past using List.reverseRecOn with
  | nil => exact iff_of_true rfl fun _ _ => List.not_mem_nil
  | append_singleton past call ih =>
      rw [run_concat]
      cases call with
      | canEnqueue now other content =>
          rw [StreamingOptimizer.call, canEnqueue_buffers]
          by_cases here : streamId = other
          · subst here
            rw [if_pos rfl]
            exact iff_of_false nofun fun none => none now content (by simp)
          · rw [if_neg here, ih]
            simp [here]
      | handleBackpressure other permitted =>
          rw [StreamingOptimizer.call, handleBackpressure, ih]
          simp
      | flushBuffer other =>
          rw [StreamingOptimizer.call, flushBuffer_get]
          by_cases here : streamId = other
          · subst here
            rw [if_pos rfl, Option.map_eq_none_iff, ih]
            simp
          · rw [if_neg here, ih]
            simp

theorem accepts_of_first {streamId : String} (first : o.buffers.get streamId = none) : o.accepts streamId = true := by
  simp [accepts, permits, bufferOf, first]

/-- While no paused stream gets its first chunk, the flow is as its client has last asked for. -/
theorem run_clientFlow {past : List Call} {streamId : String} (known : PausedAfterFirst past)
    (paused : Paused streamId past) : (run {} past).clientFlow.get streamId = some false := by
  induction past using List.reverseRecOn with
  | nil => exact absurd paused not_since_nil
  | append_singleton past call ih =>
      have earlier : PausedAfterFirst past := fun front now other content rest split =>
        known front now other content (rest ++ [call]) (by simp [split])
      rw [run_concat]
      obtain ⟨before, stays⟩ | pauses := since_concat.mp paused
      · have flow := ih earlier before
        cases call with
        | canEnqueue now other content =>
            rw [StreamingOptimizer.call, canEnqueue_clientFlow, if_neg, flow]
            rintro ⟨rfl, first⟩
            obtain ⟨now', content', member⟩ := known past now streamId content [] rfl before
            exact run_get_eq_none.mp first now' content' member
        | handleBackpressure other permitted =>
            rw [StreamingOptimizer.call, handleBackpressure, Dict.get_set]
            split
            · rename_i same
              subst same
              cases permitted with
              | false => rfl
              | true => exact absurd rfl stays
            · exact flow
        | flushBuffer other =>
            rw [StreamingOptimizer.call, flushBuffer_clientFlow]
            exact flow
      · rw [show call = .handleBackpressure streamId false from pauses]
        simp [StreamingOptimizer.call, handleBackpressure]

theorem canEnqueue_of_refused {now : Nat} {streamId content : String} {buffer : StreamBuffer}
    (known : o.buffers.get streamId = some buffer) (paused : o.clientFlow.get streamId = some false) :
    (o.canEnqueue now streamId content).2 = false ∧
      (o.canEnqueue now streamId content).1.buffers.get streamId = o.buffers.get streamId := by
  have refuses : o.accepts streamId = false := by simp [accepts, permits, known, paused]
  rw [canEnqueue_accepts, canEnqueue_buffers, refuses, if_pos rfl, known]
  simp [bufferOf, known]

end StreamingOptimizer

/-- A paused client stays paused exactly in the runs in which no stream is paused when its first chunk comes. -/
theorem staysPaused_iff (calls : List Call) : StaysPaused calls ↔ PausedAfterFirst calls := by
  constructor
  · intro stays past now streamId content rest split paused
    by_contra absent
    have first : (StreamingOptimizer.run {} past).buffers.get streamId = none :=
      StreamingOptimizer.run_get_eq_none.mpr fun now content member => absent ⟨now, content, member⟩
    have refused := (stays past now streamId content rest split paused).1
    rw [StreamingOptimizer.canEnqueue_accepts, StreamingOptimizer.accepts_of_first first] at refused
    cases refused
  · intro known past now streamId content rest split paused
    have earlier : PausedAfterFirst past := fun front now other content' rest' split' =>
      known front now other content' (rest' ++ .canEnqueue _ streamId content :: rest) (by
        rw [split, split', List.append_assoc, List.cons_append])
    obtain ⟨now', content', member⟩ := known past now streamId content rest split paused
    obtain ⟨buffer, found⟩ : ∃ buffer, (StreamingOptimizer.run {} past).buffers.get streamId = some buffer := by
      refine Option.ne_none_iff_exists'.mp fun first => ?_
      exact StreamingOptimizer.run_get_eq_none.mp first now' content' member
    exact StreamingOptimizer.canEnqueue_of_refused found (StreamingOptimizer.run_clientFlow earlier paused)

/-- A client that is not ready when the stream begins. -/
def pausedEarly : List Call := [.handleBackpressure "s" false, .canEnqueue 0 "s" "Hello"]

theorem pausedEarly_accepted : ¬ ∀ calls, StaysPaused calls := by
  intro claim
  have paused : Paused "s" [.handleBackpressure "s" false] := ⟨[], _, [], rfl, rfl, List.forall_mem_nil _⟩
  have refused := (claim pausedEarly _ 0 "s" "Hello" [] rfl paused).1
  exact absurd refused (by decide)

end CuckooEcho.Chat.Streaming
