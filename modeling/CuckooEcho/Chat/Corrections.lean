import CuckooEcho.Chat.Stream
import CuckooEcho.Lib.Run

namespace CuckooEcho.Chat
open Lib Agent

/-! ## When a correction is delivered once -/

structure CorrectedOnce (t : ChatTurn) (saved : AgentState) : Prop where
  once : (t.items saved).countP Item.isCorrection ≤ 1
  due : ∀ item ∈ t.items saved, item.isCorrection = true → Rejected (t.run saved)

def Uncorrected (saved : AgentState) : Prop := saved.correctionMessage = none

theorem correctionCount_replicate {us : List AgentUpdate} {n : Nat} {correction : Option String}
    (carried : us.map (·.state.correctionMessage) = List.replicate n correction) :
    us.countP (fun u => (correctionOf u).isSome) = if (correction.filter (· ≠ "")).isSome then n else 0 := by
  have counted : us.countP (fun u => (correctionOf u).isSome) =
      (us.map (·.state.correctionMessage)).countP fun c => (c.filter (· ≠ "")).isSome := by
    rw [List.countP_map]
    rfl
  rw [counted, carried]
  split
  · rename_i some
    exact List.countP_replicate .. ▸ if_pos some
  · rename_i none
    exact List.countP_replicate .. ▸ if_neg none

section
variable {t : ChatTurn} {saved : AgentState}

theorem correctionCount_items :
    (t.items saved).countP Item.isCorrection = (t.run saved).updates.countP fun u => (correctionOf u).isSome :=
  countP_consumeStream t.counts (t.run saved)

theorem correctionCount_of_accepted (uncorrected : Uncorrected saved) (accepted : ¬ Rejected (t.run saved)) :
    (t.items saved).countP Item.isCorrection = 0 := by
  rw [correctionCount_items]
  cases turn_corrections t.services (t.payload.merge saved) with
  | unread raises quiet kept _ =>
      rw [ChatTurn.run, quiet]
      rfl
  | saved n preprocessed carried kept _ =>
      rw [ChatTurn.run, correctionCount_replicate carried]
      simp [Payload.merge, show saved.correctionMessage = none from uncorrected]
  | rejected n preprocessed carried set rejected => exact absurd rejected accepted

/-- A rejection is pushed with the update of the guardrails and again with that of the hand-off. -/
theorem correctionCount_of_rejected (rejected : Rejected (t.run saved)) :
    2 ≤ (t.items saved).countP Item.isCorrection := by
  rw [correctionCount_items]
  cases turn_corrections t.services (t.payload.merge saved) with
  | unread raises quiet kept accepted => exact absurd rejected accepted
  | saved n preprocessed carried kept accepted => exact absurd rejected accepted
  | rejected n preprocessed carried set _ =>
      have counted : (t.run saved).updates.countP (fun u => (correctionOf u).isSome) =
          ((t.run saved).updates.map (·.state.correctionMessage)).countP fun c => (c.filter (· ≠ "")).isSome := by
        rw [List.countP_map]
        rfl
      rw [counted, ChatTurn.run, carried, List.countP_append]
      exact Nat.le_add_left 2 _

theorem correctedOnce_iff_not_rejected (uncorrected : Uncorrected saved) :
    CorrectedOnce t saved ↔ ¬ Rejected (t.run saved) := by
  constructor
  · intro once rejected
    have twice := correctionCount_of_rejected rejected
    have := once.once
    omega
  · intro accepted
    have none := correctionCount_of_accepted uncorrected accepted
    exact ⟨by omega, fun item here correction => absurd correction (by
      exact List.countP_eq_zero.mp none item here)⟩

theorem uncorrected_next (uncorrected : Uncorrected saved) (accepted : ¬ Rejected (t.run saved)) :
    Uncorrected (t.run saved).state := by
  cases turn_corrections t.services (t.payload.merge saved) with
  | unread raises quiet kept _ => exact kept.trans uncorrected
  | saved n preprocessed carried kept _ => exact kept.trans uncorrected
  | rejected n preprocessed carried set rejected => exact absurd rejected accepted

end

/-- Every turn of a thread delivers its corrections once and only when due exactly when no reply of the
thread is rejected. -/
theorem correctedOnce_iff_accepted (turns : List ChatTurn) :
    Along nextTurn (fun saved t => CorrectedOnce t saved) emptyThread turns ↔
      Along nextTurn (fun saved t => ¬ Rejected (t.run saved)) emptyThread turns := by
  refine along_iff_along Uncorrected (fun saved t => correctedOnce_iff_not_rejected) ?_ rfl
  intro saved t next uncorrected once h
  obtain rfl := Option.some.inj h
  exact uncorrected_next uncorrected ((correctedOnce_iff_not_rejected uncorrected).mp once)

/-- One document is found for every question, and the reply follows from nothing. -/
def contradicted : Services :=
  { offline with
    embeddingService := some fun _ => some []
    search := fun _ _ _ => some [[⟨some "doc", some "七天无理由退货", none, none, none, ⟨none, none⟩⟩]]
    llm := fun _ _ => ⟨[.ofText "不能退货"], false⟩
    nliModel := some fun pairs => .scores (pairs.map fun _ => (1, 0, 0)) }

def contradictedTurn : ChatTurn :=
  { services := contradicted, payload := ⟨[userMessage "怎么退货"], some "tenant", some "thread"⟩, counts := [] }

theorem correctedTwice_breaks : ¬ ∀ turns : List ChatTurn,
    Along nextTurn (fun saved t => CorrectedOnce t saved) emptyThread turns := by
  intro claim
  have twice : (contradictedTurn.items emptyThread).countP Item.isCorrection = 2 := by decide +kernel
  have once := (claim [contradictedTurn] _ rfl).1.once
  omega

end CuckooEcho.Chat
