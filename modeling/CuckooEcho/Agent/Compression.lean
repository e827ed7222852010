import CuckooEcho.Agent.Preprocess

namespace CuckooEcho.Agent
open Lib

/-! ## When the messages are summarised away -/

def Compresses (services : Services) (state : AgentState) : Prop :=
  services.llmSummarizer.isSome ∧ summarizeThreshold ≤ state.messages.length

instance (services : Services) (state : AgentState) : Decidable (Compresses services state) :=
  inferInstanceAs (Decidable (_ ∧ _))

section
variable {services : Services} {state after : AgentState}

theorem compressed_of_not_compresses (short : ¬ Compresses services state) : compressed services state = state := by
  unfold compressed
  unfold Compresses at short
  cases wired : services.llmSummarizer with
  | none => rfl
  | some complete =>
      have few : ¬ state.messages.length ≥ summarizeThreshold := by simpa [wired] using short
      simp only [few, ↓reduceIte]

/-- The summary takes the place of all messages, the last one included. -/
theorem preprocessNode_compresses {complete : List LlmMessage → Completion}
    (wired : services.llmSummarizer = some complete) (long : summarizeThreshold ≤ state.messages.length) :
    preprocessNode services state =
      some { state with messages := [], summary := some (summarize complete state.messages) } := by
  have compress : compressed services state =
      { state with messages := [], summary := some (summarize complete state.messages) } := by
    simp [compressed, wired, long]
  simp [preprocessNode, compress]

/-! ## What the media of a message change -/

theorem handleMedia_rewrites {pass next : MediaPass} {item : Media}
    (handled : handleMedia services pass item = some next) :
    ∃ content, next.lastMsg = { pass.lastMsg with content } := by
  have same : ∃ content, pass.lastMsg = { pass.lastMsg with content } := ⟨pass.lastMsg.content, rfl⟩
  unfold handleMedia at handled
  split at handled
  · split at handled
    · split at handled
      · rename_i text _
        obtain rfl := Option.some.inj handled
        exact ⟨some text, rfl⟩
      · obtain rfl := Option.some.inj handled
        exact same
    · obtain rfl := Option.some.inj handled
      exact same
  · split at handled
    · split at handled
      · cases handled
      · split at handled
        · cases handled
        · obtain rfl := Option.some.inj handled
          exact same
    · obtain rfl := Option.some.inj handled
      exact same

theorem handleMediaItems_rewrites {pass last : MediaPass} {items : List Media}
    (handled : handleMediaItems services pass items = some last) :
    ∃ content, last.lastMsg = { pass.lastMsg with content } := by
  induction items generalizing pass with
  | nil =>
      obtain rfl := Option.some.inj handled
      exact ⟨pass.lastMsg.content, rfl⟩
  | cons item items ih =>
      obtain ⟨next, first, rest⟩ := Option.bind_eq_some_iff.mp handled
      obtain ⟨heard, eq⟩ := handleMedia_rewrites first
      obtain ⟨content, eq'⟩ := ih rest
      exact ⟨content, by rw [eq', eq]⟩

theorem augment_rewrites (pass : MediaPass) : ∃ content, augment pass = { pass.lastMsg with content } := by
  unfold augment
  split
  · exact ⟨pass.lastMsg.content, rfl⟩
  · exact ⟨_, rfl⟩

/-- The conversation is the same up to the text of its last message, and so is the summary. -/
structure KeepsConversation (state after : AgentState) : Prop where
  earlier : after.messages.dropLast = state.messages.dropLast
  last : after.messages.getLast?.map (fun m => (m.role, m.media)) =
    state.messages.getLast?.map fun m => (m.role, m.media)
  summary : after.summary = state.summary

theorem preprocessNode_keeps (short : ¬ Compresses services state) (returned : preprocessNode services state = some after) :
    KeepsConversation state after := by
  unfold preprocessNode at returned
  rw [compressed_of_not_compresses short] at returned
  cases last : state.messages.getLast? with
  | none =>
      simp only [last, Option.some.injEq] at returned
      obtain rfl := returned
      exact ⟨rfl, rfl, rfl⟩
  | some lastMsg =>
      simp only [last] at returned
      obtain ⟨pass, handled, rfl⟩ := Option.map_eq_some_iff.mp returned
      by_cases silent : lastMsg.media = []
      · refine ⟨by simp [silent], by simp [silent], rfl⟩
      · obtain ⟨content, handled⟩ := handleMediaItems_rewrites handled
        obtain ⟨described, augmented⟩ := augment_rewrites pass
        refine ⟨by simp [silent], ?_, rfl⟩
        simp [silent, last, augmented, handled]

/-! ## A summary that fails -/

def LosesNothing (services : Services) (state : AgentState) : Prop :=
  ∃ after, preprocessNode services state = some after ∧ KeepsConversation state after

/-- The call raises, or the stream does after some of its chunks. -/
def SummaryFails (complete : List LlmMessage → Completion) (messages : List Message) : Prop :=
  collect (complete (summaryPrompt messages)) = none

theorem summarize_of_fails {complete : List LlmMessage → Completion} {messages : List Message}
    (fails : SummaryFails complete messages) : summarize complete messages = "" := by
  unfold SummaryFails at fails
  simp [summarize, fails]

/-- All messages are lost, and the empty text that stands for the failure replaces the summary. -/
theorem not_losesNothing_of_fails {complete : List LlmMessage → Completion}
    (wired : services.llmSummarizer = some complete) (long : summarizeThreshold ≤ state.messages.length)
    (fails : SummaryFails complete state.messages) :
    preprocessNode services state = some { state with messages := [], summary := some "" } ∧
      ¬ LosesNothing services state := by
  have emptied := preprocessNode_compresses wired long
  rw [summarize_of_fails fails] at emptied
  refine ⟨emptied, ?_⟩
  rintro ⟨after, returned, keeps⟩
  obtain rfl := Option.some.inj (emptied.symm.trans returned)
  have none : state.messages.getLast? = none := by simpa using keeps.last.symm
  rw [List.getLast?_eq_none_iff.mp none] at long
  exact absurd long (by decide)

end

def overloaded : List LlmMessage → Completion := fun _ => ⟨[.ofText "用户"], true⟩

def longThread : AgentState :=
  { messages := List.replicate 50 (userMessage "我的退款呢"), summary := some "用户要求退款" }

theorem longThread_loses :
    ¬ ∀ (services : Services) (complete : List LlmMessage → Completion) (state : AgentState),
      services.llmSummarizer = some complete → summarizeThreshold ≤ state.messages.length →
      SummaryFails complete state.messages → LosesNothing services state := by
  intro claim
  have long : summarizeThreshold ≤ longThread.messages.length := by
    rw [longThread, List.length_replicate]
    decide
  have wired : { offline with llmSummarizer := some overloaded }.llmSummarizer = some overloaded := rfl
  have fails : SummaryFails overloaded longThread.messages := rfl
  exact (not_losesNothing_of_fails wired long fails).2 (claim _ overloaded longThread wired long fails)

theorem not_losesNothing_of_fails_longThread :
    preprocessNode { offline with llmSummarizer := some overloaded } longThread =
        some { longThread with messages := [], summary := some "" } ∧
      ¬ LosesNothing { offline with llmSummarizer := some overloaded } longThread :=
  not_losesNothing_of_fails rfl (by rw [longThread, List.length_replicate]; decide) rfl

end CuckooEcho.Agent
