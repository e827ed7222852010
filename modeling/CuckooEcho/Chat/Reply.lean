import CuckooEcho.Chat.Corrections
import CuckooEcho.Lib.Json.Size

namespace CuckooEcho.Chat
open Lib Json Agent

/-! ## The content of what is yielded -/

def contentOf (data : String) : List CodeUnit :=
  match parse data.toList with
  | none => []
  | some v =>
      match v.member "content" with
      | some (.str s) => s
      | _ => []

def shown (yields : List String) : List CodeUnit := yields.flatMap contentOf

def visible (items : List Item) : List CodeUnit := items.flatMap fun item => contentOf (yieldItem item.text)

theorem contentOf_contentJson (text : String) : contentOf (contentJson text) = units text.toList := by
  have parsed : parse (contentJson text).toList =
      some (.obj [(units "content".toList, .str (units text.toList))]) := by
    rw [contentJson, toList_dumps, parse_objectText, List.map_singleton, List.map_singleton, memberUnits]
  rw [contentOf, parsed]
  rfl

theorem yieldItem_contentJson (text : String) : yieldItem (contentJson text) = contentJson text := by
  obtain ⟨inner, braced⟩ := dumps_braced [("content", text)]
  have : startsWithBrace (contentJson text) = true := by
    simp [startsWithBrace, contentJson, braced]
  simp [yieldItem, this]

theorem contentOf_width (data : String) : contentOf data = [] ∨ (contentOf data).length < width data.toList := by
  unfold contentOf
  split
  · exact Or.inl rfl
  · rename_i v parsed
    have outside := parse_width parsed
    split
    · rename_i s found
      have inside := weight_member_le found
      rw [Value.weight] at inside
      exact Or.inr (by omega)
    · exact Or.inl rfl

theorem contentOf_done : contentOf done = [] := by decide +kernel

theorem shown_eventGenerator (counts : List Nat) (run : AgentRun) :
    shown (eventGenerator none true counts run) = visible (consumeStream counts run).items := by
  simp [shown, eventGenerator, visible, List.flatMap_append, List.flatMap_map, contentOf_done]

/-- What a token shows: itself when it is wrapped, and less than that otherwise. -/
theorem visible_token (text : String) :
    (startsWithBrace text = false ∧ contentOf (yieldItem text) = units text.toList) ∨
      (startsWithBrace text = true ∧ (contentOf (yieldItem text)).length < width text.toList) := by
  cases braced : startsWithBrace text with
  | false => exact Or.inl ⟨rfl, by simp [yieldItem, braced, contentOf_contentJson]⟩
  | true =>
      have positive : 0 < width text.toList := by
        cases shape : text.toList with
        | nil => simp [startsWithBrace, shape] at braced
        | cons c rest => exact (Nat.zero_le _).trans_lt (width_cons_pos c rest)
      refine Or.inr ⟨rfl, ?_⟩
      rw [show yieldItem text = text by simp [yieldItem, braced]]
      cases contentOf_width text with
      | inl empty => rwa [empty]
      | inr short => exact short

theorem toList_join (texts : List String) : (String.join texts).toList = texts.flatMap String.toList := by
  have from_front (front : String) :
      (texts.foldl (fun text more => text ++ more) front).toList = front.toList ++ texts.flatMap String.toList := by
    induction texts generalizing front with
    | nil => simp
    | cons text texts ih => simp [ih]
  exact from_front ""

theorem visible_append (items more : List Item) : visible (items ++ more) = visible items ++ visible more :=
  List.flatMap_append

theorem visible_cons (item : Item) (items : List Item) :
    visible (item :: items) = contentOf (yieldItem item.text) ++ visible items := List.flatMap_cons

theorem visible_tokens_le (tokens : List String) :
    (visible (tokens.map .token)).length ≤ width (tokens.flatMap String.toList) := by
  induction tokens with
  | nil => exact Nat.le_refl _
  | cons text tokens ih =>
      rw [List.map_cons, visible_cons, List.flatMap_cons, width_append, List.length_append]
      cases visible_token text with
      | inl plain =>
          rw [Item.text, plain.2]
          exact Nat.add_le_add_left ih _
      | inr braced => exact Nat.add_le_add braced.2.le ih

theorem visible_tokens_lt {tokens : List String} {text : String} (here : text ∈ tokens)
    (braced : startsWithBrace text = true) :
    (visible (tokens.map .token)).length < width (tokens.flatMap String.toList) := by
  obtain ⟨before, after, rfl⟩ := List.append_of_mem here
  have short : (contentOf (yieldItem text)).length < width text.toList := by
    cases visible_token text with
    | inl plain => simp [plain.1] at braced
    | inr short => exact short.2
  have first := visible_tokens_le before
  have last := visible_tokens_le after
  rw [List.map_append, List.map_cons, visible_append, visible_cons, List.flatMap_append, List.flatMap_cons]
  simp only [List.length_append, width_append, Item.text]
  omega

/-- The tokens of a reply are shown in full exactly when each of them is wrapped. -/
theorem visible_tokens_iff (tokens : List String) :
    visible (tokens.map .token) = units (String.join tokens).toList ↔
      ∀ t ∈ tokens, startsWithBrace t = false := by
  rw [toList_join]
  constructor
  · intro same text here
    by_contra braced
    have short := visible_tokens_lt here (by simpa using braced)
    rw [same] at short
    exact absurd short (Nat.lt_irrefl _)
  · intro plain
    induction tokens with
    | nil => rfl
    | cons text tokens ih =>
        obtain ⟨here, later⟩ := List.forall_mem_cons.mp plain
        rw [List.map_cons, visible_cons, ih later, List.flatMap_cons, units_append]
        simp [Item.text, yieldItem, here, contentOf_contentJson]

/-! ## What a turn should show -/

def savedAfter (turns : List ChatTurn) : AgentState := turns.foldl (fun saved t => (t.run saved).state) emptyThread

/-- What a turn yields is the reply that it ends with, and after it at most the correction it has set. The
only update whose reply is pushed is the last. -/
structure ShowsReply (counts : List Nat) (run : AgentRun) : Prop where
  text : ∃ correction,
    (correction = "" ∨ (Rejected run ∧ run.state.correctionMessage = some correction)) ∧
    shown (eventGenerator none true counts run) = units (run.state.llmResponse.toList ++ correction.toList)
  own : ∀ node text, Item.response node text ∈ (consumeStream counts run).items →
    run.updates.getLast?.map (·.node) = some node

def GeneratedShown (services : Services) (s : AgentState) : Prop :=
  if generationFails services s then visible ((tokensOf (replyOf services s)).map .token) = units apology.toList
  else ∀ token ∈ tokensOf (replyOf services s), startsWithBrace token = false

def RoutedShown (services : Services) (s : AgentState) : Prop :=
  match routeDecision s with
  | .hitl => True
  | .tool => False
  | .rag =>
      match ragEngineNode services s with
      | none => False
      | some retrieved =>
          cacheHit services s = none ∧ rejects services (llmGenerateNode services retrieved).1 = false ∧
            GeneratedShown services retrieved

/-- The turns that show their reply: nothing is left over from the thread's last turn, and the turn is
handed off, or it generates a reply without cache hit, rejection or token that starts with a brace. -/
def ShownWhen (t : ChatTurn) (saved : AgentState) : Prop :=
  match preprocessNode t.services (t.payload.merge saved) with
  | none => saved.llmResponse = apology
  | some s => saved.llmResponse = "" ∧ saved.correctionMessage = none ∧
      RoutedShown t.services (routerNode t.services s)

/-! ## A correction is left with the flag -/

def CorrectionFlagged (s : AgentState) : Prop :=
  s.correctionMessage = none ∨ (s.correctionMessage = some correctionText ∧ s.hitlRequested = true)

theorem correctionFlagged_of_same {s t : AgentState} (flagged : CorrectionFlagged s)
    (correction : t.correctionMessage = s.correctionMessage) (flag : t.hitlRequested = s.hitlRequested) :
    CorrectionFlagged t := by
  unfold CorrectionFlagged
  rwa [correction, flag]

theorem runNode_correctionFlagged {services : Services} {node : Node} {s t : AgentState} {effects : List Effect}
    (flagged : CorrectionFlagged s) (h : runNode services node s = some (t, effects)) : CorrectionFlagged t := by
  cases node with
  | preprocess =>
      obtain ⟨after, preprocessed, eq⟩ := Option.map_eq_some_iff.mp h
      rw [← (Prod.mk.inj eq).1]
      have same := sameReply_preprocess preprocessed
      exact correctionFlagged_of_same flagged same.correctionMessage same.hitlRequested
  | router =>
      rw [← (Prod.mk.inj (Option.some.inj h)).1, routerNode_eq]
      cases flagged with
      | inl none => exact Or.inl none
      | inr set => exact Or.inr ⟨set.1, by simp [set.2]⟩
  | ragEngine =>
      obtain ⟨after, retrieved, eq⟩ := Option.map_eq_some_iff.mp h
      rw [← (Prod.mk.inj eq).1]
      exact correctionFlagged_of_same flagged (ragEngine_keeps retrieved).1 (ragEngine_keeps retrieved).2
  | toolExecutor =>
      rw [← (Prod.mk.inj (Option.some.inj h)).1]
      exact correctionFlagged_of_same flagged (toolExecutor_keeps s).1 (toolExecutor_keeps s).2
  | llmGenerate =>
      rw [← show (llmGenerateNode services s).1 = t from congrArg Prod.fst (Option.some.inj h)]
      exact correctionFlagged_of_same flagged (generate_keeps services s).1 (generate_keeps services s).2
  | guardrails =>
      rw [← (Prod.mk.inj (Option.some.inj h)).1]
      cases verdict : rejects services s with
      | true =>
          rw [guardrailsNode_rejects verdict]
          exact Or.inr ⟨rfl, rfl⟩
      | false =>
          rw [guardrailsNode_passes verdict]
          exact flagged
  | postprocess =>
      rw [← (Prod.mk.inj (Option.some.inj h)).1, postprocessNode]
      split <;> exact flagged
  | hitl =>
      rw [← (Prod.mk.inj (Option.some.inj h)).1]
      exact flagged

theorem run_correctionFlagged {t : ChatTurn} {saved : AgentState} (flagged : CorrectionFlagged saved) :
    (∀ u ∈ (t.run saved).updates, CorrectionFlagged u.state) ∧ CorrectionFlagged (t.run saved).state :=
  StateGraph.runFrom_invariant (fun _ _ _ _ flagged h => runNode_correctionFlagged flagged h) flagged

theorem savedAfter_correctionFlagged (turns : List ChatTurn) : CorrectionFlagged (savedAfter turns) := by
  have keep (saved : AgentState) (flagged : CorrectionFlagged saved) :
      CorrectionFlagged (turns.foldl (fun saved t => (t.run saved).state) saved) := by
    induction turns generalizing saved with
    | nil => exact flagged
    | cons t turns ih => exact ih _ (run_correctionFlagged flagged).2
  exact keep emptyThread (Or.inl rfl)

/-! ## Corrections outgrow the reply of a hand-off -/

theorem visible_correctionItems {u : AgentUpdate} (flagged : CorrectionFlagged u.state) :
    (visible (correctionItems u)).length = if (correctionOf u).isSome then width correctionText.toList else 0 := by
  unfold correctionItems correctionOf
  cases flagged with
  | inl none =>
      rw [none]
      rfl
  | inr set =>
      have long : correctionText ≠ "" := by decide
      simp [set.1, Option.filter, long, visible, Item.text, yieldItem_contentJson, contentOf_contentJson, width]

theorem visible_handleUpdates_le (counts : List Nat) (us : List AgentUpdate) (c : Consumer)
    (flagged : ∀ u ∈ us, CorrectionFlagged u.state) :
    (visible c.items).length + width correctionText.toList * us.countP (fun u => (correctionOf u).isSome) ≤
      (visible (handleUpdates counts us c).items).length := by
  induction us generalizing counts c with
  | nil =>
      rw [List.countP_nil, Nat.mul_zero]
      exact Nat.le_refl _
  | cons u us ih =>
      obtain ⟨here, later⟩ := List.forall_mem_cons.mp flagged
      refine le_trans ?_ (ih counts.tail (handleUpdate (counts.headD 0) u c) later)
      have pushed := visible_correctionItems here
      rw [items_handleUpdate, visible_append, List.length_append, visible_append, List.length_append,
        visible_append, List.length_append, pushed, List.countP_cons]
      split <;> simp only [Nat.mul_add] <;> omega

theorem visible_consumeStream_le (counts : List Nat) {run : AgentRun}
    (flagged : ∀ u ∈ run.updates, CorrectionFlagged u.state) :
    width correctionText.toList * run.updates.countP (fun u => (correctionOf u).isSome) ≤
      (visible (consumeStream counts run).items).length := by
  have handled := visible_handleUpdates_le counts run.updates .start flagged
  have longer : (visible (handleUpdates counts run.updates .start).items).length ≤
      (visible (consumeStream counts run).items).length := by
    unfold consumeStream handleFailure
    split
    · exact Nat.le_refl _
    · rw [items_put, visible_append, List.length_append]
      exact Nat.le_add_right _ _
  exact (Nat.le_add_left _ _).trans (handled.trans longer)

/-- A turn whose updates carry two corrections, and which ends with a hand-off, shows too much. -/
theorem not_showsReply_of_corrections {t : ChatTurn} {saved : AgentState} (flagged : CorrectionFlagged saved)
    (twice : 2 ≤ (t.run saved).updates.countP fun u => (correctionOf u).isSome)
    (transferred : (t.run saved).state.llmResponse = transferText) : ¬ ShowsReply t.counts (t.run saved) := by
  intro shows
  obtain ⟨correction, due, same⟩ := shows.text
  have bound : width correction.toList ≤ width correctionText.toList := by
    cases due with
    | inl empty => simp [empty]
    | inr set =>
        cases (run_correctionFlagged (t := t) flagged).2 with
        | inl none => simp [none] at set
        | inr left =>
            obtain rfl := Option.some.inj (set.2.symm.trans left.1)
            exact Nat.le_refl _
  have long := visible_consumeStream_le t.counts (run_correctionFlagged (t := t) flagged).1
  have short : width transferText.toList < width correctionText.toList := by decide +kernel
  rw [shown_eventGenerator, transferred] at same
  rw [same, units_append, List.length_append] at long
  have more := Nat.mul_le_mul_left (width correctionText.toList) twice
  simp only [width] at bound long short more
  omega

/-! ## A turn without corrections -/

structure Idle (c : Consumer) : Prop where
  items : c.items = []
  sent : c.responseSent = false

structure Quiet (u : AgentUpdate) : Prop where
  tokens : tokenEffects u.effects = []
  correction : u.state.correctionMessage = none

theorem idle_start : Idle .start := ⟨rfl, rfl⟩

theorem correctionItems_of_none {u : AgentUpdate} (none : u.state.correctionMessage = none) :
    correctionItems u = [] := by
  simp [correctionItems, correctionOf, none]

theorem tokenItems_of_nil {u : AgentUpdate} (nil : tokenEffects u.effects = []) : tokenItems u = [] := by
  simp [tokenItems, nil]

section
variable {count : Nat} {u : AgentUpdate} {c : Consumer}

theorem Idle.queue (idle : Idle c) : c.queue = [] := (List.append_eq_nil_iff.mp idle.items).2

theorem Idle.arrived (idle : Idle c) (nil : tokenEffects u.effects = []) : (arrived count u c).queue = [] := by
  simp [Chat.arrived, Consumer.put, Consumer.get, idle.queue, tokenItems_of_nil nil]

theorem items_handleUpdate_served (quiet : Quiet u) (served : u.state.llmResponse = "" ∨ c.responseSent = true) :
    (handleUpdate count u c).items = c.items := by
  have sent : u.state.llmResponse = "" ∨ (arrived count u c).responseSent = true := served
  rw [items_handleUpdate, tokenItems_of_nil quiet.tokens, correctionItems_of_none quiet.correction, responseItems,
    if_pos sent]
  simp

theorem Idle.handleUpdate (idle : Idle c) (quiet : Quiet u) (empty : u.state.llmResponse = "") :
    Idle (handleUpdate count u c) where
  items := by rw [items_handleUpdate_served quiet (Or.inl empty), idle.items]
  sent := by simp [responseSent_handleUpdate, idle.sent, empty]

theorem Idle.response (idle : Idle c) (nil : tokenEffects u.effects = []) (reply : u.state.llmResponse ≠ "")
    (other : u.node ≠ .llmGenerate) :
    (Chat.handleUpdate count u c).items = .response u.node u.state.llmResponse :: correctionItems u := by
  have unsent : ¬ (u.state.llmResponse = "" ∨ (Chat.arrived count u c).responseSent = true) := by
    simpa [Chat.arrived, Consumer.put, Consumer.get, reply] using idle.sent
  have untouched : ¬ ((Chat.arrived count u c).queue ≠ [] ∨ u.node = .llmGenerate) := by
    simp [idle.arrived nil, other]
  rw [items_handleUpdate, responseItems, if_neg unsent, if_neg untouched, idle.items, tokenItems_of_nil nil]
  rfl

theorem Idle.generated (idle : Idle c) (node : u.node = .llmGenerate) (none : u.state.correctionMessage = none) :
    (Chat.handleUpdate count u c).items = tokenItems u := by
  have skipped : responseItems (Chat.arrived count u c) u = [] := by
    unfold responseItems
    split
    · rfl
    · rw [if_pos (Or.inr node)]
  rw [items_handleUpdate, skipped, correctionItems_of_none none, idle.items]
  simp

theorem Idle.response_mem {counts : List Nat} {us : List AgentUpdate} (idle : Idle c)
    (nil : tokenEffects u.effects = []) (reply : u.state.llmResponse ≠ "") (other : u.node ≠ .llmGenerate) :
    .response u.node u.state.llmResponse ∈ (handleUpdates counts (u :: us) c).items := by
  refine (items_prefix_handleUpdates counts.tail us _).subset ?_
  rw [idle.response nil reply other]
  exact List.mem_cons_self

end

/-! ## Which turns show their reply -/

section
variable {services : Services} {s s₁ s₂ s₃ : AgentState} {run rest : AgentRun} {counts : List Nat}

theorem answered_last (path : AnswerPath services s₃ rest) (u₁ u₂ u₃ : AgentUpdate) :
    (u₁ :: u₂ :: u₃ :: rest.updates).getLast?.map (·.node) ∈ [some Node.hitl, some .postprocess] := by
  cases path <;> simp

theorem path_last (path : Path services s run) :
    run.updates.getLast?.map (·.node) ∈ [none, some Node.router, some .hitl, some .postprocess] := by
  cases path with
  | preprocessRaised raises => simp
  | handedOff preprocessed route => simp
  | retrievalRaised preprocessed route raises => simp
  | toolAnswered preprocessed route executed =>
      exact List.mem_cons_of_mem _ (List.mem_cons_of_mem _ (answered_last (answer_path services _) _ _ _))
  | ragAnswered preprocessed route retrieved =>
      exact List.mem_cons_of_mem _ (List.mem_cons_of_mem _ (answered_last (answer_path services _) _ _ _))

/-- Only the last node's reply may be pushed, which is none of the nodes that leave an earlier reply. -/
theorem not_showsReply_of_response {node : Node} {text : String} (path : Path services s run)
    (here : .response node text ∈ (handleUpdates counts run.updates .start).items)
    (early : node = .preprocess ∨ node = .toolExecutor ∨ node = .ragEngine) : ¬ ShowsReply counts run := by
  intro shows
  have last := path_last path
  rw [shows.own node text (mem_consumeStream here)] at last
  rcases early with rfl | rfl | rfl <;> simp at last

theorem path_opening (path : Path services s run) (preprocessed : preprocessNode services s = some s₁) :
    ∃ us, run.updates = ⟨.preprocess, s₁, []⟩ :: us := by
  cases path with
  | preprocessRaised raises => simp [preprocessed] at raises
  | handedOff other route | retrievalRaised other route raises | toolAnswered other route executed
  | ragAnswered other route retrieved =>
      obtain rfl := Option.some.inj (preprocessed.symm.trans other)
      exact ⟨_, rfl⟩

theorem not_showsReply_of_saved (path : Path services s run) (preprocessed : preprocessNode services s = some s₁)
    (reply : s.llmResponse ≠ "") : ¬ ShowsReply counts run := by
  obtain ⟨us, opening⟩ := path_opening path preprocessed
  have kept : s₁.llmResponse ≠ "" := (sameReply_preprocess preprocessed).llmResponse ▸ reply
  have here : .response .preprocess s₁.llmResponse ∈ (handleUpdates counts run.updates .start).items := by
    rw [opening]
    exact idle_start.response_mem rfl kept (by simp)
  exact not_showsReply_of_response path here (Or.inl rfl)

theorem idle_router (correction : s.correctionMessage = none) (reply : s.llmResponse = "")
    (preprocessed : preprocessNode services s = some s₁) :
    Idle (handleUpdate (counts.tail.headD 0) ⟨.router, routerNode services s₁, []⟩
      (handleUpdate (counts.headD 0) ⟨.preprocess, s₁, []⟩ .start)) ∧
    (routerNode services s₁).llmResponse = "" ∧ (routerNode services s₁).correctionMessage = none := by
  have same := sameReply_preprocess preprocessed
  have first : s₁.llmResponse = "" := same.llmResponse.trans reply
  have clean : s₁.correctionMessage = none := same.correctionMessage.trans correction
  have second := (sameReply_router services s₁).1.trans first
  have still := (sameReply_router services s₁).2.trans clean
  exact ⟨(idle_start.handleUpdate ⟨rfl, clean⟩ first).handleUpdate ⟨rfl, still⟩ second, second, still⟩

theorem toolExecutorNode_reply (services : Services) (s : AgentState) :
    (toolExecutorNode services s).llmResponse ≠ "" := by
  obtain ⟨toolCalls, llmResponse, eq, nonempty⟩ := toolExecutorNode_writes services s
  rwa [eq]

theorem cacheHit_ne_empty {cached : String} (hit : cacheHit services s = some cached) : cached ≠ "" := by
  unfold cacheHit at hit
  split at hit
  · simp at hit
  · simpa using (Option.filter_eq_some_iff.mp hit).2

theorem showsReply_iff_of_accepted (accepted : ¬ Rejected run) :
    ShowsReply counts run ↔ visible (consumeStream counts run).items = units run.state.llmResponse.toList ∧
      ∀ node text, Item.response node text ∈ (consumeStream counts run).items →
        run.updates.getLast?.map (·.node) = some node := by
  constructor
  · intro shows
    obtain ⟨correction, due, same⟩ := shows.text
    obtain rfl : correction = "" := due.resolve_right fun set => accepted set.1
    rw [shown_eventGenerator] at same
    exact ⟨by simpa using same, shows.own⟩
  · intro h
    exact ⟨⟨"", Or.inl rfl, by simpa [shown_eventGenerator] using h.1⟩, h.2⟩

theorem showsReply_of_raised (idle : Idle (handleUpdates counts run.updates .start)) (outcome : run.outcome = .raised)
    (accepted : ¬ Rejected run) : ShowsReply counts run ↔ run.state.llmResponse = apology := by
  have only : (consumeStream counts run).items = [.failure] := by
    rw [consumeStream, handleFailure, if_neg (by simp [outcome, idle.sent]), items_put, idle.items]
    rfl
  have apologizes : visible [.failure] = units apology.toList := by
    rw [visible_cons, Item.text, yieldItem_contentJson, contentOf_contentJson]
    exact List.append_nil _
  rw [showsReply_iff_of_accepted accepted, only, apologizes]
  constructor
  · intro h
    exact (String.toList_injective (units_injective h.1)).symm
  · intro same
    exact ⟨by rw [same], by simp⟩

theorem not_showsReply_of_early {node : Node} (early : node = .toolExecutor ∨ node = .ragEngine)
    (path : Path services s run)
    (opening : run.updates = ⟨.preprocess, s₁, []⟩ :: ⟨.router, s₂, []⟩ :: ⟨node, s₃, []⟩ :: rest.updates)
    (idle : Idle (handleUpdate (counts.tail.headD 0) ⟨.router, s₂, []⟩
      (handleUpdate (counts.headD 0) ⟨.preprocess, s₁, []⟩ .start)))
    (reply : s₃.llmResponse ≠ "") : ¬ ShowsReply counts run := by
  have other : node ≠ .llmGenerate := by
    rcases early with rfl | rfl <;> simp
  have here : .response node s₃.llmResponse ∈ (handleUpdates counts run.updates .start).items := by
    rw [opening, handleUpdates, handleUpdates]
    exact idle.response_mem rfl reply other
  exact not_showsReply_of_response path here (Or.inr early)

theorem generated_items {g c : AgentState} {effects : List Effect} {consumer : Consumer} (idle : Idle consumer)
    (generated : llmGenerateNode services s = (g, effects)) (correction : s.correctionMessage = none)
    (checked : c = { g with guardrailsPassed := true }) :
    (handleUpdates counts [⟨.llmGenerate, g, effects⟩, ⟨.guardrails, c, []⟩, ⟨.postprocess, c, []⟩] consumer).items =
      (tokensOf (replyOf services s)).map .token := by
  have clean : g.correctionMessage = none := by
    rw [← correction, ← (generate_keeps services s).1, generated]
  have quiet (node : Node) : Quiet ⟨node, c, []⟩ := ⟨rfl, by rw [checked]; exact clean⟩
  have tokens : tokenEffects effects = tokensOf (replyOf services s) := by
    rw [← tokenEffects_generate, generated]
  have served (count : Nat) (before : Consumer) : c.llmResponse = "" ∨
      (handleUpdate count ⟨.llmGenerate, g, effects⟩ before).responseSent = true := by
    rw [responseSent_handleUpdate, checked]
    by_cases empty : g.llmResponse = "" <;> simp [empty]
  have still (count count' : Nat) (before : Consumer) : c.llmResponse = "" ∨ (handleUpdate count'
      ⟨.guardrails, c, []⟩ (handleUpdate count ⟨.llmGenerate, g, effects⟩ before)).responseSent = true := by
    rw [responseSent_handleUpdate]
    by_cases empty : c.llmResponse = "" <;> simp [empty]
  rw [handleUpdates, handleUpdates, handleUpdates, handleUpdates,
    items_handleUpdate_served (quiet .postprocess) (still _ _ _),
    items_handleUpdate_served (quiet .guardrails) (served _ _), idle.generated rfl clean, tokenItems, tokens]

theorem showsReply_of_generated {g c : AgentState} {effects : List Effect}
    (items : (consumeStream counts run).items = (tokensOf (replyOf services s)).map .token)
    (generated : llmGenerateNode services s = (g, effects)) (checked : c = { g with guardrailsPassed := true })
    (state : run.state = c) (accepted : ¬ Rejected run) : ShowsReply counts run ↔ GeneratedShown services s := by
  have reply : run.state.llmResponse =
      if generationFails services s then apology else fullResponse (replyOf services s) := by
    rw [state, checked, ← llmGenerateNode_response, generated]
  have own (node : Node) (text : String) :
      Item.response node text ∉ (tokensOf (replyOf services s)).map Item.token := by simp
  rw [showsReply_iff_of_accepted accepted, items, reply, GeneratedShown]
  cases fails : generationFails services s with
  | true => simp [own]
  | false =>
      simp only [Bool.false_eq_true, ↓reduceIte, own, false_implies, implies_true, and_true, fullResponse]
      exact visible_tokens_iff _

theorem showsReply_of_handedOff {count : Nat} {consumer : Consumer} (idle : Idle consumer)
    (clean : s.correctionMessage = none)
    (items : (consumeStream counts run).items =
      (handleUpdate count ⟨.hitl, (hitlNode services s).1, (hitlNode services s).2⟩ consumer).items)
    (last : run.updates.getLast?.map (·.node) = some .hitl) (state : run.state = (hitlNode services s).1)
    (accepted : ¬ Rejected run) : ShowsReply counts run := by
  have only : (consumeStream counts run).items = [.response .hitl transferText] := by
    have correction : correctionItems ⟨.hitl, (hitlNode services s).1, (hitlNode services s).2⟩ = [] :=
      correctionItems_of_none clean
    have reply : (hitlNode services s).1.llmResponse ≠ "" := by simp [hitlNode, transferText]
    rw [items, idle.response (tokenEffects_hitl services s) reply (by simp), correction]
    rfl
  rw [showsReply_iff_of_accepted accepted, only, state, visible_cons, Item.text, yieldItem_contentJson,
    contentOf_contentJson]
  refine ⟨List.append_nil _, ?_⟩
  intro node text here
  obtain ⟨rfl, -⟩ := Item.response.inj (List.mem_singleton.mp here)
  exact last

theorem showsReply_of_answered (path : AnswerPath services s₃ rest)
    (idle : Idle (handleUpdate (counts.tail.tail.headD 0) ⟨.ragEngine, s₃, []⟩
      (handleUpdate (counts.tail.headD 0) ⟨.router, s₂, []⟩
        (handleUpdate (counts.headD 0) ⟨.preprocess, s₁, []⟩ .start))))
    (unflagged : s₃.hitlRequested = false) (clean : s₃.correctionMessage = none)
    (shape : run = ⟨⟨.preprocess, s₁, []⟩ :: ⟨.router, s₂, []⟩ :: ⟨.ragEngine, s₃, []⟩ :: rest.updates,
      rest.state, rest.outcome⟩)
    (accepted : ¬ Rejected run) :
    ShowsReply counts run ↔ rejects services (llmGenerateNode services s₃).1 = false ∧ GeneratedShown services s₃ := by
  cases path with
  | @rejected g c effects generated rejected checked =>
      refine absurd ?_ accepted
      simp [Rejected, shape, checked]
  | flagged generated passed flag checked => simp [unflagged] at flag
  | @passed g c effects generated passed flag checked =>
      have items : (consumeStream counts run).items = (tokensOf (replyOf services s₃)).map .token := by
        rw [shape]
        exact (items_handleFailure_of_finished _).trans (generated_items idle generated clean checked)
      have verdict : rejects services (llmGenerateNode services s₃).1 = false := by rw [generated, passed]
      rw [showsReply_of_generated items generated checked (by rw [shape]) accepted]
      simp [verdict]

/-- The turns of a thread with nothing left over, if the guardrails reject no reply. -/
theorem showsReply_iff_routedShown (path : Path services s run)
    (preprocessed : preprocessNode services s = some s₁) (reply : s.llmResponse = "")
    (correction : s.correctionMessage = none) (accepted : ¬ Rejected run) :
    ShowsReply counts run ↔ RoutedShown services (routerNode services s₁) := by
  have ⟨(idle : Idle (handleUpdate (counts.tail.headD 0) ⟨.router, routerNode services s₁, []⟩
    (handleUpdate (counts.headD 0) ⟨.preprocess, s₁, []⟩ .start))), empty, clean⟩ :=
    idle_router correction reply preprocessed
  have shows := path
  cases path with
  | preprocessRaised raises => simp [preprocessed] at raises
  | @handedOff s₁' other route =>
      obtain rfl := Option.some.inj (preprocessed.symm.trans other)
      rw [RoutedShown, route]
      exact iff_true_intro (showsReply_of_handedOff idle clean (items_handleFailure_of_finished _) rfl rfl accepted)
  | @toolAnswered s₁' s₃ other route executed =>
      obtain rfl := Option.some.inj (preprocessed.symm.trans other)
      rw [RoutedShown, route]
      have written : s₃.llmResponse ≠ "" := executed ▸ toolExecutorNode_reply services _
      exact iff_false_intro (not_showsReply_of_early (Or.inl rfl) shows rfl idle written)
  | @retrievalRaised s₁' other route raises =>
      obtain rfl := Option.some.inj (preprocessed.symm.trans other)
      have waiting : Idle (handleUpdates counts
        [⟨.preprocess, s₁, []⟩, ⟨.router, routerNode services s₁, []⟩] .start) := idle
      rw [RoutedShown, route]
      simp only [raises, iff_false]
      intro shows
      have apologized := (showsReply_of_raised waiting rfl accepted).mp shows
      exact absurd (empty.symm.trans apologized) (by decide)
  | @ragAnswered s₁' s₃ other route retrieved =>
      obtain rfl := Option.some.inj (preprocessed.symm.trans other)
      rw [RoutedShown, route]
      simp only [retrieved]
      have unflagged : s₃.hitlRequested = false := by
        obtain ⟨flag, unasked⟩ := routed_rag route
        rw [(ragEngine_keeps retrieved).2, routerNode_flag]
        simp [flag, unasked]
      have cleared : s₃.correctionMessage = none := (ragEngine_keeps retrieved).1.trans clean
      obtain ⟨ragContext, sources, userIntent, written⟩ := ragEngineNode_writes retrieved
      cases hit : cacheHit services (routerNode services s₁) with
      | some cached =>
          have reply : s₃.llmResponse ≠ "" := by
            rw [written, hit]
            exact cacheHit_ne_empty hit
          simp [not_showsReply_of_early (Or.inr rfl) shows rfl idle reply]
      | none =>
          have still : s₃.llmResponse = "" := by
            rw [written, hit]
            exact empty
          rw [showsReply_of_answered (answer_path services s₃) (idle.handleUpdate ⟨rfl, cleared⟩ still) unflagged
            cleared rfl accepted]
          simp

theorem rejected_not_routedShown (path : Path services s run) (preprocessed : preprocessNode services s = some s₁)
    (rejected : Rejected run) : ¬ RoutedShown services (routerNode services s₁) := by
  cases path with
  | preprocessRaised raises => simp [preprocessed] at raises
  | handedOff other route => simp [Rejected] at rejected
  | retrievalRaised other route raises => simp [Rejected] at rejected
  | toolAnswered other route executed =>
      obtain rfl := Option.some.inj (preprocessed.symm.trans other)
      simp [RoutedShown, route]
  | ragAnswered other route retrieved =>
      obtain rfl := Option.some.inj (preprocessed.symm.trans other)
      have verdict := rejects_of_rejected (answer_path services _) (by simp) rejected
      simp [RoutedShown, route, retrieved, verdict]

theorem showsReply_of_unread (path : Path services s run) (raises : preprocessNode services s = none) :
    ShowsReply counts run ↔ s.llmResponse = apology := by
  cases path with
  | preprocessRaised _ => exact showsReply_of_raised idle_start rfl (by simp [Rejected])
  | handedOff preprocessed _ | retrievalRaised preprocessed _ _ | toolAnswered preprocessed _ _
  | ragAnswered preprocessed _ _ => simp [raises] at preprocessed

end

/-! ## The turns of every thread -/

section
variable {t : ChatTurn} {saved : AgentState} {s₁ : AgentState}

theorem not_showsReply_of_rejected (flagged : CorrectionFlagged saved) (rejected : Rejected (t.run saved)) :
    ¬ ShowsReply t.counts (t.run saved) := by
  refine not_showsReply_of_corrections flagged (correctionCount_items ▸ correctionCount_of_rejected rejected) ?_
  cases turn_handoff t.services (t.payload.merge saved) with
  | unread raises quiet kept =>
      obtain ⟨u, here, -⟩ := rejected
      rw [ChatTurn.run, quiet] at here
      simp at here
  | transferred preprocessed cause reached flag reply => exact reply
  | answered preprocessed unflagged unasked served flag => exact absurd (Or.inr rejected) unasked

theorem not_showsReply_of_correction (flagged : CorrectionFlagged saved) (left : saved.correctionMessage ≠ none)
    (preprocessed : preprocessNode t.services (t.payload.merge saved) = some s₁) :
    ¬ ShowsReply t.counts (t.run saved) := by
  obtain ⟨correction, flag⟩ := flagged.resolve_left left
  cases turn_corrections t.services (t.payload.merge saved) with
  | unread raises quiet kept accepted => simp [preprocessed] at raises
  | rejected n _ carried set rejected => exact not_showsReply_of_rejected flagged rejected
  | saved n _ carried kept accepted =>
      refine not_showsReply_of_corrections flagged ?_ ?_
      · have pushed : ((some correctionText).filter (· ≠ "")).isSome = true := by decide
        rw [ChatTurn.run, correctionCount_replicate carried, show (t.payload.merge saved).correctionMessage =
          some correctionText from correction, if_pos pushed]
        exact Nat.le_add_left 2 n
      · cases turn_handoff t.services (t.payload.merge saved) with
        | unread raises quiet kept => simp [preprocessed] at raises
        | transferred _ cause reached flag reply => exact reply
        | answered _ unflagged unasked served _ => exact absurd (flag.symm.trans unflagged) (by simp)

end

/-- A turn shows its reply exactly when nothing is left over from an earlier turn and it is handed off, or
generates a reply that is neither found in the cache nor rejected nor cut into a token that looks wrapped. -/
theorem showsReply_iff_shownWhen (turns : List ChatTurn) (t : ChatTurn) :
    ShowsReply t.counts (t.run (savedAfter turns)) ↔ ShownWhen t (savedAfter turns) := by
  have flagged := savedAfter_correctionFlagged turns
  generalize savedAfter turns = saved at flagged
  have path := turn_path t.services (t.payload.merge saved)
  unfold ShownWhen
  cases preprocessed : preprocessNode t.services (t.payload.merge saved) with
  | none => exact (showsReply_of_unread path preprocessed).trans Iff.rfl
  | some s₁ =>
      by_cases reply : saved.llmResponse = ""
      · by_cases correction : saved.correctionMessage = none
        · by_cases rejected : Rejected (t.run saved)
          · have not_shown := rejected_not_routedShown path preprocessed rejected
            simp [not_showsReply_of_rejected flagged rejected, not_shown]
          · rw [ChatTurn.run, showsReply_iff_routedShown path preprocessed reply correction rejected]
            simp [reply, correction]
        · simp [not_showsReply_of_correction flagged correction preprocessed, correction]
      · simp [ChatTurn.run, not_showsReply_of_saved path preprocessed reply, reply]

def orderQuestion : ChatTurn :=
  { services := { offline with llm := fun _ _ => ⟨[.ofText "已发货"], false⟩ }
    payload := ⟨[userMessage "我的订单"], some "tenant", some "thread"⟩
    counts := [] }

def shippedResult : String :=
  "\x7b'order_id': 'unknown', 'tenant_id': 'tenant', 'status': 'shipped', " ++
    "'tracking_number': 'SF1234567890', 'estimated_delivery': '2026-04-05'\x7d"

/-- The client is shown the result of the tool before the reply. -/
theorem toolResult_shown : ¬ ∀ (turns : List ChatTurn) (t : ChatTurn),
    ShowsReply t.counts (t.run (savedAfter turns)) := by
  intro claim
  obtain ⟨correction, due, same⟩ := (claim [] orderQuestion).text
  have accepted : ¬ Rejected (orderQuestion.run emptyThread) := by
    unfold Rejected
    decide +kernel
  obtain rfl : correction = "" := due.resolve_right fun set => accepted set.1
  have items : (consumeStream orderQuestion.counts (orderQuestion.run emptyThread)).items =
      [.response .toolExecutor shippedResult, .token "已发货"] := by decide +kernel
  have reply : (orderQuestion.run emptyThread).state.llmResponse = "已发货" := by decide +kernel
  have plain : yieldItem "已发货" = contentJson "已发货" := by simp [yieldItem, startsWithBrace]
  rw [show savedAfter [] = emptyThread from rfl, shown_eventGenerator, items, reply] at same
  simp only [visible_cons, Item.text, yieldItem_contentJson, contentOf_contentJson, plain] at same
  exact absurd (congrArg List.length same) (by decide +kernel)

end CuckooEcho.Chat
