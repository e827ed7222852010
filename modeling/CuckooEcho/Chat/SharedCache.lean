import CuckooEcho.Agent.PrivateInputs
import CuckooEcho.Chat.Stream
import CuckooEcho.Lib.Noninterference
import CuckooEcho.Shared.SemanticCache

namespace CuckooEcho.Chat
open Lib Agent

/-! ## Threads that share the semantic cache -/

/-- A turn in progress: the node to run next and the state that it is called with. -/
structure Ongoing where
  threadId : String
  services : Services
  node : Node
  state : AgentState

/-- `served` recalls the replies that the cache has answered with, and for which thread. -/
structure Deployment where
  checkpoints : String → Option AgentState
  ongoing : Nat → Option Ongoing
  rows : List Shared.CacheRow
  served : List (String × String)

inductive CacheAction
  | enter (id : Nat) (threadId : String) (services : Services) (payload : Payload)
  | run (id : Nat) (cache : Shared.SemanticCache)
  | cutOff (id : Nat) (cache : Shared.SemanticCache)
  | cancel (id : Nat)
  | invalidate (cache : Shared.SemanticCache) (tenantId : String)

def storeEffect (cache : Shared.SemanticCache) (rows : List Shared.CacheRow) : Effect → List Shared.CacheRow
  | .cacheStore query response tenantId => Shared.cacheStore cache rows query response tenantId
  | _ => rows

namespace Deployment

def enter (d : Deployment) (id : Nat) (threadId : String) (services : Services) (payload : Payload) :
    Deployment :=
  let merged := payload.merge ((d.checkpoints threadId).getD emptyThread)
  { d with
    checkpoints := Function.update d.checkpoints threadId (some merged)
    ongoing := Function.update d.ongoing id (some ⟨threadId, services, .preprocess, merged⟩) }

def cached (d : Deployment) (cache : Shared.SemanticCache) (services : Services) : Services :=
  { services with cacheLookup := Shared.cacheLookup cache d.rows }

def hit (d : Deployment) (cache : Shared.SemanticCache) (turn : Ongoing) : List (String × String) :=
  if turn.node = .ragEngine then
    ((cacheHit (d.cached cache turn.services) turn.state).map fun reply => (turn.threadId, reply)).toList
  else []

def run (d : Deployment) (id : Nat) (cache : Shared.SemanticCache) (turn : Ongoing) : Deployment :=
  -- A turn ends with a node that raises, and with the last node of the graph
  match runNode (d.cached cache turn.services) turn.node turn.state with
  | none => { d with ongoing := Function.update d.ongoing id none }
  | some (state, effects) =>
      { checkpoints := Function.update d.checkpoints turn.threadId (some state)
        ongoing := Function.update d.ongoing id
          ((edge turn.node state).map fun node => { turn with node, state })
        rows := effects.foldl (storeEffect cache) d.rows
        served := d.served ++ d.hit cache turn }

/-- The turn is cancelled when the node has returned and its update is not saved yet. -/
def cutOff (d : Deployment) (id : Nat) (cache : Shared.SemanticCache) (turn : Ongoing) : Deployment :=
  { d with ongoing := Function.update d.ongoing id none, rows := (d.run id cache turn).rows }

def step (d : Deployment) : CacheAction → Option Deployment
  | .enter id threadId services payload =>
      if (d.ongoing id).isSome then none else some (d.enter id threadId services payload)
  | .run id cache => (d.ongoing id).map (d.run id cache)
  | .cutOff id cache => (d.ongoing id).map (d.cutOff id cache)
  | .cancel id => some { d with ongoing := Function.update d.ongoing id none }
  | .invalidate cache tenantId => some { d with rows := Shared.cacheInvalidate cache d.rows tenantId }

def servedOn (d : Deployment) (threadId : String) : List String :=
  (d.served.filter fun reply => reply.1 = threadId).map (·.2)

end Deployment

/-! ## A turn that is left alone -/

theorem foldl_storeEffect (cache : Shared.SemanticCache) (effects : List Effect) (rows : List Shared.CacheRow) :
    effects.foldl (storeEffect cache) rows = (effects.filter Effect.isStore).foldl (storeEffect cache) rows := by
  induction effects generalizing rows with
  | nil => rfl
  | cons effect effects ih =>
      cases effect with
      | cacheStore query response tenantId => exact ih _
      | completion | token | notifyHitlRequest => exact ih rows

section
variable {id : Nat} {cache : Shared.SemanticCache} {threadId : String} {services : Services}

/-- From the generation on no node asks the cache, whose rows may have changed since the turn began. -/
theorem runNode_cached {d : Deployment} {shown : Services}
    (same : shown = { services with cacheLookup := shown.cacheLookup }) {n : Node}
    (current : Shared.cacheLookup cache d.rows = shown.cacheLookup ∨ ahead n ≤ 1) (s : AgentState) :
    runNode (d.cached cache services) n s = runNode shown n s := by
  cases current with
  | inl now => rw [Deployment.cached, now, ← same]
  | inr late =>
      rw [same]
      cases n with
      | preprocess | router | ragEngine | toolExecutor | llmGenerate => exact absurd late (by decide)
      | guardrails | postprocess | hitl => rfl

theorem exec_runFrom {d : Deployment} {shown : Services}
    (same : shown = { services with cacheLookup := shown.cacheLookup }) {limit : Nat} {n : Node} {s : AgentState}
    (here : d.ongoing id = some ⟨threadId, services, n, s⟩) (saved : d.checkpoints threadId = some s)
    (current : Shared.cacheLookup cache d.rows = shown.cacheLookup ∨ ahead n ≤ 1) (enough : ahead n < limit) :
    ∃ nodes d', exec Deployment.step d (List.replicate nodes (.run id cache)) = some d' ∧ d'.ongoing id = none ∧
      d'.checkpoints threadId = some ((agentGraph shown).runFrom limit n s).state := by
  induction limit generalizing d n s with
  | zero => omega
  | succ limit ih =>
      have node := runNode_cached same current s
      have step : d.step (.run id cache) = some (d.run id cache ⟨threadId, services, n, s⟩) := by
        simp only [Deployment.step, here, Option.map_some]
      have first : exec Deployment.step d (List.replicate 1 (.run id cache)) =
          some (d.run id cache ⟨threadId, services, n, s⟩) := by
        rw [List.replicate_one, exec_cons, step]
        rfl
      cases result : runNode shown n s with
      | none =>
          have raises : (agentGraph shown).node n s = none := result
          rw [StateGraph.runFrom_raised raises]
          refine ⟨1, _, first, ?_, ?_⟩
          · simp [Deployment.run, node, result]
          · simpa [Deployment.run, node, result] using saved
      | some after =>
          obtain ⟨t, effects⟩ := after
          have updates : (agentGraph shown).node n s = some (t, effects) := result
          have ran : d.run id cache ⟨threadId, services, n, s⟩ =
              { checkpoints := Function.update d.checkpoints threadId (some t)
                ongoing := Function.update d.ongoing id
                  ((edge n t).map fun node => ⟨threadId, services, node, t⟩)
                rows := effects.foldl (storeEffect cache) d.rows
                served := d.served ++ d.hit cache ⟨threadId, services, n, s⟩ } := by
            simp only [Deployment.run, node, result]
          cases next : edge n t with
          | none =>
              rw [StateGraph.runFrom_last updates next]
              refine ⟨1, _, first, ?_, ?_⟩
              · simp [ran, next]
              · simp [ran]
          | some m =>
              rw [StateGraph.runFrom_next updates next]
              have lower := ahead_edge next
              have current' : Shared.cacheLookup cache (effects.foldl (storeEffect cache) d.rows) =
                  shown.cacheLookup ∨ ahead m ≤ 1 := by
                by_cases generates : n = .llmGenerate
                · subst generates
                  exact Or.inr (Nat.le_of_lt_succ lower)
                · rw [foldl_storeEffect, stored_of_ne result generates]
                  exact current.imp_right (by omega)
              obtain ⟨nodes, d', run, ended, left⟩ :=
                ih (d := d.run id cache ⟨threadId, services, n, s⟩) (n := m) (s := t)
                  (by simp [ran, next]) (by simp [ran]) (by rw [ran]; exact current') (by omega)
              refine ⟨nodes + 1, d', ?_, ended, left⟩
              rw [List.replicate_succ, exec_cons, step]
              exact run

/-- A turn that no other action comes between leaves its thread as the graph does. -/
theorem exec_turn {d : Deployment} (idle : d.ongoing id = none) (payload : Payload) :
    ∃ nodes d',
      exec Deployment.step d
        (.enter id threadId services payload :: List.replicate nodes (.run id cache)) = some d' ∧
      d'.ongoing id = none ∧
      d'.checkpoints threadId = some
        (turn (d.cached cache services) (payload.merge ((d.checkpoints threadId).getD emptyThread))).state := by
  have current : Shared.cacheLookup cache (d.enter id threadId services payload).rows =
      (d.cached cache services).cacheLookup := rfl
  obtain ⟨nodes, d', run, ended, left⟩ :=
    exec_runFrom rfl (Function.update_self _ _ _) (Function.update_self _ _ _) (Or.inl current)
      (show ahead .preprocess < recursionLimit by decide)
  refine ⟨nodes, d', ?_, ended, left⟩
  rw [exec_cons, Deployment.step, idle]
  exact run

end

/-! ## Two runs that differ in the private inputs of a thread -/

/-- The same action, or requests on the thread that ask the same with other messages, media and
tool results. -/
inductive SameButPrivate (own : String) : CacheAction → CacheAction → Prop
  | same (a : CacheAction) : SameButPrivate own a a
  | enter {id : Nat} {services services' : Services} {payload payload' : Payload}
      (shared : SamePublic services services') (tenantId : payload.tenantId = payload'.tenantId)
      (threadId : payload.threadId = payload'.threadId)
      (query : queryOf services payload.messages = queryOf services' payload'.messages) :
      SameButPrivate own (.enter id own services payload) (.enter id own services' payload')

/-- A reply of the thread that may be stored is generated from the query and the reference information
alone. -/
def StoresByQuery (own : String) (d : Deployment) : CacheAction → Prop
  | .run id _ | .cutOff id _ => ∀ turn ∈ d.ongoing id,
      turn.threadId = own → turn.node = .llmGenerate → PromptIsQuery turn.state
  | .enter .. | .cancel _ | .invalidate .. => True

instance (own : String) (d : Deployment) : (a : CacheAction) → Decidable (StoresByQuery own d a)
  | .run id _ | .cutOff id _ => inferInstanceAs (Decidable (∀ turn ∈ d.ongoing id,
      turn.threadId = own → turn.node = .llmGenerate → PromptIsQuery turn.state))
  | .enter .. | .cancel _ | .invalidate .. => isTrue trivial

def ServesAlike (own : String) (d : Deployment) (actions actions' : List CacheAction) : Prop :=
  ∀ s t, exec Deployment.step d actions = some s → exec Deployment.step d actions' = some t →
    ∀ threadId, threadId ≠ own → s.servedOn threadId = t.servedOn threadId

/-- The turns are the same, or turns of the thread in states that agree. -/
inductive Matched (own : String) : Ongoing → Ongoing → Prop
  | same (turn : Ongoing) : Matched own turn turn
  | own {services services' : Services} {node : Node} {s t : AgentState}
      (shared : SamePublic services services') (agree : Agree s t) (ready : Ready services services' node s t) :
      Matched own ⟨own, services, node, s⟩ ⟨own, services', node, t⟩

structure Confined (own : String) (d e : Deployment) : Prop where
  others : ∀ threadId, threadId ≠ own → d.checkpoints threadId = e.checkpoints threadId
  saved : Agree ((d.checkpoints own).getD emptyThread) ((e.checkpoints own).getD emptyThread)
  ongoing : ∀ id, Option.Rel (Matched own) (d.ongoing id) (e.ongoing id)
  rows : d.rows = e.rows
  served : d.served = e.served

theorem samePublic_refl (services : Services) : SamePublic services services :=
  .mk services.asrClient services.ossClient services.visionClient services.orderService

section
variable {own : String} {d e : Deployment}

theorem Confined.refl (own : String) (d : Deployment) : Confined own d d := by
  refine ⟨fun _ _ => rfl, Agree.refl _, fun id => ?_, rfl, rfl⟩
  cases d.ongoing id with
  | none => exact .none
  | some turn => exact .some (.same turn)

theorem Confined.update (confined : Confined own d e) (id : Nat) {turn turn' : Option Ongoing}
    (matched : Option.Rel (Matched own) turn turn') (other : Nat) :
    Option.Rel (Matched own) (Function.update d.ongoing id turn other)
      (Function.update e.ongoing id turn' other) := by
  by_cases here : other = id
  · subst here
    rw [Function.update_self, Function.update_self]
    exact matched
  · rw [Function.update_of_ne here, Function.update_of_ne here]
    exact confined.ongoing other

theorem Confined.save (confined : Confined own d e) (threadId : String) {s t : AgentState}
    (same : threadId ≠ own → s = t) (agree : threadId = own → Agree s t) :
    (∀ other, other ≠ own → Function.update d.checkpoints threadId (some s) other =
      Function.update e.checkpoints threadId (some t) other) ∧
    Agree ((Function.update d.checkpoints threadId (some s) own).getD emptyThread)
      ((Function.update e.checkpoints threadId (some t) own).getD emptyThread) := by
  constructor
  · intro other different
    by_cases here : other = threadId
    · subst here
      rw [Function.update_self, Function.update_self, same different]
    · rw [Function.update_of_ne here, Function.update_of_ne here, confined.others other different]
  · by_cases here : own = threadId
    · subst here
      rw [Function.update_self, Function.update_self]
      exact agree rfl
    · rw [Function.update_of_ne here, Function.update_of_ne here]
      exact confined.saved

theorem Confined.enter_own (confined : Confined own d e) (id : Nat) {services services' : Services}
    {payload payload' : Payload} (shared : SamePublic services services')
    (tenantId : payload.tenantId = payload'.tenantId) (threadId : payload.threadId = payload'.threadId)
    (query : queryOf services payload.messages = queryOf services' payload'.messages) :
    Confined own (d.enter id own services payload) (e.enter id own services' payload') := by
  have agree := confined.saved.merge tenantId threadId
  obtain ⟨others, saved⟩ := confined.save own (fun other => absurd rfl other) (fun _ => agree)
  exact ⟨others, saved, confined.update id (.some (.own shared agree query)), confined.rows, confined.served⟩

theorem Confined.enter_same (confined : Confined own d e) (id : Nat) (threadId : String)
    (services : Services) (payload : Payload) :
    Confined own (d.enter id threadId services payload) (e.enter id threadId services payload) := by
  by_cases here : threadId = own
  · subst here
    exact confined.enter_own id (samePublic_refl services) rfl rfl rfl
  · have same : payload.merge ((d.checkpoints threadId).getD emptyThread) =
        payload.merge ((e.checkpoints threadId).getD emptyThread) := by rw [confined.others threadId here]
    obtain ⟨others, saved⟩ := confined.save threadId (fun _ => same) (fun own => absurd own here)
    refine ⟨others, saved, confined.update id ?_, confined.rows, confined.served⟩
    rw [same]
    exact .some (.same _)

theorem ready_cached (cache : Shared.SemanticCache) {services services' : Services} {n : Node}
    {s t : AgentState} :
    Ready (d.cached cache services) (e.cached cache services') n s t ↔ Ready services services' n s t := by
  cases n with
  | preprocess =>
      have same (d : Deployment) (services : Services) (messages : List Message) :
          queryOf (d.cached cache services) messages = queryOf services messages := queryOf_cacheLookup _ messages
      simp only [Ready, same]
  | router | ragEngine | toolExecutor | llmGenerate | guardrails | postprocess | hitl => exact Iff.rfl

theorem Confined.cached (confined : Confined own d e) (cache : Shared.SemanticCache)
    {services services' : Services} (shared : SamePublic services services') :
    SamePublic (d.cached cache services) (e.cached cache services') := by
  unfold Deployment.cached
  rw [confined.rows]
  cases shared with
  | mk asrClient ossClient visionClient orderService =>
      exact .mk asrClient ossClient visionClient orderService

theorem Confined.run_same (confined : Confined own d e) (id : Nat) (cache : Shared.SemanticCache)
    (turn : Ongoing) : Confined own (d.run id cache turn) (e.run id cache turn) := by
  have cached : d.cached cache turn.services = e.cached cache turn.services := by
    unfold Deployment.cached
    rw [confined.rows]
  have hit : d.hit cache turn = e.hit cache turn := by
    unfold Deployment.hit
    rw [cached]
  unfold Deployment.run
  rw [cached, hit]
  cases runNode (e.cached cache turn.services) turn.node turn.state with
  | none => exact ⟨confined.others, confined.saved, confined.update id .none, confined.rows, confined.served⟩
  | some result =>
      obtain ⟨others, saved⟩ := confined.save turn.threadId (fun _ => rfl) (fun _ => Agree.refl result.1)
      refine ⟨others, saved, confined.update id ?_, ?_, ?_⟩
      · cases edge turn.node result.1 with
        | none => exact .none
        | some node => exact .some (.same _)
      · exact congrArg (result.2.foldl (storeEffect cache)) confined.rows
      · exact congrArg (· ++ e.hit cache turn) confined.served

theorem Confined.hit_own (confined : Confined own d e) (cache : Shared.SemanticCache)
    {services services' : Services} {node : Node} {s t : AgentState} (agree : Agree s t)
    (ready : Ready services services' node s t) :
    d.hit cache ⟨own, services, node, s⟩ = e.hit cache ⟨own, services', node, t⟩ := by
  unfold Deployment.hit
  by_cases retrieves : node = .ragEngine
  · subst retrieves
    have asked : cacheHit (e.cached cache services') t = cacheHit (d.cached cache services) t := by
      simp only [cacheHit, Deployment.cached, confined.rows]
    simp only [↓reduceIte, asked, cacheHit_congr (d.cached cache services) agree ready]
  · simp only [retrieves, ↓reduceIte]

/-- The thread's own turns take the same way and store the same, if what they store is generated from
the query. -/
theorem Confined.run_own (confined : Confined own d e) (id : Nat) (cache : Shared.SemanticCache)
    {services services' : Services} {node : Node} {s t : AgentState} (shared : SamePublic services services')
    (agree : Agree s t) (ready : Ready services services' node s t)
    (stores : node = .llmGenerate → PromptIsQuery s ∧ PromptIsQuery t) :
    Confined own (d.run id cache ⟨own, services, node, s⟩) (e.run id cache ⟨own, services', node, t⟩) := by
  have result := runNode_agree (confined.cached cache shared) agree ((ready_cached cache).mpr ready) stores
  unfold Deployment.run
  rw [confined.hit_own cache agree ready]
  dsimp only
  generalize runNode (d.cached cache services) node s = left at result
  generalize runNode (e.cached cache services') node t = right at result
  cases result with
  | none => exact ⟨confined.others, confined.saved, confined.update id .none, confined.rows, confined.served⟩
  | @some p q after =>
      obtain ⟨others, saved⟩ := confined.save own (fun other => absurd rfl other) (fun _ => after.agree)
      refine ⟨others, saved, confined.update id ?_, ?_, ?_⟩
      · rw [← after.next]
        cases next : edge node p.1 with
        | none => exact .none
        | some m => exact .some (.own shared after.agree ((ready_cached cache).mp (after.ready m next)))
      · dsimp only
        rw [foldl_storeEffect, foldl_storeEffect cache q.2, after.stored, confined.rows]
      · exact congrArg (· ++ _) confined.served

theorem Confined.run (confined : Confined own d e) (id : Nat) (cache : Shared.SemanticCache)
    {turn turn' : Ongoing} (here : d.ongoing id = some turn) (here' : e.ongoing id = some turn')
    (stores : turn.threadId = own → turn.node = .llmGenerate → PromptIsQuery turn.state)
    (stores' : turn'.threadId = own → turn'.node = .llmGenerate → PromptIsQuery turn'.state) :
    Confined own (d.run id cache turn) (e.run id cache turn') := by
  have matched := confined.ongoing id
  rw [here, here'] at matched
  cases matched with
  | some matched =>
      cases matched with
      | same => exact confined.run_same id cache turn
      | own shared agree ready =>
          exact confined.run_own id cache shared agree ready fun generates =>
            ⟨stores rfl generates, stores' rfl generates⟩

theorem Confined.step {d' e' : Deployment} {a b : CacheAction} (confined : Confined own d e)
    (paired : SameButPrivate own a b) (stores : StoresByQuery own d a) (stores' : StoresByQuery own e b)
    (next : d.step a = some d') (next' : e.step b = some e') : Confined own d' e' := by
  cases paired with
  | @enter id services services' payload payload' shared tenantId threadId query =>
      simp only [Deployment.step] at next next'
      split at next
      · cases next
      · split at next'
        · cases next'
        · cases next
          cases next'
          exact confined.enter_own id shared tenantId threadId query
  | same =>
      cases a with
      | enter id threadId services payload =>
          simp only [Deployment.step] at next next'
          split at next
          · cases next
          · split at next'
            · cases next'
            · cases next
              cases next'
              exact confined.enter_same id threadId services payload
      | run id cache =>
          obtain ⟨turn, here, rfl⟩ := Option.map_eq_some_iff.mp next
          obtain ⟨turn', here', rfl⟩ := Option.map_eq_some_iff.mp next'
          exact confined.run id cache here here' (stores _ here) (stores' _ here')
      | cutOff id cache =>
          obtain ⟨turn, here, rfl⟩ := Option.map_eq_some_iff.mp next
          obtain ⟨turn', here', rfl⟩ := Option.map_eq_some_iff.mp next'
          have ran := confined.run id cache here here' (stores _ here) (stores' _ here')
          exact ⟨confined.others, confined.saved, confined.update id .none, ran.rows, confined.served⟩
      | cancel id =>
          cases next
          cases next'
          exact ⟨confined.others, confined.saved, confined.update id .none, confined.rows, confined.served⟩
      | invalidate cache tenantId =>
          cases next
          cases next'
          exact ⟨confined.others, confined.saved, confined.ongoing,
            congrArg (Shared.cacheInvalidate cache · tenantId) confined.rows, confined.served⟩

end

/-- Two runs that differ in the private inputs of a thread are answered the same by the cache on every other
thread, if no reply of the thread that may be stored is generated from them. -/
theorem servesAlike_of_storesByQuery (own : String) (d : Deployment) (actions actions' : List CacheAction)
    (paired : List.Forall₂ (SameButPrivate own) actions actions')
    (stores : Along Deployment.step (StoresByQuery own) d actions)
    (stores' : Along Deployment.step (StoresByQuery own) d actions') : ServesAlike own d actions actions' := by
  intro s t run run' threadId _
  have keep : ∀ (d e : Deployment) (a b : CacheAction) (d' e' : Deployment), Confined own d e →
      SameButPrivate own a b → StoresByQuery own d a → StoresByQuery own e b →
      d.step a = some d' → e.step b = some e' → Confined own d' e' :=
    fun _ _ _ _ _ _ confined => confined.step
  have confined := exec_paired keep paired (Confined.refl own d) stores stores' run run'
  unfold Deployment.servedOn
  rw [confined.served]

/-! ## What another thread is served -/

def vacant : Deployment := { checkpoints := fun _ => none, ongoing := fun _ => none, rows := [], served := [] }

/-- The rows with the query's own vector, which is the length of the query. -/
def exactCache : Shared.SemanticCache where
  milvusClient := some
    { search := fun vector rows => some ((rows.filter fun row => row.queryVector = vector).map fun row => (1, row))
      inserts := true
      deletes := true }
  embeddingService := some fun query => some [query.length]
  time := 0

/-- A document is found for longer questions, and the model repeats the last instruction that it is given. -/
def parrot (status : String) : Services :=
  { offline with
    orderService := some fun _ _ _ => .result [("status", .str status)]
    embeddingService := some fun query => some [query.length]
    search := fun vector _ _ => some (if vector = [4] then
      [[⟨some "doc", some "七天无理由退货", none, none, none, ⟨none, none⟩⟩]] else [])
    llm := fun messages _ =>
      ⟨[.ofText (((messages.filter fun m => m.role = "system").getLast?.map (·.content)).getD "")], false⟩ }

def wholeTurn (id : Nat) (threadId : String) (services : Services) (messages : List Message) (nodes : Nat) :
    List CacheAction :=
  .enter id threadId services ⟨messages, some "tenant", some threadId⟩ :: List.replicate nodes (.run id exactCache)

theorem wholeTurn_paired {own : String} {id : Nat} {services services' : Services}
    {messages messages' : List Message} (nodes : Nat) (shared : SamePublic services services')
    (query : queryOf services messages = queryOf services' messages') :
    List.Forall₂ (SameButPrivate own) (wholeTurn id own services messages nodes)
      (wholeTurn id own services' messages' nodes) := by
  refine .cons (.enter shared rfl rfl query) ?_
  exact List.forall₂_same.mpr fun a _ => .same a

def greetingThenReturns (earlier : String) : List CacheAction :=
  wholeTurn 0 "a" (parrot earlier) [userMessage earlier, userMessage "你好"] 6 ++
    wholeTurn 1 "a" (parrot earlier) [userMessage "怎么退货"] 6 ++
    wholeTurn 2 "b" (parrot "") [userMessage "怎么退货"] 3

theorem servesAlike_of_storesByQuery_greeting :
    ServesAlike "a" vacant (greetingThenReturns "我叫小明") (greetingThenReturns "我叫小红") ∧
      (exec Deployment.step vacant (greetingThenReturns "我叫小明")).map (·.servedOn "b") =
        some ["Reference information:\n七天无理由退货\n\nSources: [1]"] := by
  have shared : SamePublic (parrot "我叫小明") (parrot "我叫小红") := .mk none none none _
  refine ⟨servesAlike_of_storesByQuery "a" vacant _ _ ?_ (by decide +kernel) (by decide +kernel),
    by decide +kernel⟩
  exact List.rel_append (List.rel_append (wholeTurn_paired 6 shared rfl) (wholeTurn_paired 6 shared rfl))
    (List.forall₂_same.mpr fun a _ => .same a)

def orderThenReturns (status : String) : List CacheAction :=
  wholeTurn 0 "a" (parrot status) [userMessage "我的订单"] 6 ++
    wholeTurn 1 "a" (parrot status) [userMessage "怎么退货"] 6 ++
    wholeTurn 2 "b" (parrot "") [userMessage "怎么退货"] 3

theorem orderStatus_served : ¬ ∀ (own : String) (d : Deployment) (actions actions' : List CacheAction),
    List.Forall₂ (SameButPrivate own) actions actions' → ServesAlike own d actions actions' := by
  intro claim
  have shared : SamePublic (parrot "SF1") (parrot "SF2") := .mk none none none _
  have alike := claim "a" vacant (orderThenReturns "SF1") (orderThenReturns "SF2")
    (List.rel_append (List.rel_append (wholeTurn_paired 6 shared rfl) (wholeTurn_paired 6 shared rfl))
      (List.forall₂_same.mpr fun a _ => .same a))
  have left : (exec Deployment.step vacant (orderThenReturns "SF1")).map (·.servedOn "b") =
      some ["Tool result: \x7b'status': 'SF1'\x7d"] := by decide +kernel
  have right : (exec Deployment.step vacant (orderThenReturns "SF2")).map (·.servedOn "b") =
      some ["Tool result: \x7b'status': 'SF2'\x7d"] := by decide +kernel
  obtain ⟨s, run, served⟩ := Option.map_eq_some_iff.mp left
  obtain ⟨t, run', served'⟩ := Option.map_eq_some_iff.mp right
  have same := alike s t run run' "b" (by decide)
  rw [served, served'] at same
  exact absurd same (by decide)

end CuckooEcho.Chat
