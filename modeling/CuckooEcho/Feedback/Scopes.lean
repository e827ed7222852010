import CuckooEcho.Feedback.Stats

namespace CuckooEcho.Feedback
open Lib

/-! ## Cached statistics of an unchanged table -/

/-- The table stays as it is. -/
def Call.Reading : Call → Prop
  | .storeFeedback .. => False
  | .getFeedbackStats .. | .wait _ => True

instance : (call : Call) → Decidable call.Reading
  | .storeFeedback .. => isFalse id
  | .getFeedbackStats .. | .wait _ => isTrue trivial

section
variable {π : Type*} (uuid : String → Option Uuid) (percentage : Nat → Nat → π)

def Board.uncached (b : Board π) : Board π := { b with cache := fun _ => none }

/-- What the call returns, `none` for an exception, is what an empty cache would make it return. -/
def AsUncached (b : Board π) : Call → Prop
  | .getFeedbackStats tenantId threadId messageId =>
      (b.getFeedbackStats uuid percentage tenantId threadId messageId).map Prod.fst =
        (b.uncached.getFeedbackStats uuid percentage tenantId threadId messageId).map Prod.fst
  | _ => True

/-- An entry that the call finds under its key has been counted for its scope. -/
def SameScope (b : Board π) : Call → Prop
  | .getFeedbackStats tenantId threadId messageId =>
      ∀ entry ∈ b.lookup (buildCacheKey tenantId threadId messageId),
        Scope.parse uuid tenantId threadId messageId = some entry.scope
  | _ => True

variable {uuid percentage} {b c : Board π} {tenantId : String} {threadId messageId : Option String}

theorem getFeedbackStats_hit {entry : Entry π}
    (found : b.lookup (buildCacheKey tenantId threadId messageId) = some entry) :
    b.getFeedbackStats uuid percentage tenantId threadId messageId = some (entry.stats, b) := by
  simp only [Board.getFeedbackStats, found]

theorem getFeedbackStats_miss (missing : b.lookup (buildCacheKey tenantId threadId messageId) = none) :
    b.getFeedbackStats uuid percentage tenantId threadId messageId =
      (Scope.parse uuid tenantId threadId messageId).map fun scope =>
        (b.db.stats percentage scope, b.setex (buildCacheKey tenantId threadId messageId)
          ⟨b.db.stats percentage scope, b.now + 60, scope, false⟩) := by
  simp only [Board.getFeedbackStats, missing]

variable (percentage) in
/-- What the entries hold are the counts of their scopes. -/
def Board.Counted (b : Board π) : Prop :=
  ∀ cacheKey, ∀ entry ∈ b.cache cacheKey, entry.stats = b.db.stats percentage entry.scope

theorem asUncached_getFeedbackStats (counted : b.Counted percentage) :
    AsUncached uuid percentage b (.getFeedbackStats tenantId threadId messageId) ↔
      ∀ entry ∈ b.lookup (buildCacheKey tenantId threadId messageId),
        (Scope.parse uuid tenantId threadId messageId).map (b.db.stats percentage) =
          some (b.db.stats percentage entry.scope) := by
  have empty : (b.uncached.getFeedbackStats uuid percentage tenantId threadId messageId).map Prod.fst =
      (Scope.parse uuid tenantId threadId messageId).map (b.db.stats percentage) := by
    rw [getFeedbackStats_miss rfl, Option.map_map]
    rfl
  rw [AsUncached, empty]
  cases found : b.lookup (buildCacheKey tenantId threadId messageId) with
  | none =>
      rw [getFeedbackStats_miss found, Option.map_map]
      exact iff_of_true rfl fun entry here => nomatch here
  | some entry =>
      have same := counted _ entry (Option.filter_eq_some_iff.mp found).1
      rw [getFeedbackStats_hit found, Option.map_some, same, eq_comm]
      simp

/-! ### The cache holds the same scopes whatever the table holds -/

/-- The entries of the two boards differ in nothing but the statistics. -/
structure Alike (b c : Board π) : Prop where
  now : b.now = c.now
  entries : ∀ cacheKey, (b.cache cacheKey).map (fun entry => (entry.expires, entry.scope)) =
    (c.cache cacheKey).map fun entry => (entry.expires, entry.scope)

theorem Alike.lookup (h : Alike b c) (cacheKey : String) :
    (b.lookup cacheKey).map Entry.scope = (c.lookup cacheKey).map Entry.scope := by
  have entries := h.entries cacheKey
  unfold Board.lookup
  rw [h.now]
  cases here : b.cache cacheKey with
  | none =>
      rw [here, Option.map_none, eq_comm, Option.map_eq_none_iff] at entries
      rw [entries]
  | some entry =>
      obtain ⟨other, there, same⟩ := Option.map_eq_some_iff.mp (here ▸ entries).symm
      obtain ⟨expires, scope⟩ := Prod.mk.inj same
      rw [there]
      by_cases live : c.now < entry.expires
      · simp [Option.filter, live, expires, scope]
      · simp [Option.filter, live, expires]

theorem Alike.setex (h : Alike b c) (cacheKey : String) {entry other : Entry π}
    (same : (entry.expires, entry.scope) = (other.expires, other.scope)) :
    Alike (b.setex cacheKey entry) (c.setex cacheKey other) := by
  refine ⟨h.now, fun key => ?_⟩
  simp only [Board.setex]
  split
  · exact congrArg some same
  · exact h.entries key

variable (uuid percentage) in
def Board.after (b : Board π) (call : Call) : Board π := (b.step uuid percentage call).getD b

theorem step_eq_after (b : Board π) (call : Call) :
    b.step uuid percentage call = some (b.after uuid percentage call) := by
  cases call <;> rfl

theorem after_getFeedbackStats_cases (b : Board π) (tenantId : String) (threadId messageId : Option String) :
    b.after uuid percentage (.getFeedbackStats tenantId threadId messageId) =
      match b.lookup (buildCacheKey tenantId threadId messageId), Scope.parse uuid tenantId threadId messageId with
      | none, some scope => b.setex (buildCacheKey tenantId threadId messageId)
          ⟨b.db.stats percentage scope, b.now + 60, scope, false⟩
      | _, _ => b := by
  simp only [Board.after, Board.step, Option.getD_some]
  cases found : b.lookup (buildCacheKey tenantId threadId messageId) with
  | some entry => rw [getFeedbackStats_hit found, Option.elim_some]
  | none =>
      rw [getFeedbackStats_miss found]
      cases Scope.parse uuid tenantId threadId messageId <;> rfl

theorem Alike.after (h : Alike b c) {call : Call} (reading : call.Reading) :
    Alike (b.after uuid percentage call) (c.after uuid percentage call) := by
  cases call with
  | storeFeedback => exact reading.elim
  | wait seconds => exact ⟨congrArg (· + seconds) h.now, h.entries⟩
  | getFeedbackStats tenantId threadId messageId =>
      have scopes := h.lookup (buildCacheKey tenantId threadId messageId)
      rw [after_getFeedbackStats_cases, after_getFeedbackStats_cases]
      cases here : b.lookup (buildCacheKey tenantId threadId messageId) with
      | some entry =>
          obtain ⟨other, there, -⟩ := Option.map_eq_some_iff.mp (here ▸ scopes).symm
          rw [there]
          exact h
      | none =>
          rw [here, Option.map_none, eq_comm, Option.map_eq_none_iff] at scopes
          rw [scopes]
          cases Scope.parse uuid tenantId threadId messageId with
          | none => exact h
          | some scope => exact h.setex _ (by rw [h.now])

theorem Board.Counted.after (counted : b.Counted percentage) {call : Call} (reading : call.Reading) :
    (b.after uuid percentage call).Counted percentage ∧ (b.after uuid percentage call).db = b.db := by
  cases call with
  | storeFeedback => exact reading.elim
  | wait seconds => exact ⟨counted, rfl⟩
  | getFeedbackStats tenantId threadId messageId =>
      rw [after_getFeedbackStats_cases]
      split
      · refine ⟨fun other entry found => ?_, rfl⟩
        simp only [Board.setex, Option.mem_def] at found
        split at found
        · obtain rfl := Option.some.inj found
          rfl
        · exact counted other entry found
      · exact ⟨counted, rfl⟩

theorem asUncached_of_sameScope (counted : b.Counted percentage) {call : Call} (same : SameScope uuid b call) :
    AsUncached uuid percentage b call := by
  cases call with
  | getFeedbackStats tenantId threadId messageId =>
      refine (asUncached_getFeedbackStats counted).mpr fun entry found => ?_
      rw [same entry found]
      rfl
  | _ => trivial

/-! ### Two scopes are told apart by some table -/

def Scope.sample (scope : Scope) (other : Uuid) : FeedbackKey :=
  ⟨scope.thread.getD other, scope.message.getD other, 0, scope.tenant⟩

def Db.only (key : FeedbackKey) : Db := ⟨[key.tenantId], [⟨0, key, .thumbsUp⟩], 1⟩

theorem keyed_only (key : FeedbackKey) : (Db.only key).Keyed := by
  refine ⟨List.nodup_singleton _, fun row member => ?_⟩
  obtain rfl := List.mem_singleton.mp member
  exact Nat.one_pos

theorem covers_sample (scope : Scope) (other : Uuid) : scope.covers (scope.sample other) := by
  obtain ⟨tenant, thread, message⟩ := scope
  cases thread <;> cases message <;> simp [Scope.covers, Scope.sample]

theorem eq_of_getD {α : Type*} [Nontrivial α] {a b : Option α} (h : ∀ other, ∀ x ∈ b, a.getD other = x)
    (h' : ∀ other, ∀ x ∈ a, b.getD other = x) : a = b := by
  obtain ⟨one, two, ne⟩ := exists_pair_ne α
  cases a with
  | none =>
      cases b with
      | none => rfl
      | some x => exact absurd ((h one x rfl).trans (h two x rfl).symm) ne
  | some x =>
      cases b with
      | none => exact absurd ((h' one x rfl).trans (h' two x rfl).symm) ne
      | some y => exact congrArg some (h one y rfl)

theorem Scope.eq_of_covers {one two : Scope} (h : ∀ key, one.covers key ↔ two.covers key) : one = two := by
  have there (other : Uuid) := (h _).mp (covers_sample one other)
  have back (other : Uuid) := (h _).mpr (covers_sample two other)
  have tenant : one.tenant = two.tenant := (there 0).1
  have thread : one.thread = two.thread :=
    eq_of_getD (fun other => (there other).2.1) fun other => (back other).2.1
  have message : one.message = two.message :=
    eq_of_getD (fun other => (there other).2.2) fun other => (back other).2.2
  cases one
  cases two
  simp_all

theorem total_only (scope : Scope) (key : FeedbackKey) :
    ((Db.only key).stats percentage scope).total = if scope.covers key then 1 else 0 := by
  by_cases covered : scope.covers key <;> simp [Db.stats, Db.covered, Db.only, covered]

variable (percentage) in
theorem exists_stats_ne {one two : Scope} (ne : one ≠ two) :
    ∃ db : Db, db.Keyed ∧ db.stats percentage one ≠ db.stats percentage two := by
  have differ : ∃ key, ¬ (one.covers key ↔ two.covers key) := by
    by_contra same
    exact ne (Scope.eq_of_covers fun key => not_not.mp fun differ => same ⟨key, differ⟩)
  obtain ⟨key, differ⟩ := differ
  refine ⟨Db.only key, keyed_only key, fun same => differ ?_⟩
  have totals := congrArg Stats.total same
  rw [total_only, total_only] at totals
  by_cases here : one.covers key <;> by_cases there : two.covers key <;> simp_all

/-- An entry of another scope gives itself away on some table. -/
theorem sameScope_of_asUncached {boards : Db → Board π}
    (counted : ∀ db, (boards db).db = db ∧ (boards db).Counted percentage)
    (alike : ∀ db db', Alike (boards db) (boards db')) {call : Call}
    (uncached : ∀ db : Db, db.Keyed → AsUncached uuid percentage (boards db) call) {db : Db} (keyed : db.Keyed) :
    SameScope uuid (boards db) call := by
  cases call with
  | getFeedbackStats tenantId threadId messageId =>
      intro entry found
      have same := (asUncached_getFeedbackStats (counted db).2).mp (uncached db keyed) entry found
      obtain ⟨scope, parsed, -⟩ := Option.map_eq_some_iff.mp same
      refine parsed.trans (congrArg some (not_not.mp fun ne => ?_))
      obtain ⟨db', keyed', differ⟩ := exists_stats_ne percentage ne
      have scopes := (alike db db').lookup (buildCacheKey tenantId threadId messageId)
      obtain ⟨other, found', sameScope⟩ := Option.map_eq_some_iff.mp ((Option.mem_def.mp found) ▸ scopes).symm
      have same' := (asUncached_getFeedbackStats (counted db').2).mp (uncached db' keyed') other found'
      rw [parsed, Option.map_some, (counted db').1, sameScope] at same'
      exact differ (Option.some.inj same')
  | _ => trivial

/-- Whatever the table holds, every call returns what it would without the cache, in exactly the runs in which
no call finds an entry of another scope under its key. -/
theorem asUncached_iff_sameScope (uuid : String → Option Uuid) (percentage : Nat → Nat → π) (now : Nat)
    (calls : List Call) (reading : ∀ call ∈ calls, call.Reading) :
    (∀ db : Db, db.Keyed →
      Along (Board.step uuid percentage) (AsUncached uuid percentage) ⟨now, db, fun _ => none⟩ calls) ↔
    ∀ db : Db, db.Keyed →
      Along (Board.step uuid percentage) (SameScope uuid) ⟨now, db, fun _ => none⟩ calls := by
  -- One board for each table, all of them at the same point of the run
  suffices general : ∀ boards : Db → Board π, (∀ db, (boards db).db = db ∧ (boards db).Counted percentage) →
      (∀ db db', Alike (boards db) (boards db')) →
      ((∀ db : Db, db.Keyed → Along (Board.step uuid percentage) (AsUncached uuid percentage) (boards db) calls) ↔
        ∀ db : Db, db.Keyed → Along (Board.step uuid percentage) (SameScope uuid) (boards db) calls) by
    exact general (fun db => ⟨now, db, fun _ => none⟩) (fun db => ⟨rfl, fun _ _ found => nomatch found⟩)
      fun _ _ => ⟨rfl, fun _ => rfl⟩
  induction calls with
  | nil => exact fun _ _ _ => iff_of_true (fun _ _ => trivial) fun _ _ => trivial
  | cons call calls ih =>
      intro boards counted alike
      obtain ⟨readsNow, readsLater⟩ := List.forall_mem_cons.mp reading
      have later := ih readsLater (fun db => (boards db).after uuid percentage call)
        (fun db => ((counted db).2.after readsNow).symm.imp_left (·.trans (counted db).1))
        fun db db' => (alike db db').after readsNow
      have unfolds (ok : Board π → Call → Prop) (db : Db) :
          Along (Board.step uuid percentage) ok (boards db) (call :: calls) ↔
            ok (boards db) call ∧ Along (Board.step uuid percentage) ok ((boards db).after uuid percentage call) calls := by
        simp [Along, step_eq_after]
      simp only [unfolds, forall_and, later]
      exact and_congr_left fun _ => ⟨fun uncached _ keyed => sameScope_of_asUncached counted alike uncached keyed,
        fun same db keyed => asUncached_of_sameScope (counted db).2 (same db keyed)⟩

/-! ### Calls whose keys tell their scopes apart -/

/-- A message is named together with its thread, and no identifier has a colon. -/
def Call.Threaded : Call → Prop
  | .storeFeedback .. => False
  | .getFeedbackStats tenantId threadId messageId =>
      (given threadId = none → given messageId = none) ∧ ':' ∉ tenantId.toList ∧
        (∀ thread ∈ given threadId, ':' ∉ thread.toList) ∧ ∀ message ∈ given messageId, ':' ∉ message.toList
  | .wait _ => True

def keyParts (tenantId : String) (threadId messageId : Option String) : List (List Char) :=
  tenantId.toList :: ((given threadId).toList ++ (given messageId).toList).map String.toList

theorem buildCacheKey_toList (threaded : (Call.getFeedbackStats tenantId threadId messageId).Threaded) :
    (buildCacheKey tenantId threadId messageId).toList =
      "feedback:stats:".toList ++ [':'].intercalate (keyParts tenantId threadId messageId) := by
  obtain ⟨together, -⟩ := threaded
  unfold buildCacheKey keyParts
  cases thread : given threadId with
  | none => simp [together thread, List.intercalate]
  | some thread =>
      cases given messageId with
      | none => simp [List.intercalate]
      | some message => simp [List.intercalate]

theorem splitOn_keyParts (threaded : (Call.getFeedbackStats tenantId threadId messageId).Threaded) :
    ([':'].intercalate (keyParts tenantId threadId messageId)).splitOn ':' =
      keyParts tenantId threadId messageId := by
  obtain ⟨-, tenantFree, threadFree, messageFree⟩ := threaded
  refine List.splitOn_intercalate ':' (List.forall_mem_cons.mpr ⟨tenantFree, fun part member => ?_⟩)
    (List.cons_ne_nil _ _)
  obtain ⟨id, found, rfl⟩ := List.mem_map.mp member
  rcases List.mem_append.mp found with thread | message
  · exact threadFree id (Option.mem_toList.mp thread)
  · exact messageFree id (Option.mem_toList.mp message)

theorem toList_append_inj {α : Type*} {a b a' b' : Option α} (together : a = none → b = none)
    (together' : a' = none → b' = none) (same : a.toList ++ b.toList = a'.toList ++ b'.toList) :
    a = a' ∧ b = b' := by
  have inj {c d : Option α} (eq : c.toList = d.toList) : c = d := by
    cases c <;> cases d <;> simp_all
  cases a with
  | none =>
      rw [together rfl] at same ⊢
      cases a' with
      | none => exact ⟨rfl, (together' rfl).symm⟩
      | some x => cases same
  | some x =>
      cases a' with
      | none =>
          rw [together' rfl] at same
          cases same
      | some y =>
          obtain ⟨rfl, rest⟩ := List.cons.inj same
          exact ⟨rfl, inj rest⟩

theorem buildCacheKey_injective {tenantId' : String} {threadId' messageId' : Option String}
    (threaded : (Call.getFeedbackStats tenantId threadId messageId).Threaded)
    (threaded' : (Call.getFeedbackStats tenantId' threadId' messageId').Threaded)
    (same : buildCacheKey tenantId threadId messageId = buildCacheKey tenantId' threadId' messageId') :
    tenantId = tenantId' ∧ given threadId = given threadId' ∧ given messageId = given messageId' := by
  have texts := congrArg String.toList same
  rw [buildCacheKey_toList threaded, buildCacheKey_toList threaded', List.append_cancel_left_eq] at texts
  have parts := congrArg (List.splitOn ':') texts
  rw [splitOn_keyParts threaded, splitOn_keyParts threaded'] at parts
  obtain ⟨tenant, rest⟩ := List.cons.inj parts
  have ids := List.map_injective_iff.mpr (fun _ _ => String.toList_injective) rest
  exact ⟨String.toList_injective tenant, toList_append_inj threaded.1 threaded'.1 ids⟩

variable (uuid) in
/-- The entries have been stored by calls that name a message together with its thread. -/
def Board.Filed (b : Board π) : Prop :=
  ∀ cacheKey, ∀ entry ∈ b.cache cacheKey, ∃ tenantId threadId messageId,
    (Call.getFeedbackStats tenantId threadId messageId).Threaded ∧
      cacheKey = buildCacheKey tenantId threadId messageId ∧
      Scope.parse uuid tenantId threadId messageId = some entry.scope

theorem Board.Filed.after (filed : b.Filed uuid) {call : Call} (threaded : call.Threaded) :
    (b.after uuid percentage call).Filed uuid := by
  cases call with
  | storeFeedback => exact threaded.elim
  | wait seconds => exact filed
  | getFeedbackStats tenantId threadId messageId =>
      rw [after_getFeedbackStats_cases]
      split
      · rename_i parsed
        intro other entry found
        simp only [Board.setex, Option.mem_def] at found
        split at found
        · rename_i here
          obtain rfl := Option.some.inj found
          exact ⟨tenantId, threadId, messageId, threaded, here, parsed⟩
        · exact filed other entry found
      · exact filed

theorem Board.Filed.sameScope (filed : b.Filed uuid) {call : Call} (threaded : call.Threaded) :
    SameScope uuid b call := by
  cases call with
  | getFeedbackStats tenantId threadId messageId =>
      intro entry found
      obtain ⟨tenant, thread, message, threaded', same, parsed⟩ :=
        filed _ entry (Option.filter_eq_some_iff.mp found).1
      obtain ⟨rfl, sameThread, sameMessage⟩ := buildCacheKey_injective threaded threaded' same
      rw [← parsed, Scope.parse, Scope.parse, sameThread, sameMessage]
  | _ => trivial

/-- Statistics of a tenant, of its threads and of messages in their threads never share an entry. -/
theorem sameScope_of_threaded (uuid : String → Option Uuid) (percentage : Nat → Nat → π) (now : Nat) (db : Db)
    {calls : List Call} (threaded : ∀ call ∈ calls, call.Threaded) :
    Along (Board.step uuid percentage) (SameScope uuid) ⟨now, db, fun _ => none⟩ calls := by
  have along : Along (Board.step uuid percentage) (fun _ call => call.Threaded) ⟨now, db, fun _ => none⟩ calls :=
    along_of_mem (fun call member _ => threaded call member) _
  refine along_of_along (fun b => b.Filed uuid) (fun b call _ filed threaded _ => filed.sameScope threaded)
    (fun b call b' filed threaded next => ?_) (fun _ _ found => nomatch found) along
  obtain rfl := Option.some.inj ((step_eq_after b call).symm.trans next)
  exact filed.after threaded

end

/-- The first feedback on another message of the tenant. -/
def firstFeedback : Db := .only ⟨1, 3, 4, 10⟩

def messageAfterTenant : List Call :=
  [.getFeedbackStats oneTenantId none none,
    .getFeedbackStats oneTenantId none (some "00000000-0000-0000-0000-000000000002")]

theorem messageAfterTenant_collides :
    ¬ ∀ (uuid : String → Option Uuid) (percentage : Nat → Nat → Nat) (now : Nat) (db : Db), db.Keyed →
      ∀ calls : List Call, (∀ call ∈ calls, call.Reading) →
        Along (Board.step uuid percentage) (AsUncached uuid percentage) ⟨now, db, fun _ => none⟩ calls := by
  intro claim
  have uncached := claim hexUuid hundredths 0 firstFeedback (keyed_only _) messageAfterTenant (by decide)
  have last := ((uncached _ rfl).2 _ rfl).1
  exact absurd (congrArg (Option.map Stats.total) last) (by decide)

theorem asUncached_iff_sameScope_messageAfterTenant :
    (∀ call ∈ messageAfterTenant, call.Reading) ∧
      ((∀ db : Db, db.Keyed → Along (Board.step hexUuid hundredths) (AsUncached hexUuid hundredths)
          ⟨0, db, fun _ => none⟩ messageAfterTenant) ↔
        ∀ db : Db, db.Keyed → Along (Board.step hexUuid hundredths) (SameScope hexUuid)
          ⟨0, db, fun _ => none⟩ messageAfterTenant) :=
  ⟨by decide, asUncached_iff_sameScope hexUuid hundredths 0 messageAfterTenant (by decide)⟩

end CuckooEcho.Feedback
