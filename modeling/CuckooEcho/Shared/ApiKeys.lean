import CuckooEcho.Shared.ApiMarketplace

namespace CuckooEcho.Shared.ApiKeys
open Lib ApiMarketplace

/-! ## What is done with keys -/

section
variable (sha256 : String → String)

inductive Act
  | register (developer : Developer)
  | generate (grant : Grant) (rawKey : String) (now : Int)
  | verify (now : Int) (rawKey : String)
  | record (now : Int) (apiKeyId : String) (record : UsageRecord)
  | revoke (apiKeyId : String)
  | setExpiresAt (apiKeyId : String) (expiresAt : Option Int)

def step (m : APIMarketplace) : Act → Option APIMarketplace
  | .register developer => some (m.registerDeveloper developer)
  | .generate grant rawKey now =>
      if m.Fresh sha256 grant rawKey then some (m.generateApiKey sha256 grant rawKey now) else none
  | .verify now rawKey => some (m.verifyApiKey sha256 now rawKey).2
  | .record now apiKeyId record => some (m.recordUsage now apiKeyId record)
  | .revoke apiKeyId => some (m.revokeApiKey apiKeyId).2
  | .setExpiresAt apiKeyId expiresAt => some (m.setExpiresAt apiKeyId expiresAt)

/-! ## One key by itself -/

/-- What there is to know of a key: whether it is still accepted, until when, and how often it has been used. -/
structure Standing where
  grant : Grant
  usable : Bool := true
  expiresAt : Option Int := none
  uses : Nat := 0
  deriving DecidableEq, Repr

namespace Standing
variable (s : Standing)

def pastExpiry (now : Int) : Bool := s.expiresAt.any fun expiresAt => expiresAt < now

/-- The key is accepted at the time. -/
def accepted (now : Int) : Bool := s.usable && !s.pastExpiry now

def after (keyHash : String) : Act → Standing
  | .verify now rawKey => if sha256 rawKey = keyHash ∧ s.pastExpiry now then { s with usable := false } else s
  | .record _ apiKeyId _ => if s.grant.id = apiKeyId then { s with uses := s.uses + 1 } else s
  | .revoke apiKeyId => if s.grant.id = apiKeyId then { s with usable := false } else s
  | .setExpiresAt apiKeyId expiresAt => if s.grant.id = apiKeyId then { s with expiresAt } else s
  | .register _ | .generate _ _ _ => s

end Standing

/-- The key of a digest after a history: it starts when a raw key with the digest is generated. -/
def standing (keyHash : String) (s : Option Standing) (a : Act) : Option Standing :=
  match s with
  | some s => some (s.after sha256 keyHash a)
  | none =>
      match a with
      | .generate grant rawKey _ => if sha256 rawKey = keyHash then some { grant } else none
      | _ => none

end

def standingOf (key : APIKey) : Standing :=
  { grant := key.grant, usable := key.status = .active, expiresAt := key.expiresAt, uses := key.usageCount }

/-! ## The keys in the dictionary -/

structure Filed (m : APIMarketplace) : Prop where
  ids : ∀ id key, m.apiKeys.get id = some key → key.id = id
  digests : ∀ id id' key key', m.apiKeys.get id = some key → m.apiKeys.get id' = some key' →
    key.keyHash = key'.keyHash → id = id'

section
variable {sha256 : String → String} {m m' : APIMarketplace} {keyHash : String} {key : APIKey}

theorem keyHash_of_holder (held : m.holder keyHash = some key) : key.keyHash = keyHash := by
  have found := List.find?_some held
  exact of_decide_eq_true found

theorem holder_eq_some (h : Filed m) :
    m.holder keyHash = some key ↔ m.apiKeys.get key.id = some key ∧ key.keyHash = keyHash := by
  constructor
  · intro found
    obtain ⟨id, filed⟩ := Dict.mem_values.mp (List.mem_of_find?_eq_some found)
    exact ⟨(h.ids id key filed).symm ▸ filed, keyHash_of_holder found⟩
  · rintro ⟨filed, same⟩
    cases found : m.holder keyHash with
    | none =>
        have other := List.find?_eq_none.mp found key (Dict.mem_values.mpr ⟨key.id, filed⟩)
        exact absurd (decide_eq_true same) other
    | some first =>
        obtain ⟨id, there⟩ := Dict.mem_values.mp (List.mem_of_find?_eq_some found)
        have digest := (keyHash_of_holder found).trans same.symm
        obtain rfl := h.digests id key.id first key there filed digest
        exact there.symm.trans filed

/-- A key that is changed keeps its identifier and its digest. -/
def Keeps (f : APIKey → APIKey) : Prop := ∀ key, (f key).id = key.id ∧ (f key).keyHash = key.keyHash

theorem Filed.modify (h : Filed m) (id : String) {f : APIKey → APIKey} (keeps : Keeps f) :
    Filed { m with apiKeys := m.apiKeys.modify id f } := by
  have before {id' : String} {key : APIKey} (found : (m.apiKeys.modify id f).get id' = some key) :
      ∃ old, m.apiKeys.get id' = some old ∧ key.id = old.id ∧ key.keyHash = old.keyHash := by
    rw [Dict.get_modify] at found
    split at found
    · rename_i here
      obtain ⟨old, filed, rfl⟩ := Option.map_eq_some_iff.mp found
      exact ⟨old, here.symm ▸ filed, keeps old⟩
    · exact ⟨key, found, rfl, rfl⟩
  constructor
  · intro id' key found
    obtain ⟨old, filed, same, -⟩ := before found
    exact same.trans (h.ids id' old filed)
  · intro id₁ id₂ key₁ key₂ first second same
    obtain ⟨old₁, filed₁, -, digest₁⟩ := before first
    obtain ⟨old₂, filed₂, -, digest₂⟩ := before second
    exact h.digests id₁ id₂ old₁ old₂ filed₁ filed₂ (digest₁.symm.trans (same.trans digest₂))

theorem holder_modify (h : Filed m) (id : String) {f : APIKey → APIKey} (keeps : Keeps f) (keyHash : String) :
    APIMarketplace.holder { m with apiKeys := m.apiKeys.modify id f } keyHash =
      (m.holder keyHash).map fun key => if key.id = id then f key else key := by
  have later := h.modify id keeps
  apply Option.ext
  intro key
  rw [holder_eq_some later, Option.map_eq_some_iff]
  dsimp only
  rw [Dict.get_modify]
  constructor
  · rintro ⟨found, digest⟩
    split at found
    · rename_i here
      obtain ⟨old, filed, rfl⟩ := Option.map_eq_some_iff.mp found
      have own := h.ids id old filed
      refine ⟨old, (holder_eq_some h).mpr ⟨own.symm ▸ filed, (keeps old).2.symm.trans digest⟩, ?_⟩
      rw [if_pos own]
    · rename_i other
      exact ⟨key, (holder_eq_some h).mpr ⟨found, digest⟩, if_neg other⟩
  · rintro ⟨old, held, rfl⟩
    obtain ⟨filed, digest⟩ := (holder_eq_some h).mp held
    split
    · rename_i here
      rw [(keeps old).1, (keeps old).2, if_pos here, ← here, filed]
      exact ⟨rfl, digest⟩
    · exact ⟨filed, digest⟩

theorem filed_empty : Filed {} := ⟨fun _ _ => nofun, fun _ _ _ _ => nofun⟩

theorem Filed.generate (h : Filed m) {grant : Grant} {rawKey : String} (fresh : m.Fresh sha256 grant rawKey)
    (now : Int) : Filed (m.generateApiKey sha256 grant rawKey now) := by
  have unused {id : String} {key : APIKey} (filed : m.apiKeys.get id = some key) : key.keyHash ≠ sha256 rawKey := by
    intro same
    have held := (holder_eq_some h).mpr ⟨(h.ids id key filed).symm ▸ filed, same⟩
    rw [fresh.2.1] at held
    cases held
  constructor
  · intro id key found
    rw [APIMarketplace.generateApiKey, Dict.get_set] at found
    split at found
    · rename_i here
      obtain rfl := Option.some.inj found
      exact here.symm
    · exact h.ids id key found
  · intro id id' key key' first second same
    rw [APIMarketplace.generateApiKey, Dict.get_set] at first second
    split at first
    · rename_i here
      obtain rfl := Option.some.inj first
      split at second
      · rename_i there
        exact here.trans there.symm
      · exact absurd same.symm (unused second)
    · split at second
      · obtain rfl := Option.some.inj second
        exact absurd same (unused first)
      · exact h.digests id id' key key' first second same

theorem holder_generate (h : Filed m) {grant : Grant} {rawKey : String} (fresh : m.Fresh sha256 grant rawKey)
    (now : Int) (keyHash : String) : (m.generateApiKey sha256 grant rawKey now).holder keyHash =
      if sha256 rawKey = keyHash then some (grant.key (sha256 rawKey) now) else m.holder keyHash := by
  have later := h.generate fresh now
  have new : (m.generateApiKey sha256 grant rawKey now).apiKeys.get grant.id =
      some (grant.key (sha256 rawKey) now) := by
    rw [APIMarketplace.generateApiKey, Dict.get_set, if_pos rfl]
  have old {id : String} (other : id ≠ grant.id) :
      (m.generateApiKey sha256 grant rawKey now).apiKeys.get id = m.apiKeys.get id := by
    rw [APIMarketplace.generateApiKey, Dict.get_set, if_neg other]
  split
  · rename_i same
    exact (holder_eq_some later).mpr ⟨new, same⟩
  · rename_i different
    apply Option.ext
    intro key
    rw [holder_eq_some later, holder_eq_some h]
    by_cases here : key.id = grant.id
    · have absent : m.apiKeys.get key.id = none := by
        rw [here]
        exact Option.eq_none_iff_forall_not_mem.mpr fun key filed => fresh.1 (Dict.mem_keys.mpr ⟨key, filed⟩)
      rw [absent, here, new]
      constructor
      · rintro ⟨eq, digest⟩
        obtain rfl := Option.some.inj eq
        exact absurd digest different
      · rintro ⟨⟨⟩, -⟩
    · rw [old here]

/-! ## Every key goes its own way -/

theorem keeps_status (status : APIKeyStatus) : Keeps fun key => { key with status } := fun _ => ⟨rfl, rfl⟩

theorem Filed.step (h : Filed m) {a : Act} (next : step sha256 m a = some m') : Filed m' := by
  cases a with
  | generate grant rawKey now =>
      obtain ⟨fresh, eq⟩ := Option.ite_none_right_eq_some.mp next
      obtain rfl := Option.some.inj eq
      exact h.generate fresh now
  | register developer =>
      obtain rfl := Option.some.inj next
      exact ⟨h.ids, h.digests⟩
  | verify now rawKey =>
      obtain rfl := Option.some.inj next
      unfold APIMarketplace.verifyApiKey
      split
      · rename_i key held
        split
        · split
          · exact h.modify key.id (keeps_status .expired)
          · exact h
        · exact h
      · exact h
  | record now apiKeyId record =>
      obtain rfl := Option.some.inj next
      have modified : Filed { m with apiKeys := m.apiKeys.modify apiKeyId fun key =>
        { key with usageCount := key.usageCount + 1, lastUsed := some now } } := h.modify apiKeyId fun _ => ⟨rfl, rfl⟩
      exact ⟨modified.ids, modified.digests⟩
  | revoke apiKeyId =>
      obtain rfl := Option.some.inj next
      exact h.modify apiKeyId (keeps_status .suspended)
  | setExpiresAt apiKeyId expiresAt =>
      obtain rfl := Option.some.inj next
      exact h.modify apiKeyId fun _ => ⟨rfl, rfl⟩

/-- A change of one key is seen in the standing of that key only. -/
theorem standing_modify (h : Filed m) (id : String) {f : APIKey → APIKey} (keeps : Keeps f) {g : Standing → Standing}
    (same : ∀ key, standingOf (f key) = g (standingOf key)) (keyHash : String) :
    (APIMarketplace.holder { m with apiKeys := m.apiKeys.modify id f } keyHash).map standingOf =
      ((m.holder keyHash).map standingOf).map fun s => if s.grant.id = id then g s else s := by
  rw [holder_modify h id keeps, Option.map_map, Option.map_map]
  congr 1
  funext key
  have own : (standingOf key).grant.id = key.id := rfl
  simp only [Function.comp_apply, own]
  split
  · exact same key
  · rfl

theorem standing_verify (h : Filed m) (now : Int) (rawKey keyHash : String) :
    ((m.verifyApiKey sha256 now rawKey).2.holder keyHash).map standingOf =
      ((m.holder keyHash).map standingOf).map fun s => s.after sha256 keyHash (.verify now rawKey) := by
  have unchanged (stays : ∀ key, m.holder keyHash = some key → sha256 rawKey = keyHash → key.pastExpiry now = true →
      key.status ≠ .active) : (m.holder keyHash).map standingOf =
        ((m.holder keyHash).map standingOf).map fun s => s.after sha256 keyHash (.verify now rawKey) := by
    cases held : m.holder keyHash with
    | none => rfl
    | some key =>
        simp only [Option.map_some, Standing.after, Option.some.injEq]
        split
        · rename_i past
          have suspended : ¬ key.status = .active := stays key held past.1 past.2
          simp [standingOf, suspended]
        · rfl
  unfold APIMarketplace.verifyApiKey
  split
  · rename_i key held
    split
    · rename_i active
      split
      · rename_i past
        refine (standing_modify h key.id (g := fun s => { s with usable := false }) (keeps_status .expired)
          (fun _ => rfl) keyHash).trans ?_
        cases there : m.holder keyHash with
        | none => rfl
        | some other =>
            have same : (standingOf other).grant.id = key.id ↔ sha256 rawKey = keyHash := by
              obtain ⟨filed, digest⟩ := (holder_eq_some h).mp held
              obtain ⟨filed', digest'⟩ := (holder_eq_some h).mp there
              constructor
              · intro (id : other.id = key.id)
                rw [id, filed] at filed'
                obtain rfl := Option.some.inj filed'
                exact digest.symm.trans digest'
              · rintro rfl
                exact congrArg APIKey.id (Option.some.inj (there.symm.trans held))
            simp only [Option.map_some, Standing.after, same, Option.some.injEq]
            by_cases own : sha256 rawKey = keyHash
            · subst own
              obtain rfl := Option.some.inj (there.symm.trans held)
              have passed : (standingOf other).pastExpiry now = true := past
              simp only [passed, and_self, ↓reduceIte]
            · simp only [own, false_and, ↓reduceIte]
      · rename_i valid
        apply unchanged
        rintro key' held' rfl past
        obtain rfl := Option.some.inj (held.symm.trans held')
        exact absurd past valid
    · rename_i inactive
      apply unchanged
      rintro key' held' rfl -
      obtain rfl := Option.some.inj (held.symm.trans held')
      exact inactive
  · rename_i none
    apply unchanged
    rintro key' held' rfl -
    cases none.symm.trans held'

theorem standing_step (keyHash : String) {a : Act} (h : Filed m) (next : step sha256 m a = some m') :
    (m'.holder keyHash).map standingOf =
      standing sha256 keyHash ((m.holder keyHash).map standingOf) a := by
  cases a with
  | register developer =>
      obtain rfl := Option.some.inj next
      show (m.holder keyHash).map standingOf = _
      cases m.holder keyHash <;> rfl
  | generate grant rawKey now =>
      obtain ⟨fresh, eq⟩ := Option.ite_none_right_eq_some.mp next
      obtain rfl := Option.some.inj eq
      rw [holder_generate h fresh now]
      split
      · rename_i same
        rw [← same, fresh.2.1]
        simp only [standing, Option.map_none, Option.map_some, ↓reduceIte]
        rfl
      · rename_i different
        cases m.holder keyHash with
        | none => simp only [standing, Option.map_none, different, ↓reduceIte]
        | some key => rfl
  | verify now rawKey =>
      obtain rfl := Option.some.inj next
      rw [standing_verify h]
      cases m.holder keyHash <;> rfl
  | record now apiKeyId record =>
      obtain rfl := Option.some.inj next
      refine (standing_modify h apiKeyId
        (f := fun key => { key with usageCount := key.usageCount + 1, lastUsed := some now })
        (g := fun s => { s with uses := s.uses + 1 }) (fun _ => ⟨rfl, rfl⟩) (fun _ => rfl) keyHash).trans ?_
      cases m.holder keyHash <;> rfl
  | revoke apiKeyId =>
      obtain rfl := Option.some.inj next
      refine (standing_modify h apiKeyId (g := fun s => { s with usable := false }) (keeps_status .suspended)
        (fun _ => rfl) keyHash).trans ?_
      cases m.holder keyHash <;> rfl
  | setExpiresAt apiKeyId expiresAt =>
      obtain rfl := Option.some.inj next
      refine (standing_modify h apiKeyId (f := fun key => { key with expiresAt })
        (g := fun s => { s with expiresAt }) (fun _ => ⟨rfl, rfl⟩) (fun _ => rfl) keyHash).trans ?_
      cases m.holder keyHash <;> rfl

theorem verifyApiKey_fst (sha256 : String → String) (m : APIMarketplace) (now : Int) (rawKey : String) :
    (m.verifyApiKey sha256 now rawKey).1.map standingOf =
      ((m.holder (sha256 rawKey)).map standingOf).filter (·.accepted now) := by
  unfold APIMarketplace.verifyApiKey
  cases m.holder (sha256 rawKey) with
  | none => rfl
  | some key =>
      have past : (standingOf key).pastExpiry now = key.pastExpiry now := rfl
      simp only [Option.map_some, Option.filter_some, Standing.accepted, past]
      by_cases active : key.status = .active
      · cases key.pastExpiry now <;> simp [standingOf, active]
      · simp [standingOf, active]

theorem after_unusable {s : Standing} (unusable : s.usable = false) (keyHash : String) (a : Act) :
    (s.after sha256 keyHash a).usable = false := by
  cases a with
  | register | generate => exact unusable
  | verify | revoke =>
      simp only [Standing.after]
      split
      · rfl
      · exact unusable
  | record | setExpiresAt =>
      simp only [Standing.after]
      split <;> exact unusable

theorem standing_unusable (sha256 : String → String) {s : Standing} (unusable : s.usable = false) (keyHash : String)
    (acts : List Act) :
    ∃ s', acts.foldl (standing sha256 keyHash) (some s) = some s' ∧ s'.usable = false := by
  induction acts generalizing s with
  | nil => exact ⟨s, rfl, unusable⟩
  | cons a acts ih => exact ih (after_unusable unusable keyHash a)

theorem standing_of_run (h : Filed m) {acts : List Act} (run : exec (step sha256) m acts = some m')
    (keyHash : String) : (m'.holder keyHash).map standingOf =
      acts.foldl (standing sha256 keyHash) ((m.holder keyHash).map standingOf) :=
  foldl_of_run (fun m : APIMarketplace => (m.holder keyHash).map standingOf) Filed
    (fun _ _ _ h next => h.step next) (fun _ _ _ h next => standing_step keyHash h next) h run

theorem filed_of_run (h : Filed m) {acts : List Act} (run : exec (step sha256) m acts = some m') : Filed m' :=
  (throughout_of_step (fun _ _ _ h next => h.step next) h).last run

end

/-- What becomes of a raw key depends on the history of its own key alone, and a key that has been revoked or found
past its expiry is never accepted again. -/
theorem verifyApiKey_of_run (sha256 : String → String) (acts : List Act) (m : APIMarketplace)
    (run : exec (step sha256) {} acts = some m) (rawKey : String) :
    (∀ now, (m.verifyApiKey sha256 now rawKey).1.map standingOf =
      (acts.foldl (standing sha256 (sha256 rawKey)) none).filter (·.accepted now)) ∧
    ∀ key, m.holder (sha256 rawKey) = some key → key.status ≠ .active →
      ∀ more m', exec (step sha256) m more = some m' → ∀ now, (m'.verifyApiKey sha256 now rawKey).1 = none := by
  refine ⟨fun now => ?_, fun key held inactive more m' run' now => ?_⟩
  · rw [verifyApiKey_fst sha256 m now, standing_of_run filed_empty run]
    rfl
  · have unusable : (standingOf key).usable = false := by simp [standingOf, inactive]
    obtain ⟨s, last, rejected⟩ := standing_unusable sha256 unusable (sha256 rawKey) more
    have result := verifyApiKey_fst sha256 m' now rawKey
    rw [standing_of_run (filed_of_run filed_empty run) run', held, Option.map_some, last, Option.filter_some,
      Standing.accepted, rejected] at result
    exact Option.map_eq_none_iff.mp result

def shopGrant : Grant := ⟨"k1", "dev", "shop", .starter, 100, 1000⟩

def blogGrant : Grant := ⟨"k2", "dev", "blog", .free, 60, 500⟩

/-- Two keys, of which the first is used and then revoked. -/
def twoKeys : List Act :=
  [.generate shopGrant "sk_shop" 0, .generate blogGrant "sk_blog" 5,
    .record 9 "k1" ⟨"k1", "/v1/chat", "POST", 200, 12, 30, 9⟩, .revoke "k1", .verify 11 "sk_shop"]

theorem verifyApiKey_of_run_twoKeys : ∃ m, exec (step id) {} twoKeys = some m ∧
    ((m.verifyApiKey id 20 "sk_blog").1.map standingOf = some { grant := blogGrant } ∧
      (m.verifyApiKey id 20 "sk_shop").1.map standingOf = none) := by
  refine ⟨_, rfl, ?_, ?_⟩
  · exact (verifyApiKey_of_run id twoKeys _ rfl "sk_blog").1 20
  · exact (verifyApiKey_of_run id twoKeys _ rfl "sk_shop").1 20

/-! ## What has been used -/

theorem get_aggregateByEndpoint (records : List UsageRecord) (endpoint : String) :
    ((aggregateByEndpoint records).get endpoint).getD 0 = records.countP (·.endpoint = endpoint) := by
  induction records using List.reverseRecOn with
  | nil => rfl
  | append_singleton records r ih =>
      rw [aggregateByEndpoint, List.foldl_concat, ← aggregateByEndpoint, Dict.get_set, List.countP_append]
      by_cases here : r.endpoint = endpoint
      · subst here
        simp [ih]
      · simp [here, Ne.symm here, ih]

theorem sum_aggregateByEndpoint (records : List UsageRecord) :
    (aggregateByEndpoint records).values.sum = records.length := by
  induction records using List.reverseRecOn with
  | nil => rfl
  | append_singleton records r ih =>
      rw [aggregateByEndpoint, List.foldl_concat, ← aggregateByEndpoint, List.length_append, List.length_singleton]
      have set := Dict.sum_values_set (aggregateByEndpoint records) r.endpoint
        (((aggregateByEndpoint records).get r.endpoint).getD 0 + 1)
      omega

section
variable {sha256 : String → String} {m m' : APIMarketplace}

/-- Every use of a key that has been counted is on record under its identifier, and no other is. -/
def Counted (m : APIMarketplace) : Prop :=
  ∀ id key, m.apiKeys.get id = some key → key.usageCount = m.usageRecords.countP (·.apiKeyId = id)

/-- Usage is recorded for the key that the record names. -/
def NamesOwn : Act → Prop
  | .record _ apiKeyId record => record.apiKeyId = apiKeyId
  | _ => True

theorem Counted.modify (h : Counted m) (id : String) {f : APIKey → APIKey}
    (same : ∀ key, (f key).usageCount = key.usageCount) : Counted { m with apiKeys := m.apiKeys.modify id f } := by
  intro id' key found
  rw [Dict.get_modify] at found
  split at found
  · rename_i here
    obtain ⟨old, filed, rfl⟩ := Option.map_eq_some_iff.mp found
    exact (same old).trans (h id' old (here ▸ filed))
  · exact h id' key found

theorem Counted.record (h : Counted m) (now : Int) {apiKeyId : String} {record : UsageRecord}
    (named : record.apiKeyId = apiKeyId) : Counted (m.recordUsage now apiKeyId record) := by
  intro id key found
  rw [APIMarketplace.recordUsage, Dict.get_modify] at found
  rw [APIMarketplace.recordUsage, List.countP_append, List.countP_singleton]
  split at found
  · rename_i here
    obtain ⟨old, filed, rfl⟩ := Option.map_eq_some_iff.mp found
    simp [h id old (here ▸ filed), named, here]
  · rename_i other
    have foreign : record.apiKeyId ≠ id := named ▸ Ne.symm other
    simp [h id key found, foreign]

theorem Counted.step (h : Counted m) {a : Act} (named : NamesOwn a) (next : step sha256 m a = some m') :
    Counted m' := by
  cases a with
  | register developer =>
      obtain rfl := Option.some.inj next
      exact h
  | generate grant rawKey now =>
      obtain ⟨fresh, eq⟩ := Option.ite_none_right_eq_some.mp next
      obtain rfl := Option.some.inj eq
      intro id key found
      rw [APIMarketplace.generateApiKey, Dict.get_set] at found
      split at found
      · rename_i here
        obtain rfl := Option.some.inj found
        have none : m.usageRecords.countP (·.apiKeyId = id) = 0 :=
          List.countP_eq_zero.mpr fun r member => by simpa [here] using fresh.2.2 r member
        exact none.symm
      · exact h id key found
  | verify now rawKey =>
      obtain rfl := Option.some.inj next
      unfold APIMarketplace.verifyApiKey
      split
      · split
        · split
          · exact h.modify _ fun _ => rfl
          · exact h
        · exact h
      · exact h
  | record now apiKeyId record =>
      obtain rfl := Option.some.inj next
      exact h.record now named
  | revoke apiKeyId =>
      obtain rfl := Option.some.inj next
      exact h.modify _ fun _ => rfl
  | setExpiresAt apiKeyId expiresAt =>
      obtain rfl := Option.some.inj next
      exact h.modify _ fun _ => rfl

variable {F : Type*} {round : Rat → F}

/-- The counts of the third summary are those of the first two together, and its average is theirs weighted by their
requests, each average rounded for itself. -/
structure AddsUp (round : Rat → F) (first second whole : UsageSummary F) : Prop where
  totalRequests : whole.totalRequests = first.totalRequests + second.totalRequests
  tokensUsed : whole.tokensUsed = first.tokensUsed + second.tokensUsed
  avgLatencyMs : ∃ mean mean' : Rat, first.avgLatencyMs = round mean ∧ second.avgLatencyMs = round mean' ∧
    whole.avgLatencyMs = round ((first.totalRequests * mean + second.totalRequests * mean') / whole.totalRequests)
  byEndpoint : ∀ endpoint, (whole.byEndpoint.get endpoint).getD 0 =
    (first.byEndpoint.get endpoint).getD 0 + (second.byEndpoint.get endpoint).getD 0

theorem length_mul_latencyMean (records : List UsageRecord) :
    records.length * latencyMean records = (records.map (·.latencyMs)).sum := by
  cases records with
  | nil => simp [latencyMean]
  | cons r records =>
      have some : ((r :: records).length : Rat) ≠ 0 := Nat.cast_ne_zero.mpr (List.length_cons ▸ Nat.succ_ne_zero _)
      exact mul_div_cancel₀ _ some

/-- What a period's records are split into at a time. -/
theorem addsUp_of_perm {first second whole : List UsageRecord} (perm : whole.Perm (first ++ second)) :
    AddsUp round (summaryOf round first) (summaryOf round second) (summaryOf round whole) := by
  have sums (f : UsageRecord → Nat) : (whole.map f).sum = (first.map f).sum + (second.map f).sum := by
    rw [(perm.map f).sum_nat, List.map_append, List.sum_append]
  constructor
  · exact perm.length_eq.trans List.length_append
  · exact sums (·.tokensUsed)
  · refine ⟨latencyMean first, latencyMean second, rfl, rfl, congrArg round ?_⟩
    dsimp only [summaryOf]
    rw [length_mul_latencyMean, length_mul_latencyMean, ← Nat.cast_add, ← sums, latencyMean]
  · intro endpoint
    simp only [summaryOf, get_aggregateByEndpoint]
    rw [perm.countP_eq, List.countP_append]

theorem getUsageSummary_addsUp (round : Rat → F) (m : APIMarketplace) (apiKeyId : String)
    {startDate endDate : Option Int} {t : Int} (after : ∀ date ∈ startDate, date ≤ t + 1)
    (before : ∀ date ∈ endDate, t ≤ date) :
    AddsUp round (m.getUsageSummary round apiKeyId startDate (some t))
      (m.getUsageSummary round apiKeyId (some (t + 1)) endDate)
      (m.getUsageSummary round apiKeyId startDate endDate) := by
  apply addsUp_of_perm
  -- those of the period up to the time, and those of the period after it
  have split := List.filter_append_perm (fun r : UsageRecord => r.timestamp ≤ t)
    (m.usageRecords.filter fun r => r.apiKeyId = apiKeyId ∧ (∀ date ∈ startDate, date ≤ r.timestamp) ∧
      ∀ date ∈ endDate, r.timestamp ≤ date)
  refine split.symm.trans (List.Perm.of_eq ?_)
  rw [List.filter_filter, List.filter_filter]
  congr 1
  · apply List.filter_congr
    intro r _
    rw [Bool.eq_iff_iff, Bool.and_eq_true, decide_eq_true_eq, decide_eq_true_eq, decide_eq_true_eq]
    simp only [Option.mem_some_iff, forall_eq']
    constructor
    · rintro ⟨early, own, from', -⟩
      exact ⟨own, from', early⟩
    · rintro ⟨own, from', early⟩
      exact ⟨early, own, from', fun date set => Int.le_trans early (before date set)⟩
  · apply List.filter_congr
    intro r _
    rw [Bool.eq_iff_iff, Bool.and_eq_true, Bool.not_eq_true', decide_eq_false_iff_not, decide_eq_true_eq,
      decide_eq_true_eq]
    simp only [Option.mem_some_iff, forall_eq']
    constructor
    · rintro ⟨late, own, -, upTo⟩
      exact ⟨own, by omega, upTo⟩
    · rintro ⟨own, late, upTo⟩
      exact ⟨by omega, own, fun date set => Int.le_trans (after date set) late, upTo⟩

/-- What the summaries say: the requests of a key are those that it has been charged with, every request is in the
count of its endpoint, and periods that adjoin add up. -/
structure Reports (round : Rat → F) (m : APIMarketplace) : Prop where
  totalRequests : ∀ id key, m.apiKeys.get id = some key →
    (m.getUsageSummary round id none none).totalRequests = key.usageCount
  byEndpoint : ∀ id startDate endDate, (m.getUsageSummary round id startDate endDate).byEndpoint.values.sum =
    (m.getUsageSummary round id startDate endDate).totalRequests
  adjoining : ∀ id startDate endDate t, (∀ date ∈ startDate, date ≤ t + 1) → (∀ date ∈ endDate, t ≤ date) →
    AddsUp round (m.getUsageSummary round id startDate (some t)) (m.getUsageSummary round id (some (t + 1)) endDate)
      (m.getUsageSummary round id startDate endDate)

theorem Counted.reports (h : Counted m) (round : Rat → F) : Reports round m := by
  refine ⟨fun id key filed => ?_, fun id startDate endDate => sum_aggregateByEndpoint _,
    fun id startDate endDate t => getUsageSummary_addsUp round m id⟩
  rw [h id key filed, List.countP_eq_length_filter]
  simp [APIMarketplace.getUsageSummary, summaryOf]

end

theorem reports_of_run {F : Type*} (round : Rat → F) (sha256 : String → String) (acts : List Act) (m : APIMarketplace)
    (run : exec (step sha256) {} acts = some m) (named : ∀ a ∈ acts, NamesOwn a) : Reports round m := by
  have along : Along (step sha256) (fun _ a => NamesOwn a) {} acts := along_of_mem (fun a member _ => named a member) _
  have start : Counted {} := fun _ _ => nofun
  have counted := (throughout_of_along (fun _ _ _ h named next => Counted.step h named next) start along).last run
  exact counted.reports round

theorem reports_of_run_twoKeys : ∃ m, exec (step id) {} twoKeys = some m ∧ Reports Rat.floor m :=
  ⟨_, rfl, reports_of_run Rat.floor id twoKeys _ rfl (by simp [twoKeys, NamesOwn])⟩

end CuckooEcho.Shared.ApiKeys
