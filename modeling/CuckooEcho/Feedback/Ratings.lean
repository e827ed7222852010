import CuckooEcho.Feedback.Stats
import Mathlib.Data.List.Dedup

namespace CuckooEcho.Feedback

/-! ## The table as a function of its keys -/

/-- `get_feedback_state`, which raises for an identifier that is no UUID. -/
def getFeedbackState (uuid : String → Option Uuid) (db : Db) (threadId messageId userId tenantId : String) :
    Option (Option FeedbackType) :=
  (FeedbackKey.parse uuid threadId messageId userId tenantId).map db.stored

abbrev Rating := FeedbackKey × FeedbackType

/-- One call of `store_feedback` after the others; one that raises changes nothing. -/
def Db.rate (db : Db) (rating : Rating) : Db := (db.store rating.1 rating.2).elim db (·.2)

/-- What a user's own calls on a message make of it. -/
def ratingOf (tenants : List Uuid) (calls : List Rating) (key : FeedbackKey) : Option FeedbackType :=
  if key.tenantId ∈ tenants then ((calls.filter (·.1 = key)).map (·.2)).foldl toggle none else none

structure Db.Constrained (db : Db) : Prop where
  keyed : db.Keyed
  unique : (db.rows.map (·.key)).Nodup
  registered : ∀ row ∈ db.rows, row.key.tenantId ∈ db.tenants

section
variable {db db' : Db} {key key' : FeedbackKey} {feedbackType : FeedbackType} {row existing : FeedbackRow}

theorem constrained_empty (tenants : List Uuid) (nextId : Uuid) : Db.Constrained ⟨tenants, [], nextId⟩ :=
  ⟨⟨List.nodup_nil, fun _ => nofun⟩, List.nodup_nil, fun _ => nofun⟩

theorem Db.Constrained.insert (h : db.Constrained) (inserted : db.insert key feedbackType = some db') :
    db'.Constrained := by
  have keyed := h.keyed.insert inserted
  obtain ⟨⟨tenant, free⟩, rfl⟩ := Db.insert_eq_some.mp inserted
  refine ⟨keyed, ?_, ?_⟩
  · rw [List.map_append, List.nodup_append]
    refine ⟨h.unique, List.nodup_singleton _, fun old member new here => ?_⟩
    obtain ⟨row, stored, rfl⟩ := List.mem_map.mp member
    obtain rfl := List.mem_singleton.mp here
    exact free row stored
  · exact List.forall_mem_append.mpr ⟨h.registered, List.forall_mem_singleton.mpr tenant⟩

theorem Db.Constrained.update (h : db.Constrained) (id : Uuid) (feedbackType : FeedbackType) :
    (db.update id feedbackType).Constrained := by
  have sameKey (row : FeedbackRow) : (if row.id = id then { row with feedbackType } else row).key = row.key := by
    split <;> rfl
  refine ⟨h.keyed.update id feedbackType, ?_, fun row member => ?_⟩
  · have keys : (db.update id feedbackType).rows.map (·.key) = db.rows.map (·.key) := by
      simp [Db.update, Function.comp_def, sameKey]
    exact keys ▸ h.unique
  · obtain ⟨old, stored, rfl⟩ := List.mem_map.mp member
    rw [sameKey]
    exact h.registered old stored

theorem Db.Constrained.delete (h : db.Constrained) (id : Uuid) : (db.delete id).Constrained where
  keyed := h.keyed.delete id
  unique := h.unique.sublist (List.filter_sublist.map _)
  registered row member := h.registered row (List.mem_of_mem_filter member)

theorem Db.Constrained.rate (h : db.Constrained) (rating : Rating) : (db.rate rating).Constrained := by
  unfold Db.rate
  cases stored : db.store rating.1 rating.2 with
  | none => exact h
  | some result =>
      cases toggled_of_store stored with
      | inserted _ inserts => exact h.insert inserts
      | deleted _ _ => exact h.delete _
      | updated _ _ => exact h.update _ _

theorem tenants_rate (db : Db) (rating : Rating) : (db.rate rating).tenants = db.tenants := by
  unfold Db.rate
  cases stored : db.store rating.1 rating.2 with
  | none => rfl
  | some result =>
      cases toggled_of_store stored with
      | inserted _ inserts =>
          obtain ⟨-, rfl⟩ := Db.insert_eq_some.mp inserts
          rfl
      | deleted _ _ => rfl
      | updated _ _ => rfl

/-! ## The rows of a key and the calls on it -/

theorem mem_of_select (selected : db.select key = some row) : row ∈ db.rows ∧ row.key = key :=
  ⟨List.mem_of_find?_eq_some selected, by simpa using List.find?_some selected⟩

theorem stored_eq_some (h : db.Constrained) :
    db.stored key = some feedbackType ↔ ∃ row ∈ db.rows, row.key = key ∧ row.feedbackType = feedbackType := by
  constructor
  · intro stored
    obtain ⟨row, selected, rfl⟩ := Option.map_eq_some_iff.mp stored
    obtain ⟨member, here⟩ := mem_of_select selected
    exact ⟨row, member, here, rfl⟩
  · rintro ⟨row, member, rfl, rfl⟩
    cases selected : db.select row.key with
    | none => exact absurd rfl (Db.of_eq_nil.mp (Db.select_eq_none.mp selected) row member)
    | some first =>
        obtain ⟨stored, same⟩ := mem_of_select selected
        obtain rfl := List.inj_on_of_nodup_map h.unique stored member same
        rw [Db.stored, selected, Option.map_some]

/-- A call changes the row of its own key. -/
theorem stored_of_toggled (h : db.Constrained) {result : Option FeedbackType × Db}
    (toggled : db.Toggled key feedbackType result) :
    result.1 = toggle (db.stored key) feedbackType ∧
      ∀ key', result.2.stored key' = if key' = key then result.1 else db.stored key' := by
  cases toggled with
  | @inserted db' selected inserts =>
      have none : db.stored key = none := by rw [Db.stored, selected, Option.map_none]
      have later := h.insert inserts
      obtain ⟨-, rfl⟩ := Db.insert_eq_some.mp inserts
      refine ⟨by simp [none, toggle], fun key' => Option.ext fun type => ?_⟩
      rw [stored_eq_some later]
      simp only [List.mem_append, List.mem_singleton, or_and_right, exists_or, exists_eq_left, ← stored_eq_some h]
      split
      · rename_i here
        subst here
        simp [none]
      · rename_i other
        simp [Ne.symm other]
  | @deleted existing selected same =>
      obtain ⟨member, here⟩ := mem_of_select selected
      have stored : db.stored key = some feedbackType := by rw [Db.stored, selected, Option.map_some, same]
      refine ⟨by simp [stored, toggle], fun key' => Option.ext fun type => ?_⟩
      rw [stored_eq_some (h.delete existing.id)]
      simp only [Db.delete, List.mem_filter, decide_eq_true_eq]
      split
      · rename_i own
        simp only [reduceCtorEq, iff_false, not_exists, not_and]
        rintro row ⟨there, other⟩ rowKey -
        obtain rfl := List.inj_on_of_nodup_map h.unique there member (rowKey.trans (own.trans here.symm))
        exact other rfl
      · rename_i other
        rw [stored_eq_some h]
        apply exists_congr
        intro row
        constructor
        · rintro ⟨⟨there, -⟩, facts⟩
          exact ⟨there, facts⟩
        · rintro ⟨there, facts⟩
          refine ⟨⟨there, fun sameId => other ?_⟩, facts⟩
          obtain rfl := h.keyed.unique there member sameId
          exact facts.1.symm.trans here
  | @updated existing selected different =>
      obtain ⟨member, here⟩ := mem_of_select selected
      have stored : db.stored key = some existing.feedbackType := by rw [Db.stored, selected, Option.map_some]
      have rewritten : ({ existing with feedbackType } : FeedbackRow) ∈ (db.update existing.id feedbackType).rows :=
        List.mem_map.mpr ⟨existing, member, if_pos rfl⟩
      refine ⟨by simp [stored, toggle, different], fun key' => ?_⟩
      split
      · rename_i own
        exact (stored_eq_some (h.update existing.id feedbackType)).mpr ⟨_, rewritten, here.trans own.symm, rfl⟩
      · rename_i other
        apply Option.ext
        intro type
        rw [stored_eq_some (h.update existing.id feedbackType), stored_eq_some h]
        constructor
        · rintro ⟨row, there, rowKey, rfl⟩
          obtain ⟨old, before, rfl⟩ := List.mem_map.mp there
          split at rowKey
          · rename_i sameId
            obtain rfl := h.keyed.unique before member sameId
            exact absurd (rowKey.symm.trans here) other
          · rename_i otherId
            exact ⟨old, before, rowKey, by rw [if_neg otherId]⟩
        · rintro ⟨row, there, rowKey, rfl⟩
          have otherId : row.id ≠ existing.id := by
            intro sameId
            obtain rfl := h.keyed.unique there member sameId
            exact other (rowKey.symm.trans here)
          exact ⟨row, List.mem_map.mpr ⟨row, there, if_neg otherId⟩, rowKey, rfl⟩

/-- A call raises exactly for a tenant that is not there. -/
theorem store_isSome_iff (h : db.Constrained) (rating : Rating) :
    (db.store rating.1 rating.2).isSome ↔ rating.1.tenantId ∈ db.tenants := by
  unfold Db.store
  cases selected : db.select rating.1 with
  | some existing =>
      obtain ⟨member, here⟩ := mem_of_select selected
      have registered : rating.1.tenantId ∈ db.tenants := here ▸ h.registered existing member
      simp only [registered, iff_true]
      split <;> rfl
  | none =>
      have free := Db.of_eq_nil.mp (Db.select_eq_none.mp selected)
      simp only [Option.isSome_map, Db.insert]
      by_cases accepts : db.Accepts rating.1
      · rw [if_pos accepts]
        exact iff_of_true rfl accepts.1
      · rw [if_neg accepts]
        exact iff_of_false Bool.false_ne_true fun tenant => accepts ⟨tenant, free⟩

theorem stored_of_unregistered (h : db.Constrained) (unknown : key.tenantId ∉ db.tenants) : db.stored key = none := by
  refine Option.eq_none_iff_forall_not_mem.mpr fun type stored => ?_
  obtain ⟨row, member, rfl, -⟩ := (stored_eq_some h).mp stored
  exact unknown (h.registered row member)

theorem stored_rate (h : db.Constrained) (rating : Rating) (known : key.tenantId ∈ db.tenants) :
    (db.rate rating).stored key =
      if rating.1 = key then toggle (db.stored key) rating.2 else db.stored key := by
  unfold Db.rate
  cases stored : db.store rating.1 rating.2 with
  | none =>
      have other : rating.1 ≠ key := by
        rintro rfl
        have succeeds := (store_isSome_iff h rating).mpr known
        rw [stored] at succeeds
        cases succeeds
      rw [if_neg other]
      rfl
  | some result =>
      obtain ⟨state, rows⟩ := stored_of_toggled h (toggled_of_store stored)
      rw [Option.elim_some, rows key]
      by_cases here : key = rating.1
      · rw [if_pos here, if_pos here.symm, state, here]
      · rw [if_neg here, if_neg (Ne.symm here)]

/-! ## Any number of calls -/

theorem constrained_of_calls (h : db.Constrained) (calls : List Rating) : (calls.foldl Db.rate db).Constrained := by
  induction calls generalizing db with
  | nil => exact h
  | cons rating calls ih => exact ih (h.rate rating)

theorem tenants_of_calls (db : Db) (calls : List Rating) : (calls.foldl Db.rate db).tenants = db.tenants := by
  induction calls generalizing db with
  | nil => rfl
  | cons rating calls ih => exact (ih _).trans (tenants_rate db rating)

theorem stored_of_calls (h : db.Constrained) (calls : List Rating) (known : key.tenantId ∈ db.tenants) :
    (calls.foldl Db.rate db).stored key = ((calls.filter (·.1 = key)).map (·.2)).foldl toggle (db.stored key) := by
  induction calls generalizing db with
  | nil => rfl
  | cons rating calls ih =>
      rw [List.foldl_cons, ih (h.rate rating) ((tenants_rate db rating).symm ▸ known), stored_rate h rating known]
      by_cases own : rating.1 = key
      · rw [if_pos own, List.filter_cons, if_pos (decide_eq_true own), List.map_cons, List.foldl_cons]
      · rw [if_neg own, List.filter_cons, if_neg (by simpa using own)]

theorem stored_eq_ratingOf (tenants : List Uuid) (nextId : Uuid) (calls : List Rating) (key : FeedbackKey) :
    (calls.foldl Db.rate ⟨tenants, [], nextId⟩).stored key = ratingOf tenants calls key := by
  have start := constrained_empty tenants nextId
  unfold ratingOf
  split
  · rename_i known
    exact stored_of_calls start calls known
  · rename_i unknown
    apply stored_of_unregistered (constrained_of_calls start calls)
    rw [tenants_of_calls]
    exact unknown

/-! ## What is counted -/

theorem stored_of_mem (h : db.Constrained) (member : row ∈ db.rows) : db.stored row.key = some row.feedbackType :=
  (stored_eq_some h).mpr ⟨row, member, rfl, rfl⟩

theorem ratingOf_isSome {tenants : List Uuid} {calls : List Rating} (rated : (ratingOf tenants calls key).isSome) :
    key ∈ calls.map (·.1) := by
  by_contra absent
  have none : calls.filter (·.1 = key) = [] :=
    List.filter_eq_nil_iff.mpr fun call member own => absent (List.mem_map.mpr ⟨call, member, of_decide_eq_true own⟩)
  unfold ratingOf at rated
  rw [none] at rated
  split at rated <;> cases rated

/-- The rows are the rated keys, each of them once. -/
theorem rows_perm (tenants : List Uuid) (nextId : Uuid) (calls : List Rating) :
    ((calls.foldl Db.rate ⟨tenants, [], nextId⟩).rows.map (·.key)).Perm
      ((calls.map (·.1)).dedup.filter fun key => (ratingOf tenants calls key).isSome) := by
  have h := constrained_of_calls (constrained_empty tenants nextId) calls
  refine (List.perm_ext_iff_of_nodup h.unique ((List.nodup_dedup _).filter _)).mpr fun key => ?_
  rw [List.mem_filter, List.mem_dedup, ← stored_eq_ratingOf tenants nextId]
  constructor
  · intro member
    obtain ⟨row, stored, rfl⟩ := List.mem_map.mp member
    have rated := stored_of_mem h stored
    have some : (ratingOf tenants calls row.key).isSome := by
      rw [← stored_eq_ratingOf tenants nextId, rated]
      rfl
    exact ⟨ratingOf_isSome some, Option.isSome_iff_exists.mpr ⟨_, rated⟩⟩
  · rintro ⟨-, rated⟩
    obtain ⟨type, stored⟩ := Option.isSome_iff_exists.mp rated
    obtain ⟨row, member, rfl, -⟩ := (stored_eq_some h).mp stored
    exact List.mem_map_of_mem member

/-- The rows of a scope with a property of their rating are its keys whose rating has it. -/
theorem countP_covered (tenants : List Uuid) (nextId : Uuid) (calls : List Rating) (scope : Scope)
    (p : FeedbackType → Bool) :
    ((calls.foldl Db.rate ⟨tenants, [], nextId⟩).covered scope).countP (fun row => p row.feedbackType) =
      (calls.map (·.1)).dedup.countP fun key => scope.covers key ∧ (ratingOf tenants calls key).any p := by
  have h := constrained_of_calls (constrained_empty tenants nextId) calls
  have perm := rows_perm tenants nextId calls
  have rated (row) (member : row ∈ (calls.foldl Db.rate ⟨tenants, [], nextId⟩).rows) :
      ratingOf tenants calls row.key = some row.feedbackType := by
    rw [← stored_eq_ratingOf tenants nextId]
    exact stored_of_mem h member
  have byKey : ((calls.foldl Db.rate ⟨tenants, [], nextId⟩).covered scope).countP (fun row => p row.feedbackType) =
      ((calls.foldl Db.rate ⟨tenants, [], nextId⟩).rows.map (·.key)).countP
        fun key => scope.covers key ∧ (ratingOf tenants calls key).any p := by
    rw [Db.covered, List.countP_filter, List.countP_map]
    refine List.countP_congr fun row member => ?_
    simp [rated row member, and_comm]
  rw [byKey, perm.countP_eq, List.countP_filter]
  refine List.countP_congr fun key _ => ?_
  cases ratingOf tenants calls key <;> simp

/-- The table follows the users' own calls: the feedback on a message, the statistics of every scope, and what the
next call returns or whether it raises. -/
structure Follows {π : Type*} (percentage : Nat → Nat → π) (tenants : List Uuid) (calls : List Rating) (db : Db) :
    Prop where
  states : ∀ uuid threadId messageId userId tenantId, getFeedbackState uuid db threadId messageId userId tenantId =
    (FeedbackKey.parse uuid threadId messageId userId tenantId).map (ratingOf tenants calls)
  thumbsUp : ∀ scope, (db.stats percentage scope).thumbsUp = (calls.map (·.1)).dedup.countP fun key =>
    scope.covers key ∧ ratingOf tenants calls key = some .thumbsUp
  thumbsDown : ∀ scope, (db.stats percentage scope).thumbsDown = (calls.map (·.1)).dedup.countP fun key =>
    scope.covers key ∧ ratingOf tenants calls key = some .thumbsDown
  total : ∀ scope, (db.stats percentage scope).total =
    (db.stats percentage scope).thumbsUp + (db.stats percentage scope).thumbsDown
  returns : ∀ key feedbackType, (db.store key feedbackType).map (·.1) =
    if key.tenantId ∈ tenants then some (ratingOf tenants (calls ++ [(key, feedbackType)]) key) else none

theorem countP_rating (tenants : List Uuid) (nextId : Uuid) (calls : List Rating) (scope : Scope)
    (type : FeedbackType) :
    ((calls.foldl Db.rate ⟨tenants, [], nextId⟩).covered scope).countP (fun row => row.feedbackType = type) =
      (calls.map (·.1)).dedup.countP fun key => scope.covers key ∧ ratingOf tenants calls key = some type := by
  refine (countP_covered tenants nextId calls scope fun t => t = type).trans (List.countP_congr fun key _ => ?_)
  cases ratingOf tenants calls key <;> simp

theorem length_eq_countP (rows : List FeedbackRow) : rows.length =
    rows.countP (fun row => row.feedbackType = .thumbsUp) + rows.countP fun row => row.feedbackType = .thumbsDown := by
  induction rows with
  | nil => rfl
  | cons row rows ih =>
      rw [List.length_cons, ih, List.countP_cons, List.countP_cons]
      cases row.feedbackType with
      | thumbsUp =>
          simp only [decide_true, ↓reduceIte, reduceCtorEq, decide_false, Bool.false_eq_true]
          omega
      | thumbsDown =>
          simp only [decide_true, ↓reduceIte, reduceCtorEq, decide_false, Bool.false_eq_true]
          omega

theorem store_returns (h : db.Constrained) (rating : Rating) (known : rating.1.tenantId ∈ db.tenants) :
    (db.store rating.1 rating.2).map (·.1) = some ((db.rate rating).stored rating.1) := by
  obtain ⟨result, stored⟩ := Option.isSome_iff_exists.mp ((store_isSome_iff h rating).mpr known)
  have rows := (stored_of_toggled h (toggled_of_store stored)).2 rating.1
  rw [if_pos rfl] at rows
  rw [Db.rate, stored, Option.map_some, Option.elim_some, rows]

end

/-- Calls that raise are among the calls. -/
theorem follows_of_calls {π : Type*} (percentage : Nat → Nat → π) (tenants : List Uuid) (nextId : Uuid)
    (calls : List Rating) : Follows percentage tenants calls (calls.foldl Db.rate ⟨tenants, [], nextId⟩) := by
  have h := constrained_of_calls (constrained_empty tenants nextId) calls
  have registered : (calls.foldl Db.rate ⟨tenants, [], nextId⟩).tenants = tenants := tenants_of_calls _ calls
  have states := funext (stored_eq_ratingOf tenants nextId calls)
  refine ⟨fun _ _ _ _ _ => congrArg (Option.map · _) states,
    fun scope => countP_rating tenants nextId calls scope .thumbsUp,
    fun scope => countP_rating tenants nextId calls scope .thumbsDown, fun scope => length_eq_countP _,
    fun key feedbackType => ?_⟩
  split
  · rename_i known
    rw [store_returns h (key, feedbackType) (registered.symm ▸ known), ← stored_eq_ratingOf tenants nextId,
      List.foldl_concat]
  · rename_i unknown
    have raises := mt (store_isSome_iff h (key, feedbackType)).mp (registered.symm ▸ unknown)
    rw [Option.not_isSome_iff_eq_none.mp raises, Option.map_none]

end CuckooEcho.Feedback
