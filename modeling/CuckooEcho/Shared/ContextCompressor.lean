import CuckooEcho.Lib.Dict
import CuckooEcho.Lib.Greedy
import CuckooEcho.Lib.Python
import CuckooEcho.Lib.Ranking
import Mathlib.Algebra.Order.Ring.Rat
import Mathlib.Order.OrderDual

namespace CuckooEcho.Shared.ContextCompressor
open Lib Greedy

/-- The times are counted from `datetime.min` on. -/
structure Message where
  role : String
  content : String
  timestamp : Option Nat := none
  metadata : Option (Dict String PyValue) := none

section
variable (lower : String → String)

def isToolResult (m : Message) : Bool := m.metadata.any fun metadata => (metadata.get "is_tool_result").any (·.truthy)

def PRIORITY_SCORES : List (String × Rat) :=
  [("tool", 1), ("preference", 0.9), ("system", 0.6), ("user", 0.5), ("assistant", 0.3)]

def contains (part text : String) : Bool := text.toList.tails.any fun rest => part.toList.isPrefixOf rest

def scoreImportance (m : Message) : Rat :=
  if isToolResult m then 1
  else if contains "prefer" (lower m.content) || contains "always" (lower m.content) then 0.9
  else if m.role = "system" then 0.6
  else (PRIORITY_SCORES.lookup m.role).getD 0.3

def tokens (m : Message) : Nat := m.content.length / 4

/-- `m.timestamp or datetime.min` -/
def time (m : Message) : Nat := m.timestamp.getD 0

/-! ## `compress`

The items are messages, or messages together with their places. -/

variable {α : Type} (view : α → Message)

def considered (items : List α) : List α :=
  items.insertionSort fun a b => scoreImportance lower (view b) ≤ scoreImportance lower (view a)

def compressed (items : List α) (budget : Int) : List α :=
  (fill (fun a => tokens (view a)) budget 0 (considered lower view items)).insertionSort fun a b =>
    time (view a) ≤ time (view b)

def compress (messages : List Message) (budget : Int) : List Message := compressed lower id messages budget

/-- Compression looks at nothing but the messages. -/
theorem compress_eq (messages : List Message) (budget : Int) :
    compress lower messages budget = (compressed lower Prod.fst messages.zipIdx budget).map Prod.fst := by
  have order : (considered lower Prod.fst messages.zipIdx).map Prod.fst = considered lower id messages := by
    rw [considered, List.map_insertionSort _ (fun a b => scoreImportance lower b ≤ scoreImportance lower a) Prod.fst _
      fun _ _ _ _ => Iff.rfl, List.zipIdx_map_fst]
    rfl
  have taken := fill_map tokens budget 0 Prod.fst (considered lower Prod.fst messages.zipIdx)
  rw [order] at taken
  rw [compressed, List.map_insertionSort _ (fun a b => time a ≤ time b) Prod.fst _ fun _ _ _ _ => Iff.rfl, taken]
  rfl

/-! ### The messages with their places -/

abbrev Placed := Message × Nat

def cost (l : List Placed) : Nat := costOf (fun a => tokens a.1) l

def taken (messages : List Message) (budget : Int) : List Placed :=
  fill (fun a => tokens a.1) budget 0 (considered lower Prod.fst messages.zipIdx)

variable {lower} {messages : List Message} {budget : Int} {x y : Placed}

theorem pairwise_zipIdx (messages : List Message) : messages.zipIdx.Pairwise fun a b => a.2 < b.2 := by
  rw [← List.pairwise_map (f := Prod.snd) (R := fun i j => i < j), List.zipIdx_map_snd]
  exact List.pairwise_lt_range'

theorem considered_perm (lower : String → String) (messages : List Message) :
    (considered lower Prod.fst messages.zipIdx).Perm messages.zipIdx := List.perm_insertionSort _ _

theorem nodup_considered (lower : String → String) (messages : List Message) :
    (considered lower Prod.fst messages.zipIdx).Nodup :=
  (considered_perm lower messages).nodup_iff.mpr
    ((pairwise_zipIdx messages).imp fun before same => Nat.ne_of_lt before (congrArg Prod.snd same))

theorem compressed_perm (messages : List Message) (budget : Int) :
    (compressed lower Prod.fst messages.zipIdx budget).Perm (taken lower messages budget) := List.perm_insertionSort _ _

theorem taken_sublist (messages : List Message) (budget : Int) :
    (taken lower messages budget).Sublist (considered lower Prod.fst messages.zipIdx) := fill_sublist _

theorem mem_zipIdx_of_taken (member : x ∈ taken lower messages budget) : x ∈ messages.zipIdx :=
  (considered_perm lower messages).mem_iff.mp ((taken_sublist messages budget).subset member)

theorem place_inj (first : x ∈ messages.zipIdx) (second : y ∈ messages.zipIdx) (same : x.2 = y.2) : x = y := by
  by_contra different
  rcases related_of_pairwise (pairwise_zipIdx messages) first second different with before | before
  · exact Nat.ne_of_lt before same
  · exact Nat.ne_of_lt before same.symm

/-- Of all messages those before `x` have been considered, and it fits beside what has been taken of them. -/
def Fits (lower : String → String) (messages : List Message) (budget : Int) (x : Placed) : Prop :=
  ∃ front back, considered lower Prod.fst messages.zipIdx = front ++ x :: back ∧
    cost (fill (fun a => tokens a.1) budget 0 front) + tokens x.1 ≤ budget

theorem mem_taken_iff_fits : x ∈ taken lower messages budget ↔ Fits lower messages budget x := by
  have nodup := nodup_considered lower messages
  constructor
  · intro member
    obtain ⟨front, back, split⟩ := List.append_of_mem ((taken_sublist messages budget).subset member)
    rw [taken, split] at member
    rw [split] at nodup
    have fits := (mem_fill_iff nodup).mp member
    exact ⟨front, back, split, by rwa [Int.zero_add] at fits⟩
  · rintro ⟨front, back, split, fits⟩
    rw [split] at nodup
    rw [taken, split, mem_fill_iff nodup, Int.zero_add]
    exact fits

/-! ### What is promised of a compression -/

def Chronological (messages : List Message) : Prop :=
  (∀ m ∈ messages, m.timestamp = none) ∨
    ∃ times : List Nat, messages.map (·.timestamp) = times.map some ∧ times.Pairwise (· ≤ ·)

theorem Chronological.sorted (chronological : Chronological messages) : (messages.map time).Pairwise (· ≤ ·) := by
  rcases chronological with none | ⟨times, all, sorted⟩
  · have zero : ∀ m ∈ messages, time m = 0 := fun m member => by rw [time, none m member, Option.getD_none]
    rw [List.pairwise_map]
    refine List.pairwise_of_forall_mem_list fun a first b second => ?_
    rw [zero a first, zero b second]
  · have same : messages.map time = times := by
      have read := congrArg (List.map fun t : Option Nat => t.getD 0) all
      rw [List.map_map, List.map_map] at read
      exact read.trans (List.map_id times)
    rwa [same]

theorem Chronological.time_le (chronological : Chronological messages) :
    ∀ a ∈ messages.zipIdx, ∀ b ∈ messages.zipIdx, a.2 < b.2 → time a.1 ≤ time b.1 := by
  have placed : messages.zipIdx.Pairwise fun a b => time a.1 ≤ time b.1 := by
    rw [← List.pairwise_map (f := fun a : Placed => time a.1) (R := (· ≤ ·))]
    have times : messages.zipIdx.map (fun a => time a.1) = messages.map time := by
      rw [← List.zipIdx_map_fst 0 messages, List.map_map]
      simp [Function.comp_def]
    rw [times]
    exact chronological.sorted
  intro a first b second before
  have different : a ≠ b := fun same => Nat.ne_of_lt before (congrArg Prod.snd same)
  rcases related_of_pairwise ((pairwise_zipIdx messages).and placed) first second different with ab | ba
  · exact ab.2
  · exact absurd before (Nat.lt_asymm ba.1)

structure KeepsOrder (lower : String → String) (messages : List Message) (budget : Int) : Prop where
  inOrder : (compressed lower Prod.fst messages.zipIdx budget).Sublist messages.zipIdx
  withinBudget : (costOf tokens (compress lower messages budget) : Int) ≤ budget
  leftOut : ∀ front x back, considered lower Prod.fst messages.zipIdx = front ++ x :: back →
    x.2 ∉ (compressed lower Prod.fst messages.zipIdx budget).map Prod.snd →
      budget < cost (front.filter fun a => a.2 ∈ (compressed lower Prod.fst messages.zipIdx budget).map Prod.snd) +
        tokens x.1

theorem sublist_iff_ordered : (compressed lower Prod.fst messages.zipIdx budget).Sublist messages.zipIdx ↔
    (compressed lower Prod.fst messages.zipIdx budget).Pairwise fun a b => a.2 < b.2 := by
  constructor
  · exact fun sublist => (pairwise_zipIdx messages).sublist sublist
  · intro ordered
    have antisymm : Std.Antisymm fun a b : Placed => a.2 < b.2 := ⟨fun a b ab ba => absurd ab (Nat.lt_asymm ba)⟩
    have part : (compressed lower Prod.fst messages.zipIdx budget).Subperm messages.zipIdx :=
      (compressed_perm messages budget).subperm.trans
        ((taken_sublist messages budget).subperm.trans (considered_perm lower messages).subperm)
    exact List.sublist_of_subperm_of_pairwise part ordered (pairwise_zipIdx messages)

theorem inOrder_iff (lower : String → String) (messages : List Message) (budget : Int)
    (chronological : Chronological messages) :
    (compressed lower Prod.fst messages.zipIdx budget).Sublist messages.zipIdx ↔
      ∀ x y, Fits lower messages budget x → Fits lower messages budget y → x.2 < y.2 → time x.1 = time y.1 →
        scoreImportance lower y.1 ≤ scoreImportance lower x.1 := by
  have ranked : (taken lower messages budget).Pairwise
      (Precedes (fun a => scoreImportance lower a.1) fun a b => a.2 < b.2) :=
    (pairwise_precedes_insertionSort (fun _ _ => Iff.rfl) (pairwise_zipIdx messages)).sublist
      (taken_sublist messages budget)
  have apart : (taken lower messages budget).Pairwise fun a b => a.2 ≠ b.2 := by
    have all : messages.zipIdx.Pairwise fun a b => a.2 ≠ b.2 := (pairwise_zipIdx messages).imp Nat.ne_of_lt
    exact (((considered_perm lower messages).pairwise_iff fun ne => ne.symm).mpr all).sublist
      (taken_sublist messages budget)
  have placed := pairwise_insertionSort_iff ranked apart fun a first b second =>
    chronological.time_le a (mem_zipIdx_of_taken first) b (mem_zipIdx_of_taken second)
  rw [sublist_iff_ordered]
  refine Iff.trans placed ?_
  simp only [mem_taken_iff_fits]
  constructor
  · exact fun agree x y first second => agree x first y second
  · exact fun agree x first y second => agree x y first second

theorem mem_places (known : x ∈ messages.zipIdx) :
    x.2 ∈ (compressed lower Prod.fst messages.zipIdx budget).map Prod.snd ↔ x ∈ taken lower messages budget := by
  rw [List.mem_map]
  constructor
  · rintro ⟨y, member, same⟩
    have here := (compressed_perm messages budget).mem_iff.mp member
    exact place_inj (mem_zipIdx_of_taken here) known same ▸ here
  · exact fun member => ⟨x, (compressed_perm messages budget).mem_iff.mpr member, rfl⟩

/-- Of the messages considered before `x`, those in the result are those that were taken of them. -/
theorem cost_kept {front back : List Placed} (split : considered lower Prod.fst messages.zipIdx = front ++ x :: back) :
    cost (front.filter fun a => a.2 ∈ (compressed lower Prod.fst messages.zipIdx budget).map Prod.snd) =
      cost (fill (fun a => tokens a.1) budget 0 front) := by
  have known {a : Placed} (member : a ∈ front) : a ∈ messages.zipIdx :=
    (considered_perm lower messages).mem_iff.mp (split ▸ List.mem_append_left _ member)
  have nodup : (front ++ x :: back).Nodup := split ▸ nodup_considered lower messages
  have whole := (List.nodup_append.mp nodup).1
  refine costOf_perm ((List.perm_ext_iff_of_nodup (whole.filter _) (whole.sublist (fill_sublist front))).mpr ?_)
  intro a
  rw [List.mem_filter, decide_eq_true_iff]
  constructor
  · rintro ⟨member, place⟩
    have inAll := (mem_places (known member)).mp place
    rw [taken, split] at inAll
    exact (mem_fill_front nodup member).mp inAll
  · intro inFront
    have member := (fill_sublist front).subset inFront
    refine ⟨member, (mem_places (known member)).mpr ?_⟩
    rw [taken, split]
    exact (mem_fill_front nodup member).mpr inFront

theorem leftOut (lower : String → String) (messages : List Message) (budget : Int) (front : List Placed) (x : Placed)
    (back : List Placed) (split : considered lower Prod.fst messages.zipIdx = front ++ x :: back)
    (out : x.2 ∉ (compressed lower Prod.fst messages.zipIdx budget).map Prod.snd) :
    budget < cost (front.filter fun a => a.2 ∈ (compressed lower Prod.fst messages.zipIdx budget).map Prod.snd) +
      tokens x.1 := by
  have known : x ∈ messages.zipIdx :=
    (considered_perm lower messages).mem_iff.mp (split ▸ List.mem_append_right _ List.mem_cons_self)
  have tooMuch := mt (mem_places known).mpr out
  rw [mem_taken_iff_fits] at tooMuch
  rw [cost_kept split]
  by_contra fits
  exact tooMuch ⟨front, back, split, not_lt.mp fits⟩

theorem keepsOrder_iff (lower : String → String) (messages : List Message) (budget : Int)
    (chronological : Chronological messages) :
    KeepsOrder lower messages budget ↔ 0 ≤ budget ∧
      ∀ x y, Fits lower messages budget x → Fits lower messages budget y → x.2 < y.2 → time x.1 = time y.1 →
        scoreImportance lower y.1 ≤ scoreImportance lower x.1 := by
  constructor
  · intro keeps
    exact ⟨(Int.natCast_nonneg _).trans keeps.withinBudget, (inOrder_iff lower messages budget chronological).mp keeps.inOrder⟩
  · rintro ⟨nonneg, agree⟩
    refine ⟨(inOrder_iff lower messages budget chronological).mpr agree, ?_, leftOut lower messages budget⟩
    have within := costOf_fill_le tokens nonneg (considered lower id messages)
    rw [Int.zero_add] at within
    have perm : (compress lower messages budget).Perm (fill tokens budget 0 (considered lower id messages)) :=
      List.perm_insertionSort _ _
    rwa [costOf_perm perm]

end

theorem keepsOrder_iff_dated :
    KeepsOrder String.toLower [⟨"user", "hello", some 3, none⟩, ⟨"system", "be brief", some 5, none⟩] 10 ↔ (0 : Int) ≤ 10 ∧
      ∀ x y, Fits String.toLower [⟨"user", "hello", some 3, none⟩, ⟨"system", "be brief", some 5, none⟩] 10 x →
        Fits String.toLower [⟨"user", "hello", some 3, none⟩, ⟨"system", "be brief", some 5, none⟩] 10 y →
        x.2 < y.2 → time x.1 = time y.1 →
          scoreImportance String.toLower y.1 ≤ scoreImportance String.toLower x.1 :=
  keepsOrder_iff String.toLower _ 10 (.inr ⟨[3, 5], rfl, by decide⟩)

/-- Without timestamps the system's message stays before the user's question that it followed. -/
theorem importance_order_kept :
    ¬ ∀ (lower : String → String) (messages : List Message) (budget : Int), Chronological messages → 0 ≤ budget →
      KeepsOrder lower messages budget := by
  intro claim
  have keeps := claim String.toLower [⟨"user", "hello", none, none⟩, ⟨"system", "be brief", none, none⟩] 10
    (.inl (by simp)) (by decide)
  have places := keeps.inOrder.map Prod.snd
  have swapped : (compressed String.toLower Prod.fst ([⟨"user", "hello", none, none⟩,
      ⟨"system", "be brief", none, none⟩] : List Message).zipIdx 10).map Prod.snd = [1, 0] := by decide +kernel
  rw [swapped] at places
  exact absurd places (by decide)

end CuckooEcho.Shared.ContextCompressor
