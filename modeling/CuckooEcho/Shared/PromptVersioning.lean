import CuckooEcho.Lib.Dict
import CuckooEcho.Lib.Run
import Mathlib.Data.List.Infix

namespace CuckooEcho.Shared.PromptVersioning
open Lib

/-! ## The versions of the prompts -/

structure PromptVersion where
  version : String
  content : String
  createdAt : Nat
  createdBy : Option String := none
  changelog : Option String := none
  deriving DecidableEq, Repr

def semver (versionNum : Nat) : String := s!"1.{versionNum}.0"

/-- `versions[-2] if len(versions) > 1 else versions[-1]` -/
def previous (versions : List PromptVersion) : Option PromptVersion :=
  versions[versions.length - if versions.length > 1 then 2 else 1]?

/-- `now` is the time that `datetime.now()` returns. -/
structure PromptVersionManager where
  versions : Dict String (List PromptVersion) := .empty

namespace PromptVersionManager
variable (m : PromptVersionManager) (now : Nat) (promptId : String)

def listVersions : List PromptVersion := (m.versions.get promptId).getD []

def append (version : PromptVersion) : PromptVersionManager :=
  { m with versions := m.versions.set promptId (m.listVersions promptId ++ [version]) }

def createVersion (content : String) (changelog createdBy : Option String := none) :
    PromptVersionManager × PromptVersion :=
  let versionNum := (m.listVersions promptId).length + 1
  let version := { version := semver versionNum, content, createdAt := now, createdBy, changelog }
  (m.append promptId version, version)

def getVersion (version : Option String := none) : Option PromptVersion :=
  match m.versions.get promptId with
  | none => none
  | some versions =>
      match version.filter (· ≠ "") with
      | some version => versions.find? (·.version = version)
      | none => versions.getLast?

def rollback (targetVersion : Option String := none) : PromptVersionManager × Option PromptVersion :=
  match m.versions.get promptId with
  | none => (m, none)
  | some versions =>
      let target := (targetVersion.filter (· ≠ "")).bind fun version => versions.find? (·.version = version)
      match target with
      | some target =>
          let newVersion :=
            { version := semver (versions.length + 1), content := target.content, createdAt := now,
              changelog := some ("Rolled back to " ++ targetVersion.getD "") }
          (m.append promptId newVersion, some newVersion)
      -- also for a version number that was not found
      | none =>
          match previous versions with
          | none => (m, none)
          | some previous =>
              let (m, version) := m.createVersion now promptId previous.content (some "Rolled back to previous version")
              (m, some version)

end PromptVersionManager

/-! ### Sequences of calls -/

inductive Call
  | createVersion (now : Nat) (promptId content : String) (changelog createdBy : Option String)
  | rollback (now : Nat) (promptId : String) (targetVersion : Option String)
  deriving DecidableEq, Repr

def PromptVersionManager.call (m : PromptVersionManager) : Call → PromptVersionManager × Option PromptVersion
  | .createVersion now promptId content changelog createdBy =>
      let (m, version) := m.createVersion now promptId content changelog createdBy
      (m, some version)
  | .rollback now promptId targetVersion => m.rollback now promptId targetVersion

def step (m : PromptVersionManager) (call : Call) : Option PromptVersionManager := some (m.call call).1

/-! ### What a history is to be -/

/-- The versions of each prompt bear the numbers 1.1.0, 1.2.0 and so on. -/
def Numbered (m : PromptVersionManager) : Prop :=
  ∀ promptId i version, (m.listVersions promptId)[i]? = some version → version.version = semver (i + 1)

/-- What a call is to do to the histories: no version is changed, removed or moved, and a rollback adds a version with
the content of its target, or nothing if there is no such version. -/
structure AppendOnly (m : PromptVersionManager) (call : Call) : Prop where
  kept : ∀ promptId, m.listVersions promptId <+: (m.call call).1.listVersions promptId
  existing : ∀ now promptId target, call = .rollback now promptId (some target.version) →
    target ∈ m.listVersions promptId → ∃ version, m.call call = (m.append promptId version, some version) ∧
      version.content = target.content
  missing : ∀ now promptId number, call = .rollback now promptId (some number) →
    (∀ version ∈ m.listVersions promptId, version.version ≠ number) → m.call call = (m, none)

/-- A rollback is asked for a version that there is, unless the prompt has none. -/
def TargetsExisting (m : PromptVersionManager) : Call → Prop
  | .rollback _ promptId (some number) =>
      m.listVersions promptId = [] ∨ ∃ version ∈ m.listVersions promptId, version.version = number
  | _ => True

theorem semver_injective {i j : Nat} (same : semver i = semver j) : i = j := by
  have digits : i.repr = j.repr := by
    have inner : toString "1." ++ toString i = toString "1." ++ toString j := (String.append_left_inj _).mp same
    exact (String.append_right_inj _).mp inner
  have lists := congrArg String.toList digits
  rw [Nat.toList_repr, Nat.toList_repr] at lists
  rw [← Nat.ofDigitChars_ten_toDigits (n := i), lists, Nat.ofDigitChars_ten_toDigits]

theorem semver_ne_empty (i : Nat) : semver i ≠ "" := by
  intro empty
  have chars := congrArg String.toList empty
  simp [semver] at chars

namespace PromptVersionManager
variable {m : PromptVersionManager} {now : Nat} {promptId : String}

theorem listVersions_append (version : PromptVersion) (other : String) :
    (m.append promptId version).listVersions other =
      if other = promptId then m.listVersions promptId ++ [version] else m.listVersions other := by
  unfold append listVersions
  rw [Dict.get_set]
  split
  · rfl
  · rfl

theorem prefix_append (version : PromptVersion) (other : String) :
    m.listVersions other <+: (m.append promptId version).listVersions other := by
  rw [listVersions_append]
  split
  · rename_i same
    rw [same]
    exact List.prefix_append _ _
  · exact List.prefix_rfl

theorem rollback_eq (targetVersion : Option String) : m.rollback now promptId targetVersion =
    match (targetVersion.filter (· ≠ "")).bind fun version => (m.listVersions promptId).find? (·.version = version) with
    | some target =>
        let newVersion :=
          { version := semver ((m.listVersions promptId).length + 1), content := target.content, createdAt := now,
            changelog := some ("Rolled back to " ++ targetVersion.getD "") }
        (m.append promptId newVersion, some newVersion)
    | none => ((previous (m.listVersions promptId)).elim (m, none)) fun previous =>
        ((m.createVersion now promptId previous.content (some "Rolled back to previous version")).1,
          some (m.createVersion now promptId previous.content (some "Rolled back to previous version")).2) := by
  unfold rollback listVersions
  cases m.versions.get promptId with
  | none => cases targetVersion.filter (· ≠ "") <;> rfl
  | some versions =>
      rw [Option.getD_some]
      dsimp only
      split
      · rfl
      · cases previous versions <;> rfl

theorem previous_eq_none {versions : List PromptVersion} : previous versions = none ↔ versions = [] := by
  rw [previous, List.getElem?_eq_none_iff, ← List.length_eq_zero_iff]
  split <;> omega

/-- A call appends one version with the next number, or does nothing. -/
theorem call_cases (m : PromptVersionManager) (call : Call) :
    m.call call = (m, none) ∨ ∃ promptId version, version.version = semver ((m.listVersions promptId).length + 1) ∧
      m.call call = (m.append promptId version, some version) := by
  cases call with
  | createVersion now promptId content changelog createdBy => exact Or.inr ⟨promptId, _, rfl, rfl⟩
  | rollback now promptId targetVersion =>
      unfold PromptVersionManager.call
      dsimp only
      rw [rollback_eq]
      split
      · exact Or.inr ⟨promptId, _, rfl, rfl⟩
      · cases previous (m.listVersions promptId) with
        | none => exact Or.inl rfl
        | some previous => exact Or.inr ⟨promptId, _, rfl, rfl⟩

end PromptVersionManager

section
variable {m : PromptVersionManager}

theorem Numbered.call (h : Numbered m) (call : Call) : Numbered (m.call call).1 := by
  obtain same | ⟨promptId, version, number, same⟩ := m.call_cases call
  · rw [same]
    exact h
  · intro other i v found
    rw [same, PromptVersionManager.listVersions_append] at found
    split at found
    · rename_i here
      subst here
      rw [List.getElem?_append] at found
      split at found
      · exact h other i v found
      · have last : i - (m.listVersions other).length = 0 := by
          by_contra later
          rw [List.getElem?_eq_none (by rw [List.length_singleton]; omega)] at found
          cases found
        rw [last] at found
        rw [← Option.some.inj found, number]
        congr 1
        omega
    · exact h other i v found

theorem Numbered.eq_of_version (h : Numbered m) {promptId : String} {v w : PromptVersion}
    (hv : v ∈ m.listVersions promptId) (hw : w ∈ m.listVersions promptId) (same : v.version = w.version) : v = w := by
  obtain ⟨i, atI⟩ := List.mem_iff_getElem?.mp hv
  obtain ⟨j, atJ⟩ := List.mem_iff_getElem?.mp hw
  rw [h promptId i v atI, h promptId j w atJ] at same
  obtain rfl : i = j := Nat.succ_injective (semver_injective same)
  exact Option.some.inj (atI.symm.trans atJ)

theorem Numbered.version_ne_empty (h : Numbered m) {promptId : String} {v : PromptVersion}
    (hv : v ∈ m.listVersions promptId) : v.version ≠ "" := by
  obtain ⟨i, atI⟩ := List.mem_iff_getElem?.mp hv
  rw [h promptId i v atI]
  exact semver_ne_empty _

theorem Numbered.find? (h : Numbered m) {promptId : String} {v : PromptVersion} (hv : v ∈ m.listVersions promptId) :
    ((some v.version).filter (· ≠ "")).bind (fun version => (m.listVersions promptId).find? (·.version = version)) =
      some v := by
  rw [Option.filter_some_pos (by simpa using h.version_ne_empty hv), Option.bind_some]
  cases found : (m.listVersions promptId).find? (·.version = v.version) with
  | none =>
      have differs := List.find?_eq_none.mp found v hv
      simp at differs
  | some w =>
      have same : w.version = v.version := by simpa using List.find?_some found
      rw [h.eq_of_version (List.mem_of_find?_eq_some found) hv same]

theorem Numbered.getVersion (h : Numbered m) {promptId : String} {v : PromptVersion}
    (hv : v ∈ m.listVersions promptId) : m.getVersion promptId (some v.version) = some v := by
  have found := h.find? hv
  rw [Option.filter_some_pos (by simpa using h.version_ne_empty hv), Option.bind_some] at found
  unfold PromptVersionManager.getVersion
  rw [Option.filter_some_pos (by simpa using h.version_ne_empty hv)]
  unfold PromptVersionManager.listVersions at found hv
  cases known : m.versions.get promptId with
  | none => simp [known] at hv
  | some versions => simpa [known] using found

theorem kept (m : PromptVersionManager) (call : Call) (promptId : String) :
    m.listVersions promptId <+: (m.call call).1.listVersions promptId := by
  obtain same | ⟨changed, version, -, same⟩ := m.call_cases call
  · rw [same]
  · rw [same]
    exact PromptVersionManager.prefix_append version promptId

theorem rollback_missing {now : Nat} {promptId number : String}
    (missing : ∀ version ∈ m.listVersions promptId, version.version ≠ number) :
    m.rollback now promptId (some number) = (m, none) ↔ m.listVersions promptId = [] := by
  have noTarget : ((some number).filter (· ≠ "")).bind
      (fun version => (m.listVersions promptId).find? (·.version = version)) = none := by
    rw [Option.bind_eq_none_iff]
    intro version given
    obtain rfl := Option.some.inj (Option.filter_eq_some_iff.mp given).1
    exact List.find?_eq_none.mpr fun v hv => by simpa using missing v hv
  rw [PromptVersionManager.rollback_eq, noTarget]
  cases found : previous (m.listVersions promptId) with
  | none => exact iff_of_true rfl (PromptVersionManager.previous_eq_none.mp found)
  | some version =>
      refine iff_of_false (fun same => ?_) fun empty => ?_
      · cases congrArg Prod.snd same
      · rw [PromptVersionManager.previous_eq_none.mpr empty] at found
        cases found

theorem Numbered.appendOnly_iff (h : Numbered m) (call : Call) : AppendOnly m call ↔ TargetsExisting m call := by
  constructor
  · intro appends
    cases call with
    | createVersion => trivial
    | rollback now promptId targetVersion =>
        cases targetVersion with
        | none => trivial
        | some number =>
            by_cases found : ∃ version ∈ m.listVersions promptId, version.version = number
            · exact Or.inr found
            · have missing : ∀ version ∈ m.listVersions promptId, version.version ≠ number := by simpa using found
              exact Or.inl ((rollback_missing missing).mp (appends.missing now promptId number rfl missing))
  · intro targets
    refine ⟨kept m call, ?_, ?_⟩
    · rintro now promptId target rfl member
      unfold PromptVersionManager.call
      dsimp only
      rw [PromptVersionManager.rollback_eq, h.find? member]
      exact ⟨_, rfl, rfl⟩
    · rintro now promptId number rfl missing
      obtain empty | ⟨version, member, same⟩ := targets
      · exact (rollback_missing missing).mpr empty
      · exact absurd same (missing version member)

theorem Numbered.unique (h : Numbered m) (promptId : String) :
    ((m.listVersions promptId).map (·.version)).Nodup := by
  refine List.nodup_iff_injective_getElem.mpr fun i j same => ?_
  have number (i : Fin ((m.listVersions promptId).map (·.version)).length) :
      ((m.listVersions promptId).map (·.version))[i] = semver (i + 1) := by
    have bound : (i : Nat) < (m.listVersions promptId).length := by simpa using i.isLt
    rw [Fin.getElem_fin, List.getElem_map]
    exact h promptId i _ (List.getElem?_eq_getElem bound)
  have same : semver (i + 1) = semver (j + 1) := (number i).symm.trans (same.trans (number j))
  exact Fin.ext (Nat.succ_injective (semver_injective same))

end

/-- The versions of all prompts are numbered in every state, no two of a prompt alike, and the histories grow as they
are to, exactly in the runs in which no rollback asks for a version that there is not. -/
theorem appendOnly_iff_targetsExisting (calls : List Call) :
    (Throughout step (fun m => Numbered m ∧ ∀ promptId, ((m.listVersions promptId).map (·.version)).Nodup) {} calls ∧
      Along step AppendOnly {} calls) ↔ Along step TargetsExisting {} calls := by
  have start : Numbered {} := fun _ _ _ found => by cases found
  have keep (m : PromptVersionManager) (call : Call) (m' : PromptVersionManager) (h : Numbered m)
      (next : step m call = some m') : Numbered m' := Option.some.inj next ▸ h.call call
  have numbered : Throughout step Numbered {} calls := throughout_of_step keep start
  rw [and_iff_right (numbered.mono fun m h => ⟨h, h.unique⟩)]
  exact along_iff_along Numbered (fun m call h => h.appendOnly_iff call) (fun m call m' h _ => keep m call m' h) start

def mistyped : List Call := [.createVersion 0 "greeting" "Hello" none none, .rollback 1 "greeting" (some "9.9.9")]

theorem mistyped_appended : ¬ ∀ calls : List Call,
    Throughout step (fun m => Numbered m ∧ ∀ promptId, ((m.listVersions promptId).map (·.version)).Nodup) {} calls ∧
      Along step AppendOnly {} calls := by
  intro claim
  have appends := (claim mistyped).2
  have first : step {} (.createVersion 0 "greeting" "Hello" none none) =
      some ((PromptVersionManager.mk .empty).append "greeting" ⟨"1.1.0", "Hello", 0, none, none⟩) := rfl
  have second := ((appends _ first).2 _ rfl).1
  have unchanged := second.missing 1 "greeting" "9.9.9" rfl (by decide)
  exact absurd (congrArg Prod.snd unchanged) (by decide)

end CuckooEcho.Shared.PromptVersioning
