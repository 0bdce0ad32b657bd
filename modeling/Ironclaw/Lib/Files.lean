import Ironclaw.Lib.Cas
import Ironclaw.Lib.Table

/-!
# Versioned files

Files by name, each with the version of its last write.  A write or a deletion names the
version it expects and has no effect on any other.  What a reader has seen of one version
stays true of that version, because a write always makes a higher one.
-/

namespace Ironclaw.Lib

abbrev Files (κ α : Type) : Type := Table κ (Cell α)

/-- If the file still has the version, its value meets the fact; older versions are gone. -/
def KnownAt {α : Type} (version : Nat) (fact : α → Prop) (file : Option (Cell α)) : Prop :=
  ∀ current, file = some current →
    version ≤ current.version ∧ (version = current.version → fact current.value)

namespace KnownAt

variable {α : Type} {version : Nat} {fact : α → Prop} {current : Cell α}

theorem ofRead (holds : fact current.value) : KnownAt current.version fact (some current) := by
  intro _ same
  cases same
  exact ⟨Nat.le_refl _, fun _ => holds⟩

theorem absent (version : Nat) (fact : α → Prop) : KnownAt version fact none :=
  fun _ present => by cases present

theorem written (known : KnownAt version fact (some current)) (value : α) :
    KnownAt version fact (some ⟨value, current.version + 1⟩) := by
  have bound := (known current rfl).1
  intro _ same
  cases same
  exact ⟨Nat.le_succ_of_le bound, fun equal => absurd equal (by dsimp only; omega)⟩

end KnownAt

namespace Files

variable {κ α : Type} [DecidableEq κ]

/-- Write a file whose version is the expected one; `none` expects no file.  The answer is
the version written. -/
def put (name : κ) (value : α) (expected : Option Nat) (files : Files κ α) :
    Option Nat × Files κ α :=
  if (files.get name).map Cell.version = expected then
    (some (expected.elim 1 (· + 1)), files.insert name ⟨value, expected.elim 1 (· + 1)⟩)
  else (none, files)

def deleteIf (name : κ) (expected : Nat) (files : Files κ α) : Files κ α :=
  if (files.get name).map Cell.version = some expected then files.remove name else files

variable {name other : κ} {value : α} {files : Files κ α}

theorem put_known {version : Nat} {fact : α → Prop}
    (known : KnownAt version fact (files.get name)) :
    files.put name value (some version) = (none, files) ∨
      ∃ current, files.get name = some current ∧ current.version = version ∧ fact current.value ∧
        files.put name value (some version) =
          (some (version + 1), files.insert name ⟨value, version + 1⟩) := by
  unfold put
  split
  next matching =>
    cases found : files.get name with
    | none => simp [found] at matching
    | some current =>
      have same : current.version = version := by simpa [found] using matching
      exact .inr ⟨current, rfl, same, (known current found).2 same.symm, rfl⟩
  · exact .inl rfl

theorem put_absent (name : κ) (value : α) (files : Files κ α) :
    ((files.get name).isSome ∧ files.put name value none = (none, files)) ∨ files.get name = none ∧
        files.put name value none = (some 1, files.insert name ⟨value, 1⟩) := by
  unfold put
  cases found : files.get name with
  | none => exact .inr ⟨rfl, rfl⟩
  | some => exact .inl ⟨rfl, rfl⟩

theorem put_cases (name : κ) (value : α) (expected : Option Nat) (files : Files κ α) :
    files.put name value expected = (none, files) ∨ ∃ version, files.put name value expected =
        (some version, files.insert name ⟨value, version⟩) := by
  unfold put
  split
  · exact .inr ⟨_, rfl⟩
  · exact .inl rfl

theorem present_of_put {version : Nat}
    (present : ((files.put name value (some version)).2.get other).isSome = true) :
    (files.get other).isSome = true := by
  unfold put at present
  split at present
  next matching =>
    by_cases same : other = name
    · subst same
      cases found : files.get other with
      | none => simp [found] at matching
      | some => rfl
    · rwa [Table.get_insert_of_ne _ _ same] at present
  · exact present

theorem deleteIf_cases (name : κ) (version : Nat) (files : Files κ α) :
    files.deleteIf name version = files ∨ files.deleteIf name version = files.remove name := by
  unfold deleteIf
  split
  · exact .inr rfl
  · exact .inl rfl

theorem present_of_deleteIf {version : Nat}
    (present : ((files.deleteIf name version).get other).isSome = true) :
    (files.get other).isSome = true := by
  rcases deleteIf_cases name version files with kept | removed
  · rwa [kept] at present
  rw [removed, Table.get_remove] at present
  split at present
  · cases present
  · exact present

end Files

end Ironclaw.Lib
