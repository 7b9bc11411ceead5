import SharedCounters.Proofs.Creating

/-! Creations that fail. What was there before is there afterwards and nothing else: arguments are checked
before a file is touched, a file that was made is removed again, and once it is mapped nothing can fail. -/

namespace SharedCounters

namespace FileSystem

variable {fs fs' : FileSystem}

theorem bytesOf_eq (names : fs.SameNames fs') (keeps : fs.Keeps (fun _ => True) fs') (p : Path) :
    fs'.bytesOf p = fs.bytesOf p := by
  simp only [bytesOf, fileToWrite, names.find_eq]
  cases found : fs.find p with
  | error cause => rfl
  | ok entry =>
    obtain ⟨spot, _ | number⟩ := entry
    · rfl
    · exact congrArg Except.ok (keeps.bytes_eq number (number_lt_of_find found) trivial)

end FileSystem

theorem Mapping.remake_of_long {len : Nat} (long : maxLen < len) (file : Nat) (pageSize : UInt64)
    (fs : FileSystem) : remake file len pageSize fs = .error (.file .regionTooLarge) fs := by
  rw [remake, if_pos long]
  rfl

namespace Writer

variable {statics : Statics} {slots : Nat} {settings : Settings} {fs : FileSystem} {failure : Failure}

theorem remake_of_rejected (rejected : Rejected statics slots settings failure) (origin : Origin) (file : Nat)
    (fs : FileSystem) : remake file statics slots settings origin fs = .error failure fs := by
  cases rejected with
  | settings bad =>
    simp only [remake, bad]
    rfl
  | partition checked bad =>
    simp only [remake, checked, bad]
    rfl
  | length checked divided long =>
    have tooLong := Mapping.remake_of_long long file settings.pageSize fs
    simp only [remake, checked, divided, Host.request, bind, EStateM.bind, pure, EStateM.pure, tooLong]

variable (statics slots settings) (origin : Origin)

/-- A creation that fails leaves every file as it was and no new one, provided the file just made can be
removed; a mapped region can always be filled in; and a file that was given keeps its bytes when the arguments
are bad, which is the only thing that can go wrong where the machine refuses nothing. -/
theorem failed_creation_changes_nothing (fs : FileSystem) :
    (∀ path, fs.refuses (.removal path) = none → ∀ failure fs',
      make path statics slots settings origin fs = .error failure fs' →
      fs.SameNames fs' ∧ fs.Keeps (fun _ => True) fs' ∧
        ∀ q, fs'.find q = fs.find q ∧ fs'.bytesOf q = fs.bytesOf q) ∧
    (∀ partition (p : Mapping) path, settings.check = .ok () →
      Partition.ofStatics statics slots = .ok partition →
      p.len = (partition.mappedLen settings.pageSize).toNat →
      ∃ w fs', finish p partition statics path origin fs = .ok w fs') ∧
    (∀ file failure, Rejected statics slots settings failure →
      remake file statics slots settings origin fs = .error failure fs) ∧
    ∀ file, file < fs.contents.size → (∀ d, fs.refuses d = none) → ∀ failure fs',
      remake file statics slots settings origin fs = .error failure fs' →
      Rejected statics slots settings failure ∧ fs' = fs := by
  refine ⟨fun path willing failure fs' failed => ?_, fun partition p path checked divided len_eq => ?_,
    fun file failure rejected => remake_of_rejected rejected origin file fs,
    fun file there willing failure fs' failed => ?_⟩
  · have made : Ensures (make path statics slots settings origin) fs _ _ :=
      make_ensures statics slots settings origin path fun _ => True
    rw [Ensures, failed] at made
    obtain ⟨keeps, names⟩ := made
    have names := names willing
    exact ⟨names, keeps, fun q => ⟨names.find_eq q, FileSystem.bytesOf_eq names keeps q⟩⟩
  · exact ⟨_, _, finish_eq origin divided (Mapping.extent_le checked len_eq) path fs⟩
  · have remade := remake_ensures statics slots settings origin there
    rw [Ensures, failed] at remade
    obtain ⟨failure', rejected⟩ := remade.2 willing
    rw [remake_of_rejected rejected origin file fs] at failed
    cases failed
    exact ⟨rejected, rfl⟩

/-- A machine with a file of three bytes that maps no file to write to it. -/
def crowded : FileSystem :=
  { ((FileSystem.ofDirectories [] []).addFile [Text.utf8 "b"]).2.setBytes 0 ⟨#[1, 2, 3]⟩ with
    refuses := fun
      | .mapping _ => some .noSuchDevice
      | _ => none }

def failure? {α : Type} : EStateM.Result Failure FileSystem α → Option Failure
  | .ok _ _ => none
  | .error failure _ => some failure

theorem make_crowded : failure? (make (.ofString "a") .empty 1 ⟨⟨[]⟩, 128⟩ ⟨7, 9⟩ crowded) =
    some (.file .noSuchDevice) := by
  decide +kernel

theorem failed_creation_when_crowded :
    crowded.refuses (.removal (.ofString "a")) = none ∧
    (∃ fs', make (.ofString "a") .empty 1 ⟨⟨[]⟩, 128⟩ ⟨7, 9⟩ crowded = .error (.file .noSuchDevice) fs' ∧
      fs'.bytesOf (.ofString "b") = crowded.bytesOf (.ofString "b") ∧
      fs'.find (.ofString "a") = crowded.find (.ofString "a")) ∧
    Partition.ofStatics .empty 1 = .ok Blocks.oneSlot.partition ∧
    (∃ w fs', finish ⟨0, 0, 896, true⟩ Blocks.oneSlot.partition .empty none ⟨7, 9⟩ crowded = .ok w fs') ∧
    Rejected .empty 1 ⟨⟨[]⟩, 3⟩ (.request (.invalidPageSize 3)) ∧
    remake 0 .empty 1 ⟨⟨[]⟩, 3⟩ ⟨7, 9⟩ crowded = .error (.request (.invalidPageSize 3)) crowded := by
  obtain ⟨made, finished, -⟩ := failed_creation_changes_nothing .empty 1 ⟨⟨[]⟩, 128⟩ ⟨7, 9⟩ crowded
  obtain ⟨-, -, rejected, -⟩ := failed_creation_changes_nothing .empty 1 ⟨⟨[]⟩, 3⟩ ⟨7, 9⟩ crowded
  have divided : Partition.ofStatics .empty 1 = .ok Blocks.oneSlot.partition := rfl
  have bad : Rejected .empty 1 ⟨⟨[]⟩, 3⟩ (.request (.invalidPageSize 3)) := .settings rfl
  have fails := make_crowded
  cases run : make (.ofString "a") .empty 1 ⟨⟨[]⟩, 128⟩ ⟨7, 9⟩ crowded with
  | ok w fs' =>
    rw [run] at fails
    cases fails
  | error failure fs' =>
    rw [run] at fails
    cases fails
    obtain ⟨-, -, same⟩ := made (.ofString "a") rfl _ _ run
    exact ⟨rfl, ⟨fs', rfl, (same _).2, (same _).1⟩, divided, finished _ _ none rfl divided (by decide), bad,
      rejected 0 _ bad⟩

end Writer

end SharedCounters
