import SharedCounters.Proofs.Claiming
import SharedCounters.Proofs.Footprints
import SharedCounters.Proofs.Fresh

/-! Where an allocation writes, whatever the others do to the region. It writes to one slot only, and only
after the others, let in there a last time, left the slot free: nothing they put into a slot in the
meantime is lost. A refused allocation writes nothing, and none is refused while a slot stays free. -/

namespace SharedCounters.Blocks

variable {κ : Type} {n : Nat} (b : Blocks n)

/-- How an allocation ends, with the pauses before. -/
inductive Settles (others : Interference κ n) (id : UInt64) (label : String) (initial : Int64)
    (s : κ × Memory n) : List (Pause κ n) → Except Refusal Placement → κ × Memory n → Prop
  | invalid (bad : id = 0 ∨ largestId < id) : Settles others id label initial s [] (.error (.invalidId id)) s
  | full {pauses : List (Pause κ n)} {u : κ × Memory n} (valid : id ≠ 0 ∧ id ≤ largestId)
    (acted : Pauses others s pauses u)
    (passed : ∀ j, j < b.partition.slots → b.Passed (Reaches others) s u j) :
    Settles others id label initial s pauses (.error (.capacityExceeded b.partition.slots)) u
  | placed {pauses : List (Pause κ n)} {t : κ × Memory n} {m : Memory n} {slot retries : Nat}
    (valid : id ≠ 0 ∧ id ≤ largestId) (acted : Pauses others s pauses t) (lt : slot < b.partition.slots)
    (left : b.LeftFree pauses slot t)
    (filled : b.Filled t.2 m slot id (Text.utf8 (keptLabel label)) initial) :
    Settles others id label initial s pauses
      (.ok ⟨slot, 128 * slot, (Text.utf8 (keptLabel label)).length, retries⟩) (t.1, m)

theorem valueOffset_eq (slot : Nat) : valueOffset slot = 128 * slot := by
  simp only [valueOffset, valueAt]
  omega

variable {b}

/-- An allocation never fails. It writes to a slot that the others left free at the last pause, and
nowhere else, or it is refused and writes nothing. -/
theorem allocation_under_interference (aligned : b.Aligned) (others : Interference κ n) (id : UInt64)
    (label : String) (initial : Int64) (limit : RetryLimit) (s : κ × Memory n) :
    ∃ result pauses u, b.allocateAmong others id label initial limit s = .ok result u ∧
      b.allocateAmong others.recorded id label initial limit (recording [] s) =
        .ok result (recording pauses.reverse u) ∧
      b.Settles others id label initial s pauses result u := by
  unfold allocateAmong
  by_cases bad : id = 0 ∨ largestId < id
  · simp only [if_pos bad]
    exact ⟨_, [], s, rfl, rfl, .invalid bad⟩
  · simp only [if_neg bad]
    have valid : id ≠ 0 ∧ id ≤ largestId := ⟨fun h => bad (.inl h), UInt64.not_lt.1 fun h => bad (.inr h)⟩
    have room := length_keptLabel_le label
    obtain ⟨result, pauses, u, takes, run, run'⟩ := allocateFrom_recorded others aligned id initial limit
      room b.partition.slots 0 0 (Nat.zero_add _) [] s
    rw [List.append_nil] at run'
    refine ⟨result, pauses, u, run, run', ?_⟩
    cases takes with
    | full acted passed => exact .full valid acted fun j below => passed j (Nat.zero_le j) below
    | taken acted lt left _ =>
      rw [valueOffset_eq]
      exact .placed valid acted lt left (filled_taken lt _ id room initial)

/-- Somebody who keeps leaving a freed counter behind. -/
def meddling (slot : Nat) (s : Unit × Memory 896) : Unit × Memory 896 :=
  (s.1, oneSlot.withWord s.2 slot (SlotWord.pack 9 .freed))

def result? {ε σ α : Type} : EStateM.Result ε σ α → Option α
  | .ok a _ => some a
  | .error _ _ => none

theorem allocateAmong_meddling :
    result? (oneSlot.allocateAmong meddling 1 "a" 5 RetryLimit.standard ((), Memory.zero 896)) =
      some (.ok ⟨0, 0, 1, 1⟩) := by
  decide +kernel

theorem allocation_while_meddling : oneSlot.Aligned ∧ ∃ pauses t m,
    oneSlot.allocateAmong meddling 1 "a" 5 RetryLimit.standard ((), Memory.zero 896) =
      .ok (.ok ⟨0, 0, 1, 1⟩) (t.1, m) ∧
    Pauses meddling ((), Memory.zero 896) pauses t ∧ oneSlot.LeftFree pauses 0 t ∧
    oneSlot.Filled t.2 m 0 1 (Text.utf8 (keptLabel "a")) 5 := by
  have aligned : oneSlot.Aligned := rfl
  obtain ⟨result, pauses, u, run, -, settles⟩ := allocation_under_interference aligned meddling 1 "a" 5
    RetryLimit.standard ((), Memory.zero 896)
  have placed := allocateAmong_meddling
  rw [run] at placed
  cases placed
  rcases settles with _ | _ | ⟨-, acted, -, left, filled⟩
  exact ⟨aligned, pauses, _, _, run, acted, left, filled⟩

end SharedCounters.Blocks
