import Mathlib.Data.Nat.Find
import SharedCounters.Proofs.Steps
import SharedCounters.Proofs.SlotWords
import SharedCounters.Proofs.Decoding

/-! Allocating when nobody else acts: the first free slot is taken at the first attempt, and an allocation is
refused if there is none. -/

namespace SharedCounters.Blocks

variable {n : Nat} {b : Blocks n} (aligned : b.Aligned) {m : Memory n}

include aligned

section Allocating

theorem claimSlot_alone {slot : Nat} (h : slot < b.partition.slots) (claim : SlotWord)
    (budget failures : Nat) :
    b.claimSlot alone slot claim (budget + 1) (b.slotWord m slot) failures ((), m) =
      if SlotWord.isFree (b.slotWord m slot) then .ok (true, failures) ((), b.withWord m slot claim)
      else .ok (false, failures) ((), m) := by
  rw [claimSlot_succ aligned alone h, alone, if_pos rfl]

variable (id : UInt64) {label : List UInt8} (room : label.length ≤ metadataAt.labelCapacity)
  (initial : Int64) (limit : RetryLimit)

include room

theorem allocateFrom_alone_of_isFree {k : Nat} (hk : k < b.partition.slots)
    (free : SlotWord.isFree (b.slotWord m k) = true) (failures rest slot : Nat)
    (all : slot + rest = b.partition.slots) (from_le : slot ≤ k)
    (before : ∀ j, slot ≤ j → j < k → SlotWord.isFree (b.slotWord m j) = false) :
    b.allocateFrom alone id label initial limit rest slot failures ((), m) =
      .ok (.ok ⟨k, valueOffset k, label.length, failures⟩) ((), b.taken m k id label initial) := by
  induction rest generalizing slot with
  | zero => omega
  | succ rest ih =>
    rw [allocateFrom_succ aligned alone (by omega) id room, claimSlot_alone aligned (by omega)]
    by_cases hs : slot = k
    · subst hs
      rw [if_pos free]
      rfl
    · rw [before slot (Nat.le_refl _) (by omega)]
      exact ih (slot + 1) (by omega) (by omega) fun j hj => before j (by omega)

theorem allocateFrom_alone_of_full (failures rest slot : Nat) (all : slot + rest = b.partition.slots)
    (full : ∀ j, slot ≤ j → j < b.partition.slots → SlotWord.isFree (b.slotWord m j) = false) :
    b.allocateFrom alone id label initial limit rest slot failures ((), m) =
      .ok (.error (.capacityExceeded b.partition.slots)) ((), m) := by
  induction rest generalizing slot with
  | zero => rfl
  | succ rest ih =>
    rw [allocateFrom_succ aligned alone (by omega) id room, claimSlot_alone aligned (by omega),
      full slot (Nat.le_refl _) (by omega)]
    exact ih (slot + 1) (by omega) fun j hj => full j (by omega)

end Allocating

section Claims

variable {id : UInt64} (valid : ¬ (id = 0 ∨ largestId < id)) (label : String) (initial : Int64)

include valid

theorem allocate_of_isFree {k : Nat} (hk : k < b.partition.slots)
    (free : SlotWord.isFree (b.slotWord m k) = true)
    (before : ∀ j, j < k → SlotWord.isFree (b.slotWord m j) = false) :
    b.allocate id label initial m =
      .ok (.ok ⟨k, valueOffset k, (Text.utf8 (keptLabel label)).length, 0⟩)
        (b.taken m k id (Text.utf8 (keptLabel label)) initial) := by
  have run := allocateFrom_alone_of_isFree aligned id (length_keptLabel_le label) initial
    RetryLimit.standard hk free 0 b.partition.slots 0 (Nat.zero_add _) (Nat.zero_le _) fun j _ => before j
  simp only [allocate, Contended.quietWrite, allocateAmong, if_neg valid, run]

theorem allocate_of_full
    (full : ∀ j, j < b.partition.slots → SlotWord.isFree (b.slotWord m j) = false) :
    b.allocate id label initial m = .ok (.error (.capacityExceeded b.partition.slots)) m := by
  have run := allocateFrom_alone_of_full aligned id (length_keptLabel_le label) initial
    RetryLimit.standard 0 b.partition.slots 0 (Nat.zero_add _) fun j _ => full j
  simp only [allocate, Contended.quietWrite, allocateAmong, if_neg valid, run]

end Claims

/-- An allocation takes the first free slot, unless it is refused: there is none, or no word has room for
the id. -/
theorem allocate_cases (id : UInt64) (label : String) (initial : Int64) :
    (∃ refusal, ¬ ((id ≠ 0 ∧ id ≤ largestId) ∧
        ∃ k, k < b.partition.slots ∧ SlotWord.isFree (b.slotWord m k) = true) ∧
      b.allocate id label initial m = .ok (.error refusal) m) ∨
    (id ≠ 0 ∧ id ≤ largestId) ∧ ∃ k, k < b.partition.slots ∧ SlotWord.isFree (b.slotWord m k) = true ∧
      (∀ j, j < k → SlotWord.isFree (b.slotWord m j) = false) ∧
      b.allocate id label initial m = .ok (.ok ⟨k, valueOffset k, (Text.utf8 (keptLabel label)).length, 0⟩)
        (b.taken m k id (Text.utf8 (keptLabel label)) initial) := by
  by_cases valid : id ≠ 0 ∧ id ≤ largestId
  · have fits : ¬ (id = 0 ∨ largestId < id) := not_or.2 ⟨valid.1, UInt64.not_lt.2 valid.2⟩
    by_cases free : ∃ k, k < b.partition.slots ∧ SlotWord.isFree (b.slotWord m k) = true
    · obtain ⟨lt, isFree⟩ := Nat.find_spec free
      have before : ∀ j, j < Nat.find free → SlotWord.isFree (b.slotWord m j) = false := fun j hj =>
        Bool.eq_false_iff.2 fun h => Nat.find_min free hj ⟨Nat.lt_trans hj lt, h⟩
      have run := allocate_of_isFree aligned fits label initial lt isFree before
      exact .inr ⟨valid, _, lt, isFree, before, run⟩
    · have full : ∀ j, j < b.partition.slots → SlotWord.isFree (b.slotWord m j) = false := fun j hj =>
        Bool.eq_false_iff.2 fun h => free ⟨j, hj, h⟩
      exact .inl ⟨_, fun h => free h.2, allocate_of_full aligned fits label initial full⟩
  · have bad : id = 0 ∨ largestId < id := by
      by_contra h
      exact valid ⟨(not_or.1 h).1, UInt64.not_lt.1 (not_or.1 h).2⟩
    refine .inl ⟨.invalidId id, fun h => valid h.1, ?_⟩
    simp only [allocate, Contended.quietWrite, allocateAmong, if_pos bad]
    rfl

end SharedCounters.Blocks
