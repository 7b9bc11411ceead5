import Mathlib.Algebra.Group.Nat.Defs
import SharedCounters.Proofs.Partitions
import SharedCounters.Settings

/-! How long a mapping is. Rounding on 64-bit words is rounding of numbers as long as nothing wraps, and no
region is so long that it does; so a mapping has room for its region. -/

namespace SharedCounters

/-- Clearing the low bits gives the multiple below. -/
theorem and_not_low {n k : Nat} (small : n < 2 ^ 64) (inside : k < 64) :
    n &&& (2 ^ 64 - 1 - (2 ^ k - 1)) = n / 2 ^ k * 2 ^ k := by
  have pos := Nat.two_pow_pos k
  have le : 2 ^ k < 2 ^ 64 := Nat.pow_lt_pow_right (by decide) inside
  apply Nat.eq_of_testBit_eq
  intro i
  have mask : (2 ^ 64 - (2 ^ k - 1 + 1)).testBit i = (decide (i < 64) && !decide (i < k)) := by
    rw [Nat.testBit_two_pow_sub_succ (by omega), Nat.testBit_two_pow_sub_one]
  rw [Nat.testBit_and, show 2 ^ 64 - 1 - (2 ^ k - 1) = 2 ^ 64 - (2 ^ k - 1 + 1) by omega, mask,
    Nat.testBit_mul_two_pow, Nat.testBit_div_two_pow]
  by_cases low : i < k
  · simp [low, Nat.not_le.2 low]
  · have high : k ≤ i := Nat.not_lt.1 low
    rw [Nat.sub_add_cancel high]
    by_cases beyond : 64 ≤ i
    · have none : n.testBit i = false :=
        Nat.testBit_lt_two_pow (Nat.lt_of_lt_of_le small (Nat.pow_le_pow_right (by decide) beyond))
      simp [none]
    · simp [low, high, Nat.not_le.1 beyond]

variable {value alignment : UInt64}

theorem toNat_pred (pos : 0 < alignment.toNat) : (alignment - 1).toNat = alignment.toNat - 1 :=
  UInt64.toNat_sub_of_le _ _ (UInt64.le_iff_toNat_le.2 pos)

theorem exists_of_isPowerOfTwo (h : isPowerOfTwo alignment = true) :
    ∃ k, k < 64 ∧ alignment.toNat = 2 ^ k := by
  obtain ⟨nonzero, clear⟩ := Bool.and_eq_true_iff.1 h
  have ne : alignment.toNat ≠ 0 := fun e => bne_iff_ne.1 nonzero (UInt64.toNat_inj.1 e)
  have bits := congrArg UInt64.toNat (beq_iff_eq.1 clear)
  rw [UInt64.toNat_and, toNat_pred (Nat.pos_of_ne_zero ne)] at bits
  obtain ⟨k, e⟩ := (Nat.and_sub_one_eq_zero_iff_isPowerOfTwo ne).1 bits
  exact ⟨k, (Nat.pow_lt_pow_iff_right (by decide)).1 (e ▸ alignment.toNat_lt), e⟩

theorem isPowerOfTwo_of_eq {k : Nat} (e : alignment.toNat = 2 ^ k) : isPowerOfTwo alignment = true := by
  have pos : 0 < alignment.toNat := e ▸ Nat.two_pow_pos k
  have ne : alignment.toNat ≠ 0 := Nat.ne_of_gt pos
  have clear : alignment &&& (alignment - 1) = 0 := by
    apply UInt64.toNat_inj.1
    rw [UInt64.toNat_and, toNat_pred pos]
    exact (Nat.and_sub_one_eq_zero_iff_isPowerOfTwo ne).2 ⟨k, e⟩
  exact Bool.and_eq_true_iff.2 ⟨bne_iff_ne.2 fun zero => ne (congrArg UInt64.toNat zero), beq_iff_eq.2 clear⟩

theorem isPowerOfTwo_iff : isPowerOfTwo alignment = true ↔ ∃ k < 64, alignment.toNat = 2 ^ k :=
  ⟨exists_of_isPowerOfTwo, fun ⟨_, _, e⟩ => isPowerOfTwo_of_eq e⟩

theorem toNat_alignWord {k : Nat} (inside : k < 64) (e : alignment.toNat = 2 ^ k)
    (small : value.toNat + (alignment.toNat - 1) < 2 ^ 64) :
    (alignWord value alignment).toNat = roundUp value.toNat alignment.toNat := by
  have low : (alignment - 1).toNat = alignment.toNat - 1 := toNat_pred (e ▸ Nat.two_pow_pos k)
  rw [e] at small low
  have sum : (value + (alignment - 1)).toNat = value.toNat + (2 ^ k - 1) := by
    rw [UInt64.toNat_add, low, Nat.mod_eq_of_lt small]
  rw [alignWord, UInt64.toNat_and, UInt64.toNat_not, low, sum, e]
  exact and_not_low small inside

theorem Settings.check_eq_ok_iff {settings : Settings} :
    settings.check = .ok () ↔ ∃ k < 64, settings.pageSize.toNat = 2 ^ k := by
  rw [← isPowerOfTwo_iff, check]
  split
  · next power => exact iff_of_true rfl power
  · next other => exact iff_of_false nofun other

namespace Partition

variable (p : Partition)

theorem extent_lt : p.extent < 2 ^ 33 := by
  have statics : p.staticsLen < 4294967296 := p.lt
  have slots : p.slots ≤ 10000 := p.le
  simp only [extent, valuesStart, metadataStart, staticsStart, metadataLen_eq, valuesLen_eq, headerAt]
  omega

variable {settings : Settings} (checked : settings.check = .ok ())

include checked

/-- Even with the longest page there can be, nothing wraps. -/
theorem extent_add_lt : p.extent + (settings.pageSize.toNat - 1) < 2 ^ 64 := by
  have short := p.extent_lt
  obtain ⟨k, inside, e⟩ := Settings.check_eq_ok_iff.1 checked
  have half : 2 ^ k ≤ 2 ^ 63 := Nat.pow_le_pow_right (by decide) (Nat.le_of_lt_succ inside)
  omega

theorem toNat_mappedLen : (p.mappedLen settings.pageSize).toNat = roundUp p.extent settings.pageSize.toNat := by
  obtain ⟨k, inside, e⟩ := Settings.check_eq_ok_iff.1 checked
  have small := p.extent_add_lt checked
  have exact : (UInt64.ofNat p.extent).toNat = p.extent :=
    UInt64.toNat_ofNat_of_lt' (Nat.lt_of_le_of_lt (Nat.le_add_right ..) small)
  rw [mappedLen, toNat_alignWord inside e (exact.symm ▸ small), exact]

theorem extent_le_mappedLen : p.extent ≤ (p.mappedLen settings.pageSize).toNat := by
  obtain ⟨k, -, e⟩ := Settings.check_eq_ok_iff.1 checked
  rw [p.toNat_mappedLen checked]
  exact le_roundUp _ (e ▸ Nat.two_pow_pos k)

end Partition

end SharedCounters
