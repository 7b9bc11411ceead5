import Mathlib.Algebra.Group.Nat.Defs
import SharedCounters.Format.SlotWord

/-! An id that fits a word and a status are both read back from the word that packs them. -/

namespace SharedCounters.SlotWord

theorem toNat_pack (id : UInt64) (status : Status) :
    (pack id status).toNat = id.toNat * 256 % 2 ^ 64 + status.toByte.toNat := by
  have small : status.toByte.toNat < 2 ^ 8 := status.toByte.toNat_lt
  have shifted : (id <<< 8).toNat = id.toNat * 256 % 2 ^ 64 := by
    rw [UInt64.toNat_shiftLeft, show (8 : UInt64).toNat % 64 = 8 from rfl, Nat.shiftLeft_eq]
  have split : id.toNat * 256 % 2 ^ 64 = (id.toNat * 256 % 2 ^ 64 / 2 ^ 8) <<< 8 := by
    rw [Nat.shiftLeft_eq]
    omega
  rw [pack, UInt64.toNat_or, shifted, UInt8.toNat_toUInt64, split,
    ← Nat.shiftLeft_add_eq_or_of_lt small]

theorem status?_pack (id : UInt64) (status : Status) : status? (pack id status) = some status := by
  rw [status?_eq_some_iff]
  apply UInt8.toNat_inj.1
  have := status.toByte.toNat_lt
  rw [UInt64.toNat_toUInt8, toNat_pack]
  omega

theorem id_pack {id : UInt64} (valid : id ≤ largestId) (status : Status) :
    SlotWord.id (pack id status) = id := by
  apply UInt64.toNat_inj.1
  have := status.toByte.toNat_lt
  have : id.toNat ≤ 0xFFFFFFFFFFFFFF := UInt64.le_iff_toNat_le.1 valid
  rw [SlotWord.id, UInt64.toNat_shiftRight, toNat_pack, show (8 : UInt64).toNat % 64 = 8 from rfl,
    Nat.shiftRight_eq_div_pow]
  omega

theorem id_le (word : SlotWord) : SlotWord.id word ≤ largestId := by
  have := word.toNat_lt
  rw [UInt64.le_iff_toNat_le, SlotWord.id, UInt64.toNat_shiftRight,
    show (8 : UInt64).toNat % 64 = 8 from rfl, Nat.shiftRight_eq_div_pow,
    show largestId.toNat = 0xFFFFFFFFFFFFFF from rfl]
  omega

theorem isFree_iff {word : SlotWord} :
    isFree word = true ↔ status? word = some .notUsed ∨ status? word = some .freed := by
  simp [isFree]

end SharedCounters.SlotWord
