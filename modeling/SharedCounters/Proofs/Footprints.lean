import SharedCounters.Proofs.Frames
import SharedCounters.Proofs.Slots

/-! The bytes that a counter takes up: the word of its slot, the length of its label and the label, and
its value. Filling in a slot writes these bytes and no other. -/

namespace SharedCounters.Blocks

variable {n : Nat} (b : Blocks n)

def Lies (i first len : Nat) : Prop := first ≤ i ∧ i < first + len

/-- The bytes of a slot that a counter with a label of this many bytes takes up. -/
def TakenUp (slot len i : Nat) : Prop :=
  Lies i (b.metadata.base + wordOffset slot) 8 ∨ Lies i (b.metadata.base + labelLenOffset slot) 4 ∨
    Lies i (b.metadata.base + labelOffset slot) len ∨ Lies i (b.values.base + valueOffset slot) 8

/-- The second memory is the first with a counter in a slot. -/
structure Filled (m m' : Memory n) (slot : Nat) (id : UInt64) (text : List UInt8) (initial : Int64) : Prop where
  word : b.slotWord m' slot = SlotWord.pack id .allocated
  labelLen : Window.wordAt m' (b.metadata.base + labelLenOffset slot) = UInt32.ofNat text.length
  label : m'.read (b.metadata.base + labelOffset slot) text.length = text
  value : Window.wordAt m' (b.values.base + valueOffset slot) = initial
  rest : ∀ i, ¬ b.TakenUp slot text.length i → m'.byte i = m.byte i

section Filling

variable {b} {slot : Nat} (h : slot < b.partition.slots) (m : Memory n)

include h

theorem withWord_within (word : SlotWord) : m.DiffersWithin (b.withWord m slot word)
    (b.metadata.base + wordOffset slot) (b.metadata.base + wordOffset slot + 8) := by
  have := b.values_base
  have := b.values_end
  have len : (Word.bytes word).length = 8 := Word.length_bytes word
  exact m.differsWithin_write (by simp only [wordOffset, metadataAt]; omega) (Nat.le_refl _)
    (by omega)

theorem withValue_within (value : Int64) : m.DiffersWithin (b.withValue m slot value)
    (b.values.base + valueOffset slot) (b.values.base + valueOffset slot + 8) := by
  have := b.values_end
  have len : (Word.bytes value).length = 8 := Word.length_bytes value
  exact m.differsWithin_write (by simp only [valueOffset, valueAt]; omega) (Nat.le_refl _) (by omega)

theorem TakenUp.bounds {len i : Nat} (room : len ≤ metadataAt.labelCapacity) (taken : b.TakenUp slot len i) :
    b.metadata.base ≤ i ∧ i < n := by
  have := b.values_base
  have := b.values_end
  simp only [TakenUp, Lies, wordOffset, labelLenOffset, labelOffset, valueOffset, metadataAt, valueAt]
    at taken room
  omega

variable (id : UInt64) {label : List UInt8} (room : label.length ≤ metadataAt.labelCapacity) (initial : Int64)

include room

theorem filled_taken : b.Filled m (b.taken m slot id label initial) slot id label initial := by
  have := b.values_base
  have := b.values_end
  have small : label.length ≤ 380 := room
  have lenBytes : (Word.bytes (UInt32.ofNat label.length)).length = 4 := Word.length_bytes _
  set claimed := b.withWord m slot (SlotWord.pack id .allocating)
  set sized := claimed.write (b.metadata.base + labelLenOffset slot)
    (Word.bytes (UInt32.ofNat label.length))
  set labelled := sized.write (b.metadata.base + labelOffset slot) label
  set valued := b.withValue labelled slot initial
  have e : b.taken m slot id label initial = b.withWord valued slot (SlotWord.pack id .allocated) := rfl
  have fitsLen : b.metadata.base + labelLenOffset slot + 4 ≤ n := by
    simp only [labelLenOffset, metadataAt]
    omega
  have fitsLabel : b.metadata.base + labelOffset slot + label.length ≤ n := by
    simp only [labelOffset, metadataAt]
    omega
  have fitsValue : b.values.base + valueOffset slot + 8 ≤ n := by
    simp only [valueOffset, valueAt]
    omega
  have step1 := withWord_within h m (SlotWord.pack id .allocating)
  have step2 : claimed.DiffersWithin sized (b.metadata.base + labelLenOffset slot)
      (b.metadata.base + labelLenOffset slot + 4) :=
    claimed.differsWithin_write (by omega) (Nat.le_refl _) (by omega)
  have step3 : sized.DiffersWithin labelled (b.metadata.base + labelOffset slot)
      (b.metadata.base + labelOffset slot + label.length) :=
    sized.differsWithin_write fitsLabel (Nat.le_refl _) (Nat.le_refl _)
  have step4 := withValue_within h labelled initial
  have step5 := withWord_within h valued (SlotWord.pack id .allocated)
  constructor
  case word => exact (slotWord_taken h m id room initial h).trans (if_pos rfl)
  case value =>
    rw [e, step5.wordAt_eq (by simp only [wordOffset, valueOffset, metadataAt, valueAt, Word.size]; omega)]
    exact Window.wordAt_write_same labelled _ fitsValue
  case labelLen =>
    rw [e, step5.wordAt_eq (by simp only [wordOffset, labelLenOffset, metadataAt, Word.size]; omega),
      step4.wordAt_eq (by simp only [valueOffset, labelLenOffset, metadataAt, valueAt, Word.size]; omega),
      step3.wordAt_eq (by simp only [labelOffset, labelLenOffset, metadataAt, Word.size]; omega)]
    exact Window.wordAt_write_same claimed _ fitsLen
  case label =>
    rw [e, step5.read_eq (by simp only [wordOffset, labelOffset, metadataAt]; omega),
      step4.read_eq (by simp only [valueOffset, labelOffset, metadataAt, valueAt]; omega)]
    exact sized.read_write_same fitsLabel
  case rest =>
    intro i outside
    simp only [TakenUp, Lies, not_or, not_and_or, Nat.not_le, Nat.not_lt] at outside
    obtain ⟨word, labelLen, label, value⟩ := outside
    calc (b.taken m slot id _ initial).byte i
      _ = valued.byte i := step5.byte_eq i word
      _ = labelled.byte i := step4.byte_eq i value
      _ = sized.byte i := step3.byte_eq i label
      _ = claimed.byte i := step2.byte_eq i labelLen
      _ = m.byte i := step1.byte_eq i word

end Filling

end SharedCounters.Blocks
