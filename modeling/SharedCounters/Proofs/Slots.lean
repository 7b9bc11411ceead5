import Mathlib.Logic.Basic
import Mathlib.Tactic.Set
import Mathlib.Tactic.SplitIfs
import SharedCounters.Proofs.Windows
import SharedCounters.Reading.Scan
import SharedCounters.Writing.Allocation

/-! What a slot holds: its word, and the bytes of its label with its value. In an aligned region these
can always be read, and a write to one slot leaves every other slot as it was. -/

namespace SharedCounters.Blocks

variable {n : Nat} (b : Blocks n)

/-- Words of the region lie at multiples of their size. -/
def Aligned : Prop := b.region.base % 8 = 0

def slotWord (m : Memory n) (slot : Nat) : SlotWord :=
  Window.wordAt m (b.metadata.base + wordOffset slot)

def slotHeld (m : Memory n) (slot : Nat) : Held where
  label := m.read (b.metadata.base + labelOffset slot)
    (min (Window.wordAt m (b.metadata.base + labelLenOffset slot) : UInt32).toNat
      metadataAt.labelCapacity)
  value := Window.wordAt m (b.values.base + valueOffset slot)

/-- What a reader makes of a slot at one moment. -/
def slotReading (m : Memory n) (slot : Nat) : Reading where
  id := SlotWord.id (b.slotWord m slot)
  label := Text.lossy (b.slotHeld m slot).label
  value := (b.slotHeld m slot).value

def withWord (m : Memory n) (slot : Nat) (word : SlotWord) : Memory n :=
  m.write (b.metadata.base + wordOffset slot) (Word.bytes word)

def withLabel (m : Memory n) (slot : Nat) (label : List UInt8) : Memory n :=
  (m.write (b.metadata.base + labelLenOffset slot)
    (Word.bytes (UInt32.ofNat label.length))).write (b.metadata.base + labelOffset slot) label

def withValue (m : Memory n) (slot : Nat) (value : Int64) : Memory n :=
  m.write (b.values.base + valueOffset slot) (Word.bytes value)

theorem values_base : b.values.base = b.metadata.base + b.partition.slots * 512 :=
  (Nat.add_assoc ..).symm

theorem values_end : b.values.base + b.partition.slots * 128 ≤ n := by
  have h := b.values_le
  have := b.region.fits
  have e : b.values.base = b.region.base + b.partition.valuesStart := rfl
  have e' : b.partition.valuesLen = b.partition.slots * 128 := rfl
  omega

theorem metadata_aligned (aligned : b.Aligned) : b.metadata.base % 8 = 0 := by
  obtain ⟨k, hk⟩ := b.partition.staticsLen_dvd
  have e : b.metadata.base = b.region.base + (128 + b.partition.staticsLen) := rfl
  unfold Aligned at aligned
  omega

section Access

variable {b} (aligned : b.Aligned) {slot : Nat} (h : slot < b.partition.slots) (m : Memory n)

include aligned h

theorem word_eq : b.word slot m = .ok (b.slotWord m slot) := by
  have := b.metadata_aligned aligned
  have e : b.metadata.len = b.partition.slots * 512 := rfl
  exact b.metadata.load_eq (by rw [e]; simp only [wordOffset, metadataAt, Word.size]; omega)
    (by simp only [wordOffset, metadataAt, Word.size]; omega) rfl m

theorem held_eq : b.held slot m = .ok (b.slotHeld m slot) := by
  have := b.metadata_aligned aligned
  have e : b.metadata.len = b.partition.slots * 512 := rfl
  have e' : b.values.len = b.partition.slots * 128 := rfl
  have hb := b.values_base
  have len : b.metadata.load (labelLenOffset slot) .relaxed m =
      .ok (Window.wordAt m (b.metadata.base + labelLenOffset slot) : UInt32) := b.metadata.load_eq
    (by rw [e]; simp only [labelLenOffset, metadataAt, Word.size]; omega)
    (by simp only [labelLenOffset, metadataAt, Word.size]; omega) rfl m
  have label : b.metadata.loadBytes (labelOffset slot) (min (Window.wordAt m
      (b.metadata.base + labelLenOffset slot) : UInt32).toNat metadataAt.labelCapacity) m =
      .ok (b.slotHeld m slot).label := b.metadata.loadBytes_eq
    (by rw [e]; simp only [labelOffset, metadataAt]; omega) m
  have value : b.values.load (valueOffset slot) .relaxed m =
      .ok (b.slotHeld m slot).value := b.values.load_eq
    (by rw [e']; simp only [valueOffset, valueAt, Word.size]; omega)
    (by simp only [valueOffset, valueAt, Word.size]; omega) rfl m
  simp only [held, bind, ReaderT.bind, Except.bind, len, label, value]
  rfl

theorem swapWord_eq (seen claim : SlotWord) :
    b.metadata.compareExchange (wordOffset slot) seen claim m =
      if b.slotWord m slot = seen then .ok (.swapped (b.slotWord m slot)) (b.withWord m slot claim)
      else .ok (.found (b.slotWord m slot)) m := by
  have := b.metadata_aligned aligned
  have e : b.metadata.len = b.partition.slots * 512 := rfl
  exact b.metadata.compareExchange_eq (by rw [e]; simp only [wordOffset, metadataAt, Word.size]; omega)
    (by simp only [wordOffset, metadataAt, Word.size]; omega) seen claim m

theorem storeWord_eq (word : SlotWord) {order : Order} (admitted : order.storeClash = none) :
    b.metadata.store (wordOffset slot) word order m = .ok () (b.withWord m slot word) := by
  have := b.metadata_aligned aligned
  have e : b.metadata.len = b.partition.slots * 512 := rfl
  exact b.metadata.store_eq (by rw [e]; simp only [wordOffset, metadataAt, Word.size]; omega)
    (by simp only [wordOffset, metadataAt, Word.size]; omega) admitted word m

theorem storeValue_eq (value : Int64) {order : Order} (admitted : order.storeClash = none) :
    b.values.store (valueOffset slot) value order m = .ok () (b.withValue m slot value) := by
  have := b.metadata_aligned aligned
  have hb := b.values_base
  have e : b.values.len = b.partition.slots * 128 := rfl
  exact b.values.store_eq (by rw [e]; simp only [valueOffset, valueAt, Word.size]; omega)
    (by simp only [valueOffset, valueAt, Word.size]; omega) admitted value m

end Access

section Apart

variable (m : Memory n) {address : Nat} {l : List UInt8} (fits : address + l.length ≤ n) {j : Nat}

include fits

theorem slotWord_write_apart
    (apart : b.metadata.base + wordOffset j + 8 ≤ address
      ∨ address + l.length ≤ b.metadata.base + wordOffset j) :
    b.slotWord (m.write address l) j = b.slotWord m j :=
  Window.wordAt_write_apart m fits apart

theorem label_write_apart
    (apart : b.metadata.base + labelOffset j + metadataAt.labelCapacity ≤ address
      ∨ address + l.length ≤ b.metadata.base + labelLenOffset j) :
    (b.slotHeld (m.write address l) j).label = (b.slotHeld m j).label := by
  have order : b.metadata.base + labelLenOffset j + 4 = b.metadata.base + labelOffset j := rfl
  have len : (Window.wordAt (m.write address l) (b.metadata.base + labelLenOffset j) : UInt32) =
      Window.wordAt m (b.metadata.base + labelLenOffset j) :=
    Window.wordAt_write_apart m fits (by simp only [Word.size]; omega)
  simp only [slotHeld, len]
  exact m.read_write_apart fits (by omega)

theorem value_write_apart
    (apart : b.values.base + valueOffset j + 8 ≤ address
      ∨ address + l.length ≤ b.values.base + valueOffset j) :
    (b.slotHeld (m.write address l) j).value = (b.slotHeld m j).value :=
  Window.wordAt_write_apart m fits apart

end Apart

section Effects

variable {slot : Nat} (h : slot < b.partition.slots) {j : Nat} (hj : j < b.partition.slots) (m : Memory n)

include h hj

theorem slotWord_withWord (word : SlotWord) :
    b.slotWord (b.withWord m slot word) j = if j = slot then word else b.slotWord m j := by
  have := b.values_base
  have := b.values_end
  have fits : b.metadata.base + wordOffset slot + 8 ≤ n := by
    simp only [wordOffset, metadataAt]
    omega
  split_ifs with hjs
  · subst hjs
    exact Window.wordAt_write_same m word fits
  · exact b.slotWord_write_apart m (by rwa [Word.length_bytes])
      (by rw [Word.length_bytes]; simp only [wordOffset, metadataAt, Word.size]; omega)

theorem slotHeld_withWord (word : SlotWord) :
    b.slotHeld (b.withWord m slot word) j = b.slotHeld m j := by
  have := b.values_base
  have := b.values_end
  have len : (Word.bytes word).length = 8 := Word.length_bytes word
  have fits : b.metadata.base + wordOffset slot + (Word.bytes word).length ≤ n := by
    simp only [wordOffset, metadataAt]
    omega
  have label := b.label_write_apart m fits (j := j)
    (by simp only [wordOffset, labelLenOffset, labelOffset, metadataAt]; omega)
  have value := b.value_write_apart m fits (j := j)
    (by simp only [wordOffset, valueOffset, metadataAt, valueAt]; omega)
  exact congrArg₂ Held.mk label value

theorem slotWord_withValue (value : Int64) :
    b.slotWord (b.withValue m slot value) j = b.slotWord m j := by
  have := b.values_base
  have := b.values_end
  have len : (Word.bytes value).length = 8 := Word.length_bytes value
  exact b.slotWord_write_apart m
    (by simp only [valueOffset, valueAt]; omega)
    (by simp only [wordOffset, valueOffset, metadataAt, valueAt]; omega)

theorem slotHeld_withValue (value : Int64) :
    b.slotHeld (b.withValue m slot value) j =
      if j = slot then { b.slotHeld m j with value := value } else b.slotHeld m j := by
  have := b.values_base
  have := b.values_end
  have len : (Word.bytes value).length = 8 := Word.length_bytes value
  have fits : b.values.base + valueOffset slot + (Word.bytes value).length ≤ n := by
    simp only [valueOffset, valueAt]
    omega
  have label := b.label_write_apart m fits (j := j)
    (by simp only [valueOffset, labelLenOffset, labelOffset, metadataAt, valueAt]; omega)
  split_ifs with hjs
  · subst hjs
    exact congrArg₂ Held.mk label (Window.wordAt_write_same m value (by rwa [len] at fits))
  · exact congrArg₂ Held.mk label
      (b.value_write_apart m fits (by simp only [valueOffset, valueAt]; omega))

variable {label : List UInt8} (room : label.length ≤ metadataAt.labelCapacity)

include room

theorem slotWord_withLabel : b.slotWord (b.withLabel m slot label) j = b.slotWord m j := by
  have := b.values_base
  have := b.values_end
  have len : (Word.bytes (UInt32.ofNat label.length)).length = 4 := Word.length_bytes _
  simp only [metadataAt] at room
  unfold withLabel
  rw [b.slotWord_write_apart _
      (by simp only [labelOffset, metadataAt]; omega)
      (by simp only [wordOffset, labelOffset, metadataAt]; omega),
    b.slotWord_write_apart _
      (by simp only [labelLenOffset, metadataAt]; omega)
      (by simp only [wordOffset, labelLenOffset, metadataAt]; omega)]

theorem slotHeld_withLabel :
    b.slotHeld (b.withLabel m slot label) j =
      if j = slot then { b.slotHeld m j with label := label } else b.slotHeld m j := by
  have := b.values_base
  have := b.values_end
  have len : (Word.bytes (UInt32.ofNat label.length)).length = 4 := Word.length_bytes _
  simp only [metadataAt] at room
  have fitsLen : b.metadata.base + labelLenOffset slot
      + (Word.bytes (UInt32.ofNat label.length)).length ≤ n := by
    simp only [labelLenOffset, metadataAt]
    omega
  set between := m.write (b.metadata.base + labelLenOffset slot) (Word.bytes (UInt32.ofNat label.length))
    with hbetween
  have fits : b.metadata.base + labelOffset slot + label.length ≤ n := by
    simp only [labelOffset, metadataAt]
    omega
  have value : (b.slotHeld (b.withLabel m slot label) j).value = (b.slotHeld m j).value := by
    unfold withLabel
    rw [b.value_write_apart _ fits (by simp only [valueOffset, labelOffset, metadataAt, valueAt]; omega),
      b.value_write_apart m fitsLen
        (by simp only [valueOffset, labelLenOffset, metadataAt, valueAt]; omega)]
  split_ifs with hjs
  · subst hjs
    refine congrArg₂ Held.mk ?_ value
    have stored : (Window.wordAt (b.withLabel m j label) (b.metadata.base + labelLenOffset j) : UInt32) =
        UInt32.ofNat label.length :=
      (Window.wordAt_write_apart between fits (Or.inl (Nat.le_refl _))).trans
        (Window.wordAt_write_same m (UInt32.ofNat label.length) (by rw [len] at fitsLen; exact fitsLen))
    have small : (UInt32.ofNat label.length).toNat = label.length :=
      UInt32.toNat_ofNat_of_lt' (show label.length < 4294967296 by omega)
    rw [stored, small, Nat.min_eq_left (by simp only [metadataAt]; omega)]
    exact between.read_write_same fits
  · refine congrArg₂ Held.mk ?_ value
    show (b.slotHeld (b.withLabel m slot label) j).label = (b.slotHeld m j).label
    unfold withLabel
    rw [b.label_write_apart _ fits (by simp only [labelLenOffset, labelOffset, metadataAt]; omega),
      b.label_write_apart m fitsLen (by simp only [labelLenOffset, labelOffset, metadataAt]; omega)]

end Effects

def occupied (m : Memory n) (slot : Nat) (id : UInt64) (label : List UInt8) (initial : Int64) : Memory n :=
  b.withWord (b.withValue (b.withLabel m slot label) slot initial) slot (SlotWord.pack id .allocated)

/-- A free slot, claimed and filled in. -/
def taken (m : Memory n) (slot : Nat) (id : UInt64) (label : List UInt8) (initial : Int64) : Memory n :=
  b.occupied (b.withWord m slot (SlotWord.pack id .allocating)) slot id label initial

section Taking

variable {b} {slot : Nat} (h : slot < b.partition.slots) (m : Memory n) (id : UInt64)
  {label : List UInt8} (room : label.length ≤ metadataAt.labelCapacity) (initial : Int64)

include h room

theorem occupy_eq (aligned : b.Aligned) :
    b.occupy slot id label initial m = .ok () (b.occupied m slot id label initial) := by
  have := b.metadata_aligned aligned
  have e : b.metadata.len = b.partition.slots * 512 := rfl
  have len : b.metadata.store (labelLenOffset slot) (UInt32.ofNat label.length) .relaxed m =
      .ok () _ := b.metadata.store_eq
    (by rw [e]; simp only [labelLenOffset, metadataAt, Word.size]; omega)
    (by simp only [labelLenOffset, metadataAt, Word.size]; omega) rfl (UInt32.ofNat label.length) m
  have bytes : ∀ m', b.metadata.storeBytes (labelOffset slot) label m' =
      .ok () (m'.write (b.metadata.base + labelOffset slot) label) := fun m' => b.metadata.storeBytes_eq
    (by rw [e]; simp only [labelOffset, metadataAt] at room ⊢; omega) m'
  have value : ∀ m', b.values.store (valueOffset slot) initial .relaxed m' =
      .ok () (b.withValue m' slot initial) := fun m' => storeValue_eq aligned h m' initial rfl
  have word : ∀ m', b.metadata.store (wordOffset slot) (SlotWord.pack id .allocated) .release m' =
      .ok () (b.withWord m' slot (SlotWord.pack id .allocated)) := fun m' =>
    storeWord_eq aligned h m' (SlotWord.pack id .allocated) rfl
  simp only [occupy, bind, EStateM.bind, len, bytes, value, word]
  rfl

variable {j : Nat} (hj : j < b.partition.slots)

include hj

theorem slotWord_taken : b.slotWord (b.taken m slot id label initial) j =
    if j = slot then SlotWord.pack id .allocated else b.slotWord m j := by
  rw [taken, occupied, slotWord_withWord b h hj, slotWord_withValue b h hj,
    slotWord_withLabel b h hj _ room, slotWord_withWord b h hj]
  split_ifs <;> rfl

theorem slotHeld_taken : b.slotHeld (b.taken m slot id label initial) j =
    if j = slot then ⟨label, initial⟩ else b.slotHeld m j := by
  rw [taken, occupied, slotHeld_withWord b h hj, slotHeld_withValue b h hj,
    slotHeld_withLabel b h hj _ room, slotHeld_withWord b h hj]
  split_ifs <;> rfl

end Taking

end SharedCounters.Blocks
