import Mathlib.Data.Nat.Find
import SharedCounters.Failure
import SharedCounters.Machine.Rounding
import SharedCounters.Machine.Word
import SharedCounters.Reading.Records

/-! The format of a region, said of its bytes alone. Bytes hold counters if their header has room, names
the version, describes blocks that fit, and the statics block is a chain of as many records as it says.
Otherwise the first of these conditions that fails is what is wrong with them. -/

namespace SharedCounters.RegionFormat

/-- The number that four bytes from an offset on hold. -/
def fieldAt (bytes : List UInt8) (offset : Nat) : Nat := ofLittleEndian ((bytes.drop offset).take 4)

def version (bytes : List UInt8) : Nat := fieldAt bytes 0

def staticsLen (bytes : List UInt8) : Nat := fieldAt bytes 4

def metadataLen (bytes : List UInt8) : Nat := fieldAt bytes 8

def valuesLen (bytes : List UInt8) : Nat := fieldAt bytes 12

def extent (bytes : List UInt8) : Nat := 128 + staticsLen bytes + metadataLen bytes + valuesLen bytes

/-- The lengths are those of a region with some number of slots. -/
structure LengthsAgree (bytes : List UInt8) : Prop where
  pos : 0 < staticsLen bytes
  dvd : 128 ∣ staticsLen bytes
  slots : ∃ slots, slots ≤ 10000 ∧ metadataLen bytes = 512 * slots ∧ valuesLen bytes = 128 * slots

def staticsBlock (bytes : List UInt8) : List UInt8 := (bytes.drop 128).take (staticsLen bytes)

def recordCount (bytes : List UInt8) : Nat := fieldAt (staticsBlock bytes) 0

/-- Where a record at an offset ends: two lengths, label and value, and what fills up four bytes. -/
def recordEnd (block : List UInt8) (offset : Nat) : Nat :=
  roundUp (offset + 8 + fieldAt block offset + fieldAt block (offset + 4)) 4

/-- Where the records of a block start, each at the end of the one before. -/
def recordOffset (block : List UInt8) : Nat → Nat
  | 0 => 4
  | i + 1 => recordEnd block (recordOffset block i)

/-- What a block holds at an offset: two lengths, a label and a value. -/
def recordAt (block : List UInt8) (offset : Nat) : StaticRecord :=
  ⟨offset, (block.drop (offset + 8)).take (fieldAt block offset),
    (block.drop (offset + 8 + fieldAt block offset)).take (fieldAt block (offset + 4))⟩

def RecordFits (bytes : List UInt8) (i : Nat) : Prop :=
  recordOffset (staticsBlock bytes) (i + 1) ≤ staticsLen bytes

structure HoldsCounters (bytes : List UInt8) : Prop where
  header : 128 ≤ bytes.length
  version : version bytes = 1
  lengths : LengthsAgree bytes
  whole : extent bytes ≤ bytes.length
  records : ∀ i, i < recordCount bytes → RecordFits bytes i

/-- The first condition that fails, in the order in which a reader looks at them. -/
inductive Flaw (bytes : List UInt8) : BadRegion → Prop
  | short (few : bytes.length < 128) : Flaw bytes (.truncated 128 bytes.length)
  | blank (header : 128 ≤ bytes.length) (unset : version bytes = 0) : Flaw bytes .notInitialized
  | foreign (header : 128 ≤ bytes.length) (other : UInt32) (stored : version bytes = other.toNat)
      (set : other ≠ 0) (unknown : other ≠ 1) : Flaw bytes (.unsupportedVersion other)
  | lengths (header : 128 ≤ bytes.length) (known : version bytes = 1) (clash : ¬ LengthsAgree bytes) :
    Flaw bytes .inconsistentLengths
  | cut (header : 128 ≤ bytes.length) (known : version bytes = 1) (agree : LengthsAgree bytes)
      (few : bytes.length < extent bytes) : Flaw bytes (.truncated (extent bytes) bytes.length)
  | record (header : 128 ≤ bytes.length) (known : version bytes = 1) (agree : LengthsAgree bytes)
      (whole : extent bytes ≤ bytes.length) (i : Nat) (counted : i < recordCount bytes)
      (before : ∀ j, j < i → RecordFits bytes j) (beyond : ¬ RecordFits bytes i) :
    Flaw bytes (.corruptStatics (recordOffset (staticsBlock bytes) i))

variable {bytes : List UInt8}

theorem le_recordEnd (block : List UInt8) (offset : Nat) : offset + 8 ≤ recordEnd block offset := by
  have := le_roundUp (offset + 8 + fieldAt block offset + fieldAt block (offset + 4))
    (show 0 < 4 by decide)
  rw [recordEnd]
  omega

theorem recordOffset_mod (block : List UInt8) (i : Nat) : recordOffset block i % 4 = 0 := by
  cases i with
  | zero => simp [recordOffset]
  | succ i => exact Nat.mod_eq_zero_of_dvd (dvd_roundUp _ 4)

instance (bytes : List UInt8) (i : Nat) : Decidable (RecordFits bytes i) :=
  inferInstanceAs (Decidable (_ ≤ _))

theorem exists_first_beyond {count : Nat} (h : ¬ ∀ i, i < count → RecordFits bytes i) :
    ∃ i, i < count ∧ (∀ j, j < i → RecordFits bytes j) ∧ ¬ RecordFits bytes i := by
  push Not at h
  obtain ⟨counted, beyond⟩ := Nat.find_spec h
  refine ⟨Nat.find h, counted, fun j hj => ?_, beyond⟩
  by_contra fails
  exact Nat.find_min h hj ⟨Nat.lt_trans hj counted, fails⟩

theorem fieldAt_lt (bytes : List UInt8) (offset : Nat) : fieldAt bytes offset < UInt32.size := by
  have stored := ofLittleEndian_lt ((bytes.drop offset).take 4)
  have short : ((bytes.drop offset).take 4).length ≤ 4 := List.length_take_le ..
  generalize ((bytes.drop offset).take 4).length = len at stored short
  have cases : len = 0 ∨ len = 1 ∨ len = 2 ∨ len = 3 ∨ len = 4 := by omega
  rw [fieldAt, show UInt32.size = 4294967296 from rfl]
  rcases cases with rfl | rfl | rfl | rfl | rfl <;> simp only [wordRange] at stored <;> omega

theorem holds_or_flaw (bytes : List UInt8) : HoldsCounters bytes ∨ ∃ cause, Flaw bytes cause := by
  rcases Nat.lt_or_ge bytes.length 128 with few | header
  · exact Or.inr ⟨_, .short few⟩
  by_cases unset : version bytes = 0
  · exact Or.inr ⟨_, .blank header unset⟩
  rcases ne_or_eq (version bytes) 1 with unknown | known
  · have stored : version bytes = (UInt32.ofNat (version bytes)).toNat :=
      (UInt32.toNat_ofNat_of_lt' (fieldAt_lt bytes 0)).symm
    refine Or.inr ⟨_, .foreign header (UInt32.ofNat (version bytes)) stored ?_ ?_⟩
    · intro h
      rw [h] at stored
      exact unset stored
    · intro h
      rw [h] at stored
      exact unknown stored
  rcases Classical.em (LengthsAgree bytes) with agree | clash
  · rcases Nat.lt_or_ge bytes.length (extent bytes) with few | whole
    · exact Or.inr ⟨_, .cut header known agree few⟩
    · by_cases records : ∀ i, i < recordCount bytes → RecordFits bytes i
      · exact Or.inl ⟨header, known, agree, whole, records⟩
      · obtain ⟨i, counted, before, beyond⟩ := exists_first_beyond records
        exact Or.inr ⟨_, .record header known agree whole i counted before beyond⟩
  · exact Or.inr ⟨_, .lengths header known clash⟩

end SharedCounters.RegionFormat
