import SharedCounters.Format.Statics

/-! How a region is divided: header, statics, one metadata record per slot, one value record per slot.
Two numbers fix a partition, and it is a possible one by its type. -/

namespace SharedCounters

def metadataLenFor (slots : Nat) : Nat := slots * metadataAt.len

def valuesLenFor (slots : Nat) : Nat := slots * valueAt.len

structure Partition where
  staticsLen : Nat
  slots : Nat
  pos : 0 < staticsLen
  dvd : blockUnit ∣ staticsLen
  lt : staticsLen < UInt32.size
  le : slots ≤ counterLimit
  deriving DecidableEq

namespace Partition

theorem pos_of_eq_roundUp {len records : Nat} (h : len = roundUp (4 + records) 128) : 0 < len := by
  have : 4 + records ≤ len := h ▸ le_roundUp (4 + records) (by decide)
  omega

def ofStatics (statics : Statics) (slots : Nat) : Except BadRequest Partition :=
  if le : slots ≤ counterLimit then
    match h : statics.blockLen with
    | .error cause => .error cause
    | .ok len =>
      have h := Statics.blockLen_eq_ok h
      .ok ⟨len, slots, pos_of_eq_roundUp h.1, h.1 ▸ dvd_roundUp .., h.2, le⟩
  else .error (.tooManyCounters slots counterLimit)

def ofLengths (staticsLen metadataLen valuesLen : UInt32) : Except BadRegion Partition :=
  if h : staticsAt.records ≤ staticsLen.toNat ∧ staticsLen.toNat % blockUnit = 0
      ∧ metadataLen.toNat % metadataAt.len = 0 ∧ valuesLen.toNat % valueAt.len = 0
      ∧ metadataLen.toNat / metadataAt.len = valuesLen.toNat / valueAt.len
      ∧ valuesLen.toNat / valueAt.len ≤ counterLimit then
    .ok ⟨staticsLen.toNat, valuesLen.toNat / valueAt.len, Nat.lt_of_lt_of_le (by decide) h.1,
      Nat.dvd_of_mod_eq_zero h.2.1, staticsLen.toNat_lt, h.2.2.2.2.2⟩
  else .error .inconsistentLengths

def metadataLen (p : Partition) : Nat := metadataLenFor p.slots

def valuesLen (p : Partition) : Nat := valuesLenFor p.slots

def staticsStart (_ : Partition) : Nat := headerAt.len

def metadataStart (p : Partition) : Nat := p.staticsStart + p.staticsLen

def valuesStart (p : Partition) : Nat := p.metadataStart + p.metadataLen

/-- The end of the last block: no region divided like this is shorter. -/
def extent (p : Partition) : Nat := p.valuesStart + p.valuesLen

def mappedLen (p : Partition) (pageSize : UInt64) : UInt64 := alignWord (UInt64.ofNat p.extent) pageSize

section Bounds

variable (p : Partition)

theorem staticsLen_dvd : 128 ∣ p.staticsLen := p.dvd

theorem metadataLen_eq : p.metadataLen = p.slots * 512 := rfl

theorem valuesLen_eq : p.valuesLen = p.slots * 128 := rfl

theorem metadataLen_lt : p.metadataLen < UInt32.size := by
  have le : p.slots ≤ 10000 := p.le
  rw [metadataLen_eq, UInt32.size]
  omega

theorem valuesLen_lt : p.valuesLen < UInt32.size := by
  have le : p.slots ≤ 10000 := p.le
  rw [valuesLen_eq, UInt32.size]
  omega

end Bounds

end Partition

end SharedCounters
