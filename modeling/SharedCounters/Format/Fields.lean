/-! What is kept where. Blocks start at multiples of two cache lines; the fields of the header and of the
statics block lie side by side, and so do the records of the slots in two blocks of their own. -/

namespace SharedCounters

def formatVersion : UInt32 := 1

def cacheLine : Nat := 64

/-- Blocks start at multiples of two cache lines. -/
def blockUnit : Nat := 2 * cacheLine

def counterLimit : Nat := 10000

structure HeaderFields where
  version : Nat
  staticsLen : Nat
  metadataLen : Nat
  valuesLen : Nat
  pid : Nat
  start : Nat
  len : Nat

def headerAt : HeaderFields := ⟨0, 4, 8, 12, 16, 24, 128⟩

/-- The last three are relative to a record. -/
structure StaticsFields where
  count : Nat
  records : Nat
  labelLen : Nat
  valueLen : Nat
  label : Nat

def staticsAt : StaticsFields := ⟨0, 4, 0, 4, 8⟩

structure MetadataFields where
  word : Nat
  labelLen : Nat
  label : Nat
  labelCapacity : Nat
  len : Nat

def metadataAt : MetadataFields := ⟨0, 128, 132, 380, 512⟩

structure ValueFields where
  value : Nat
  len : Nat

def valueAt : ValueFields := ⟨0, 128⟩

end SharedCounters
