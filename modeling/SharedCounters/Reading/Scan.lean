import SharedCounters.Machine.Contention
import SharedCounters.Format.Blocks

/-! Reading counters without a lock. A slot counts only if its word is the same before and after its
label and value were read. Others may act between the reading and the second look at the word. -/

namespace SharedCounters

/-- A counter as a reader saw it. -/
structure Reading where
  id : UInt64
  label : String
  value : Int64
  deriving DecidableEq, Repr

/-- The bytes of the label and the value that a slot held at one moment. -/
structure Held where
  label : List UInt8
  value : Int64
  deriving DecidableEq, Repr

namespace Blocks

variable {n : Nat} {κ : Type} (b : Blocks n)

/-- A stored length beyond the capacity is not believed. -/
def held (slot : Nat) : Read n Held := do
  let len : UInt32 ← b.metadata.load (labelLenOffset slot) .relaxed
  let label ← b.metadata.loadBytes (labelOffset slot) (min len.toNat metadataAt.labelCapacity)
  let value : Int64 ← b.values.load (valueOffset slot) .relaxed
  return ⟨label, value⟩

/-- The counters of the `rest` slots from `slot` on, up to a slot that was never used. -/
def liveFrom (others : Interference κ n) : (rest slot : Nat) → Contended κ n (List Reading)
  | 0, _ => return []
  | rest + 1, slot => do
    let seen ← b.word slot
    match SlotWord.status? seen with
    | some .notUsed => return []
    | some .allocated =>
      let held ← b.held slot
      Contended.yield others slot
      let now ← b.word slot
      let later ← liveFrom others rest (slot + 1)
      return if now = seen then ⟨SlotWord.id seen, Text.lossy held.label, held.value⟩ :: later
        else later
    | _ => liveFrom others rest (slot + 1)

def liveAmong (others : Interference κ n) : Contended κ n (List Reading) :=
  b.liveFrom others b.partition.slots 0

def liveCounters : Read n (List Reading) := Contended.quietRead (b.liveAmong alone)

/-- Looks for a counter among the `rest` slots from `slot` on. When the slot changed while it was read,
its new word decides how the search goes on; it cannot be the counter again, because the word of an
allocated counter is fixed by its id. -/
def searchFrom (others : Interference κ n) (id : UInt64) : (rest slot : Nat) → Contended κ n (Option Held)
  | 0, _ => return none
  | rest + 1, slot => do
    let seen ← b.word slot
    match SlotWord.verdict id seen with
    | .stop => return none
    | .next => searchFrom others id rest (slot + 1)
    | .here =>
      let held ← b.held slot
      Contended.yield others slot
      let now ← b.word slot
      if now = seen then return some held
      else if SlotWord.verdict id now = .next then searchFrom others id rest (slot + 1)
      else return none

def searchAmong (others : Interference κ n) (id : UInt64) : Contended κ n (Option Held) :=
  b.searchFrom others id b.partition.slots 0

def search (id : UInt64) : Read n (Option Held) := Contended.quietRead (b.searchAmong alone id)

def valueOf (id : UInt64) : Read n (Option Int64) := do
  return (← b.search id).map Held.value

def labelOf (id : UInt64) : Read n (Option String) := do
  return (← b.search id).map fun held => Text.lossy held.label

end Blocks

end SharedCounters
