import SharedCounters.Machine.Contention
import SharedCounters.Writing.Publish

/-! Claiming and releasing slots. A slot is claimed by a compare-and-swap of its word, filled in, and
then published by a second store to the word; it is released by a compare-and-swap. Others may act
before each attempt to claim a slot. -/

namespace SharedCounters

/-- How many failed attempts on one slot are followed by another one. This limit and the counts of failed
attempts are numbers of any size. Kept in 32 bits they are the same as long as slots times attempts fit
(`Blocks.Patient.counts_fit`); what becomes of counts that run over is left out. -/
structure RetryLimit where
  perSlot : Nat

def RetryLimit.standard : RetryLimit := ⟨64⟩

/-- Where a new counter is, and how many attempts to claim a slot failed before. -/
structure Placement where
  slot : Nat
  valueOffset : Nat
  labelLen : Nat
  retries : Nat
  deriving DecidableEq, Repr

/-- Why no counter was allocated. -/
inductive Refusal
  | invalidId (id : UInt64)
  | capacityExceeded (slots : Nat)
  deriving DecidableEq, Repr

/-- The longest beginning of a label that a slot can hold. -/
def keptLabel (label : String) : String :=
  String.ofList (Text.fit metadataAt.labelCapacity label.toList)

namespace Blocks

variable {n : Nat} {κ : Type} (b : Blocks n)

/-- Attempts to claim a slot whose word was last seen as `seen`, at most `budget` more times. Gives
whether it was claimed and the number of failed attempts so far. -/
def claimSlot (others : Interference κ n) (slot : Nat) (claim : SlotWord) :
    (budget : Nat) → (seen : SlotWord) → (failures : Nat) → Contended κ n (Bool × Nat)
  | 0, _, failures => return (false, failures)
  | budget + 1, seen, failures =>
    if SlotWord.isFree seen then do
      Contended.yield others slot
      let exchange ← b.metadata.compareExchange (wordOffset slot) seen claim
      match exchange with
      | .swapped _ => return (true, failures)
      | .found actual => claimSlot others slot claim budget actual (failures + 1)
    else return (false, failures)

/-- Writes label and value of a claimed slot and publishes it. -/
def occupy (slot : Nat) (id : UInt64) (label : List UInt8) (initial : Int64) : Write n Unit := do
  b.metadata.store (labelLenOffset slot) (UInt32.ofNat label.length) .relaxed
  b.metadata.storeBytes (labelOffset slot) label
  b.values.store (valueOffset slot) initial .relaxed
  b.metadata.store (wordOffset slot) (SlotWord.pack id .allocated) .release

/-- Takes the first slot that can be claimed among the `rest` slots from `slot` on. -/
def allocateFrom (others : Interference κ n) (id : UInt64) (label : List UInt8) (initial : Int64)
    (limit : RetryLimit) : (rest slot failures : Nat) → Contended κ n (Except Refusal Placement)
  | 0, _, _ => return .error (.capacityExceeded b.partition.slots)
  | rest + 1, slot, failures => do
    let seen ← b.word slot
    let (claimed, failures) ←
      b.claimSlot others slot (SlotWord.pack id .allocating) (limit.perSlot + 1) seen failures
    if claimed then
      b.occupy slot id label initial
      return .ok ⟨slot, valueOffset slot, label.length, failures⟩
    else allocateFrom others id label initial limit rest (slot + 1) failures

/-- Allocates a counter while others may act. An id that does not fit a slot's word is refused first. -/
def allocateAmong (others : Interference κ n) (id : UInt64) (label : String) (initial : Int64)
    (limit : RetryLimit) : Contended κ n (Except Refusal Placement) :=
  if id = 0 ∨ largestId < id then return .error (.invalidId id)
  else b.allocateFrom others id (Text.utf8 (keptLabel label)) initial limit b.partition.slots 0 0

def allocate (id : UInt64) (label : String) (initial : Int64) : Write n (Except Refusal Placement) :=
  Contended.quietWrite (b.allocateAmong alone id label initial RetryLimit.standard)

def freeFrom (id : UInt64) : (rest slot : Nat) → Write n Bool
  | 0, _ => return false
  | rest + 1, slot => do
    let seen ← b.word slot
    match SlotWord.verdict id seen with
    | .stop => return false
    | .next => freeFrom id rest (slot + 1)
    | .here =>
      let _ ← b.metadata.compareExchange (wordOffset slot) seen (SlotWord.pack id .freed)
      return true

/-- Whether there was such a counter. -/
def free (id : UInt64) : Write n Bool := b.freeFrom id b.partition.slots 0

end Blocks

end SharedCounters
