import SharedCounters.Format.Blocks

/-! Reading the statics. A walk visits record after record, as many as the block says it holds. It stops
when a visit asks for it, and at the first record that does not lie within the block. -/

namespace SharedCounters

/-- A record of the statics block: where it starts, and the bytes of its label and its value. -/
structure StaticRecord where
  offset : Nat
  label : List UInt8
  value : List UInt8
  deriving DecidableEq, Repr

namespace StaticRecord

def next (r : StaticRecord) : Nat := r.offset + Statics.recordLen r.label.length r.value.length

def pair (r : StaticRecord) : String × String := (Text.lossy r.label, Text.lossy r.value)

end StaticRecord

/-- What a visit makes of the state, and whether the walk goes on. -/
inductive Visit (α : Type)
  | go (state : α)
  | done (state : α)

/-- What a walk leaves: what the visits made, and where it met a record that does not fit. -/
structure Walk (α : Type) where
  state : α
  corruptAt : Option Nat

namespace Blocks

variable {n : Nat} {α : Type} (b : Blocks n)

/-- The record at an offset, if it and its padding lie within the block. -/
def recordAt (offset : Nat) : Read n (Option StaticRecord) :=
  if b.statics.len < offset + staticsAt.label then return none
  else do
    let labelLen : UInt32 ← b.statics.load (offset + staticsAt.labelLen) .relaxed
    let valueLen : UInt32 ← b.statics.load (offset + staticsAt.valueLen) .relaxed
    if b.statics.len < offset + Statics.recordLen labelLen.toNat valueLen.toNat then return none
    else
      let labelAt := offset + staticsAt.label
      let label ← b.statics.loadBytes labelAt labelLen.toNat
      let value ← b.statics.loadBytes (labelAt + labelLen.toNat) valueLen.toNat
      return some ⟨offset, label, value⟩

def visitFrom (visit : α → StaticRecord → Visit α) : (count offset : Nat) → α → Read n (Walk α)
  | 0, _, state => return ⟨state, none⟩
  | count + 1, offset, state => do
    match ← b.recordAt offset with
    | none => return ⟨state, some offset⟩
    | some record =>
      match visit state record with
      | .done state => return ⟨state, none⟩
      | .go state => visitFrom visit count record.next state

def visitStatics (visit : α → StaticRecord → Visit α) (state : α) : Read n (Walk α) := do
  let count : UInt32 ← b.statics.load staticsAt.count .acquire
  b.visitFrom visit count.toNat staticsAt.records state

/-- All pairs up to the first record that does not fit, in stored order. -/
def staticPairs : Read n (List (String × String)) := do
  let walk ← b.visitStatics (fun pairs record => .go (record.pair :: pairs)) []
  return walk.state.reverse

/-- The value of the first record that has exactly this label. -/
def staticFor (label : String) : Read n (Option String) := do
  let wanted := Text.utf8 label
  let walk ← b.visitStatics
    (fun _ record => if record.label = wanted then .done (some record.pair.2) else .go none) none
  return walk.state

end Blocks

end SharedCounters
