import SharedCounters.Proofs.Footprints
import SharedCounters.Proofs.Refinement
import SharedCounters.Writer

/-! What is done through a handle, next to what the same use makes of a value of its own, and how far the
accesses behind it reach: a value is read and replaced in its slot, and no slot is filled in or used
without leaving the header and the statics as they were. -/

namespace SharedCounters

inductive Use
  | get | getRelaxed
  | set (value : Int64) | setRelaxed (value : Int64)
  | increment (delta : Int64) | fetchAdd (delta : Int64)
  | swap (value : Int64)
  | compareExchange (current new : Int64)
  deriving DecidableEq, Repr

inductive Gain
  | nothing
  | value (value : Int64)
  | exchange (result : Exchange Int64)
  deriving DecidableEq, Repr

namespace Use

/-- What a use makes of a value that nobody else knows. -/
def alone : Use → Int64 → Gain × Int64
  | .get, v | .getRelaxed, v => (.value v, v)
  | .set new, _ | .setRelaxed new, _ => (.nothing, new)
  | .increment delta, v => (.value (v + delta), v + delta)
  | .fetchAdd delta, v => (.value v, v + delta)
  | .swap new, v => (.value v, new)
  | .compareExchange current new, v =>
    if v = current then (.exchange (.swapped v), new) else (.exchange (.found v), v)

/-- The uses of one value, one after the other: what they give back, and the value that is left. -/
def reference : List Use → Int64 → List Gain × Int64
  | [], v => ([], v)
  | use :: rest, v =>
    let (gains, left) := reference rest (use.alone v).2
    ((use.alone v).1 :: gains, left)

def through (c : Handle) : Use → Host Gain
  | .get => return .value (← c.get)
  | .getRelaxed => return .value (← c.getRelaxed)
  | .set value => do c.set value; return .nothing
  | .setRelaxed value => do c.setRelaxed value; return .nothing
  | .increment delta => return .value (← c.increment delta)
  | .fetchAdd delta => return .value (← c.fetchAdd delta)
  | .swap value => return .value (← c.swap value)
  | .compareExchange current new => return .exchange (← c.compareExchange current new)

theorem reference_append_one (uses : List Use) (use : Use) (v : Int64) :
    reference (uses ++ [use]) v =
      ((reference uses v).1 ++ [(use.alone (reference uses v).2).1], (use.alone (reference uses v).2).2) := by
  induction uses generalizing v with
  | nil => rfl
  | cons first rest ih => simp only [List.cons_append, reference, ih]

end Use

namespace Blocks

variable {n : Nat} {b : Blocks n} {m : Memory n} {slot : Nat}

section Values

variable (aligned : b.Aligned) (h : slot < b.partition.slots)

include aligned h

theorem loadValue_eq {order : Order} (admitted : order.loadClash = none) (m : Memory n) :
    b.values.load (valueOffset slot) order m = .ok (b.slotHeld m slot).value := by
  have := b.metadata_aligned aligned
  have base := b.values_base
  have len : b.values.len = b.partition.slots * 128 := rfl
  exact b.values.load_eq (by simp only [valueOffset, valueAt, Word.size]; omega)
    (by simp only [valueOffset, valueAt, Word.size]; omega) admitted m

theorem locateValue_eq :
    b.values.locate (valueOffset slot) (Word.size Int64) = .ok (b.values.base + valueOffset slot) := by
  have := b.metadata_aligned aligned
  have base := b.values_base
  have len : b.values.len = b.partition.slots * 128 := rfl
  exact b.values.locate_eq (by simp only [valueOffset, valueAt, Word.size]; omega)
    (by simp only [valueOffset, valueAt, Word.size]; omega)

theorem updateValue_eq (next : Int64 → Int64) (m : Memory n) : b.values.update (valueOffset slot) next m =
    .ok (b.slotHeld m slot).value (b.withValue m slot (next (b.slotHeld m slot).value)) := by
  rw [Window.update, locateValue_eq aligned h]
  rfl

theorem exchangeValue_eq (current new : Int64) (m : Memory n) :
    b.values.compareExchange (valueOffset slot) current new m =
      if (b.slotHeld m slot).value = current then
        .ok (.swapped (b.slotHeld m slot).value) (b.withValue m slot new)
      else .ok (.found (b.slotHeld m slot).value) m := by
  rw [Window.compareExchange, locateValue_eq aligned h]
  rfl

end Values

section Frames

theorem withWord_differs (h : slot < b.partition.slots) (word : SlotWord) :
    m.DiffersWithin (b.withWord m slot word) b.metadata.base n := by
  have base := b.values_base
  have stop := b.values_end
  exact (withWord_within h m word).mono (Nat.le_add_right _ _) (by simp only [wordOffset, metadataAt]; omega)

theorem withValue_differs (h : slot < b.partition.slots) (value : Int64) :
    m.DiffersWithin (b.withValue m slot value) b.metadata.base n := by
  have base := b.values_base
  have stop := b.values_end
  exact (withValue_within h m value).mono (by omega) (by simp only [valueOffset, valueAt]; omega)

theorem taken_differs (h : slot < b.partition.slots) (id : UInt64) {label : List UInt8}
    (room : label.length ≤ metadataAt.labelCapacity) (initial : Int64) :
    m.DiffersWithin (b.taken m slot id label initial) b.metadata.base n where
  byte_eq i outside := (filled_taken h m id room initial).rest i fun taken => by
    have := taken.bounds h room
    omega

theorem allocate_differs (aligned : b.Aligned) {id : UInt64} (valid : ¬ (id = 0 ∨ largestId < id))
    {label : String} {initial : Int64} {result : Except Refusal Placement} {m' : Memory n}
    (run : b.allocate id label initial m = .ok result m') : m.DiffersWithin m' b.metadata.base n := by
  by_cases vacancy : ∃ k, k < b.partition.slots ∧ SlotWord.isFree (b.slotWord m k) = true
  · obtain ⟨hk, free⟩ := Nat.find_spec vacancy
    have busy : ∀ j, j < Nat.find vacancy → SlotWord.isFree (b.slotWord m j) = false := fun j hj =>
      Bool.eq_false_iff.2 fun also => Nat.find_min vacancy hj ⟨Nat.lt_trans hj hk, also⟩
    cases (allocate_of_isFree aligned valid label initial hk free busy).symm.trans run
    exact taken_differs hk id (length_keptLabel_le label) initial
  · push Not at vacancy
    have full : ∀ j, j < b.partition.slots → SlotWord.isFree (b.slotWord m j) = false := fun j hj =>
      Bool.eq_false_iff.2 (vacancy j hj)
    cases (allocate_of_full aligned valid label initial full).symm.trans run
    exact .refl ..

end Frames

end Blocks

end SharedCounters
