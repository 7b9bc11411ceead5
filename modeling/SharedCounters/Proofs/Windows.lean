import SharedCounters.Machine.Window

/-! Accesses that are neither out of bounds nor misaligned do what they are for, and a run of bytes
reads as it was written last. -/

namespace SharedCounters

/-- An order that a store can ask for. -/
structure StoreOrder where
  order : Order
  admitted : order.storeClash = none

def StoreOrder.release : StoreOrder := ⟨.release, rfl⟩

namespace Memory

variable {n : Nat}

theorem read_write_same (m : Memory n) {address : Nat} {l : List UInt8} (fits : address + l.length ≤ n) :
    (m.write address l).read address l.length = l := by
  apply List.ext_getElem (length_read ..)
  intro i h1 h2
  rw [getElem_read, byte_write m address l fits, if_pos ⟨Nat.le_add_right .., by omega⟩,
    Nat.add_sub_cancel_left, List.getD_eq_getElem?_getD, List.getElem?_eq_getElem h2, Option.getD_some]

theorem read_write_apart (m : Memory n) {address len other : Nat} {l : List UInt8}
    (fits : other + l.length ≤ n) (apart : address + len ≤ other ∨ other + l.length ≤ address) :
    (m.write other l).read address len = m.read address len := by
  apply List.ext_getElem (by rw [length_read, length_read])
  intro i h1 _
  rw [length_read] at h1
  rw [getElem_read, getElem_read, byte_write m other l fits, if_neg (by omega)]

theorem write_comm (m : Memory n) {address other : Nat} {l l' : List UInt8}
    (fits : address + l.length ≤ n) (fits' : other + l'.length ≤ n)
    (apart : address + l.length ≤ other ∨ other + l'.length ≤ address) :
    (m.write address l).write other l' = (m.write other l').write address l := by
  refine ext_byte fun i _ => ?_
  rw [byte_write _ other l' fits', byte_write _ address l fits, byte_write _ address l fits,
    byte_write _ other l' fits']
  by_cases first : address ≤ i ∧ i < address + l.length
  · simp only [if_pos first]
    rw [if_neg (by omega)]
  · simp only [if_neg first]

end Memory

namespace Window

variable {n : Nat} {α : Type} [Word α]

theorem wordAt_write_same (m : Memory n) {address : Nat} (value : α)
    (fits : address + Word.size α ≤ n) :
    wordAt (m.write address (Word.bytes value)) address = value := by
  have h := m.read_write_same (l := Word.bytes value) (by rwa [Word.length_bytes])
  rw [Word.length_bytes] at h
  rw [wordAt, h, Word.ofBytes_bytes]

theorem wordAt_write_apart (m : Memory n) {address other : Nat} {l : List UInt8}
    (fits : other + l.length ≤ n)
    (apart : address + Word.size α ≤ other ∨ other + l.length ≤ address) :
    (wordAt (m.write other l) address : α) = wordAt m address := by
  rw [wordAt, wordAt, m.read_write_apart fits apart]

variable (w : Window n) {offset : Nat}

theorem locate_eq {size : Nat} (fits : offset + size ≤ w.len) (aligned : (w.base + offset) % size = 0) :
    w.locate offset size = .ok (w.base + offset) := by
  rw [locate, if_pos fits, if_pos aligned]

theorem load_eq (fits : offset + Word.size α ≤ w.len)
    (aligned : (w.base + offset) % Word.size α = 0) {order : Order} (h : order.loadClash = none)
    (m : Memory n) : (w.load offset order : Read n α) m = .ok (wordAt m (w.base + offset)) := by
  simp only [load, w.locate_eq fits aligned, h]

theorem store_eq (fits : offset + Word.size α ≤ w.len)
    (aligned : (w.base + offset) % Word.size α = 0) {order : Order} (h : order.storeClash = none)
    (value : α) (m : Memory n) :
    w.store offset value order m = .ok () (m.write (w.base + offset) (Word.bytes value)) := by
  simp only [store, w.locate_eq fits aligned, h]

theorem compareExchange_eq [DecidableEq α] (fits : offset + Word.size α ≤ w.len)
    (aligned : (w.base + offset) % Word.size α = 0) (current new : α) (m : Memory n) :
    w.compareExchange offset current new m =
      if wordAt m (w.base + offset) = current then
        .ok (.swapped (wordAt m (w.base + offset))) (m.write (w.base + offset) (Word.bytes new))
      else .ok (.found (wordAt m (w.base + offset))) m := by
  simp only [compareExchange, w.locate_eq fits aligned]

theorem storeBytes_eq {l : List UInt8} (fits : offset + l.length ≤ w.len) (m : Memory n) :
    w.storeBytes offset l m = .ok () (m.write (w.base + offset) l) := by
  rw [storeBytes, if_pos fits]

theorem loadBytes_eq {len : Nat} (fits : offset + len ≤ w.len) (m : Memory n) :
    w.loadBytes offset len m = .ok (m.read (w.base + offset) len) := by
  rw [loadBytes, if_pos fits]

end Window

end SharedCounters
