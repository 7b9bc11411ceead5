import Mathlib.Tactic.SplitIfs
import SharedCounters.Proofs.Windows

/-! How far writing reaches. What is read apart from the bytes that were written is as it was. -/

namespace SharedCounters

namespace Memory

variable {n : Nat} {m m' m'' : Memory n} {first stop : Nat}

/-- The second memory differs from the first only from `first` up to `stop`. -/
structure DiffersWithin (m m' : Memory n) (first stop : Nat) : Prop where
  byte_eq : ∀ i, i < first ∨ stop ≤ i → m'.byte i = m.byte i

theorem DiffersWithin.refl (m : Memory n) (first stop : Nat) : m.DiffersWithin m first stop :=
  ⟨fun _ _ => rfl⟩

theorem DiffersWithin.trans (h : m.DiffersWithin m' first stop) (h' : m'.DiffersWithin m'' first stop) :
    m.DiffersWithin m'' first stop :=
  ⟨fun i hi => (h'.byte_eq i hi).trans (h.byte_eq i hi)⟩

theorem DiffersWithin.mono (h : m.DiffersWithin m' first stop) {first' stop' : Nat}
    (below : first' ≤ first) (above : stop ≤ stop') : m.DiffersWithin m' first' stop' :=
  ⟨fun i hi => h.byte_eq i (by omega)⟩

theorem differsWithin_write (m : Memory n) {address : Nat} {l : List UInt8}
    (fits : address + l.length ≤ n) (below : first ≤ address) (above : address + l.length ≤ stop) :
    m.DiffersWithin (m.write address l) first stop where
  byte_eq i hi := by rw [m.byte_write address l fits, if_neg (by omega)]

section Apart

variable (h : m.DiffersWithin m' first stop) {address : Nat}

include h

theorem DiffersWithin.read_eq {len : Nat} (apart : address + len ≤ first ∨ stop ≤ address) :
    m'.read address len = m.read address len := by
  refine List.ext_getElem (by rw [length_read, length_read]) fun i h1 _ => ?_
  rw [length_read] at h1
  rw [getElem_read, getElem_read]
  exact h.byte_eq _ (by omega)

theorem DiffersWithin.wordAt_eq {α : Type} [Word α]
    (apart : address + Word.size α ≤ first ∨ stop ≤ address) :
    (Window.wordAt m' address : α) = Window.wordAt m address := by
  rw [Window.wordAt, Window.wordAt, h.read_eq apart]

end Apart

section Agreement

variable {place : Nat → Prop}

/-- The memories hold the same bytes at a place. -/
def AgreesOn (m m' : Memory n) (place : Nat → Prop) : Prop := ∀ i, place i → m.byte i = m'.byte i

theorem AgreesOn.write (h : m.AgreesOn m' place) {address : Nat} {l : List UInt8}
    (fits : address + l.length ≤ n) : (m.write address l).AgreesOn (m'.write address l) place := by
  intro i there
  rw [m.byte_write address l fits, m'.byte_write address l fits]
  split_ifs
  · rfl
  · exact h i there

/-- Where neither was changed, two memories agree that came from one. -/
theorem DiffersWithin.agreesOn {base : Memory n} (h : base.DiffersWithin m first stop)
    (h' : base.DiffersWithin m' first stop) (apart : ∀ i, place i → i < first ∨ stop ≤ i) :
    m.AgreesOn m' place :=
  fun i there => (h.byte_eq i (apart i there)).trans (h'.byte_eq i (apart i there)).symm

end Agreement

end Memory

end SharedCounters
