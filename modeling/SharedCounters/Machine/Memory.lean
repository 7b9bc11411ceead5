import SharedCounters.Machine.Word

/-! A shared memory of `n` bytes. Its bytes are all there is to it, so two memories with the same
bytes are equal. Reading and writing a run of bytes are the only operations that the rest of the
library performs on it. -/

namespace SharedCounters

structure Memory (n : Nat) where
  bytes : ByteArray
  size_bytes : bytes.size = n

namespace Memory

variable {n : Nat}

def zero (n : Nat) : Memory n := ⟨⟨Array.replicate n 0⟩, Array.size_replicate⟩

/-- The byte at an address, zero beyond the end. -/
def byte (m : Memory n) (i : Nat) : UInt8 :=
  if h : i < n then m.bytes.get i (by rw [m.size_bytes]; exact h) else 0

/-- Beyond the end nothing is stored. -/
def put (m : Memory n) (i : Nat) (b : UInt8) : Memory n :=
  if h : i < n then
    ⟨m.bytes.set i b (by rw [m.size_bytes]; exact h), (Array.size_set _).trans m.size_bytes⟩
  else m

theorem byte_put (m : Memory n) (i : Nat) (b : UInt8) (j : Nat) :
    (m.put i b).byte j = if j = i ∧ i < n then b else m.byte j := by
  by_cases hi : i < n
  · by_cases hj : j < n
    · unfold put byte
      rw [dif_pos hi, dif_pos hj, dif_pos hj]
      refine (Array.getElem_set _ _).trans ?_
      by_cases same : i = j
      · rw [if_pos same, if_pos ⟨same.symm, hi⟩]
      · rw [if_neg same, if_neg fun h => same h.1.symm]
        rfl
    · have : j ≠ i := by omega
      simp [byte, hj, this]
  · simp [put, hi]

theorem ext_byte {m m' : Memory n} (h : ∀ i, i < n → m.byte i = m'.byte i) : m = m' := by
  obtain ⟨b, hb⟩ := m
  obtain ⟨b', hb'⟩ := m'
  congr 1
  apply ByteArray.ext
  apply Array.ext
  · exact hb.trans hb'.symm
  · intro i h1 _
    have hi : i < n := by rw [← hb]; exact h1
    have := h i hi
    unfold byte at this
    rw [dif_pos hi, dif_pos hi] at this
    exact this

def read (m : Memory n) (address len : Nat) : List UInt8 :=
  (List.range' address len).map m.byte

def write (m : Memory n) (address : Nat) : List UInt8 → Memory n
  | [] => m
  | b :: rest => (m.put address b).write (address + 1) rest

@[simp] theorem length_read (m : Memory n) (address len : Nat) :
    (m.read address len).length = len := by simp [read]

theorem getElem_read (m : Memory n) (address len i : Nat) (h : i < (m.read address len).length) :
    (m.read address len)[i] = m.byte (address + i) := by simp [read]

/-- Inside the run the new bytes, elsewhere the old ones. -/
theorem byte_write (m : Memory n) (address : Nat) (l : List UInt8) (h : address + l.length ≤ n)
    (j : Nat) : (m.write address l).byte j =
      if address ≤ j ∧ j < address + l.length then l.getD (j - address) 0 else m.byte j := by
  induction l generalizing m address with
  | nil => rw [write, if_neg (by simp)]
  | cons b rest ih =>
    simp only [List.length_cons] at h
    rw [write, ih _ _ (by omega), byte_put]
    by_cases h1 : j = address
    · subst h1
      rw [if_neg (by omega)]
      simp [show j < n by omega]
    · by_cases h2 : address + 1 ≤ j ∧ j < address + 1 + rest.length
      · rw [if_pos h2, if_pos (by simp only [List.length_cons]; omega),
          show j - address = (j - (address + 1)) + 1 by omega, List.getD_cons_succ]
      · rw [if_neg h2, if_neg (by simp [h1]), if_neg (by simp only [List.length_cons]; omega)]

end Memory

end SharedCounters
