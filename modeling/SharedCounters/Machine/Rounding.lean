/-! Rounding up. Inside the format lengths are rounded to fixed multiples; the length of a mapping is
rounded on 64-bit words to a page size that is a power of two. -/

namespace SharedCounters

/-- The least multiple of `unit` from `value` on. -/
def roundUp (value unit : Nat) : Nat := (value + (unit - 1)) / unit * unit

/-- Clears the low bits below `alignment`, after adding all of them. -/
def alignWord (value alignment : UInt64) : UInt64 :=
  (value + (alignment - 1)) &&& ~~~(alignment - 1)

def isPowerOfTwo (word : UInt64) : Bool := word != 0 && word &&& (word - 1) == 0

theorem dvd_roundUp (value unit : Nat) : unit ∣ roundUp value unit := Nat.dvd_mul_left ..

theorem le_roundUp (value : Nat) {unit : Nat} (h : 0 < unit) : value ≤ roundUp value unit := by
  have := Nat.div_add_mod (value + (unit - 1)) unit
  have := Nat.mod_lt (value + (unit - 1)) h
  rw [roundUp, Nat.mul_comm]
  omega

end SharedCounters
