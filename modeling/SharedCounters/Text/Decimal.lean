/-! Decimal numbers without a sign, or with a plus sign, that fit a 64-bit word. -/

namespace SharedCounters.Text

def digit? (c : Char) : Option Nat :=
  if '0' ≤ c ∧ c ≤ '9' then some (c.toNat - '0'.toNat) else none

/-- The number that the digits continue. -/
def digits? (value : Nat) : List Char → Option Nat
  | [] => some value
  | c :: rest => (digit? c).bind fun d => digits? (10 * value + d) rest

/-- There is at least one digit, and leading zeros are allowed. -/
def number? (text : List Char) : Option UInt64 :=
  let digits := match text with
    | '+' :: rest => rest
    | _ => text
  if digits.isEmpty then none
  else (digits? 0 digits).bind fun n => if n < UInt64.size then some (UInt64.ofNat n) else none

end SharedCounters.Text
