/-! Fixed-width words and the bytes that hold them, least significant byte first. Reading back the
bytes of a word gives the word, and each list of bytes of the right length is the bytes of one. -/

namespace SharedCounters

/-- The `count` low bytes of a number. -/
def littleEndian : Nat → Nat → List UInt8
  | 0, _ => []
  | count + 1, value => UInt8.ofNat value :: littleEndian count (value / 256)

def ofLittleEndian : List UInt8 → Nat
  | [] => 0
  | byte :: rest => byte.toNat + 256 * ofLittleEndian rest

@[simp] theorem length_littleEndian (count value : Nat) :
    (littleEndian count value).length = count := by
  induction count generalizing value with
  | zero => rfl
  | succ count ih => simp [littleEndian, ih]

/-- How many numbers the bytes of a word can hold. -/
def wordRange : Nat → Nat
  | 0 => 1
  | size + 1 => 256 * wordRange size

theorem ofLittleEndian_littleEndian (count value : Nat) :
    ofLittleEndian (littleEndian count value) = value % wordRange count := by
  induction count generalizing value with
  | zero => simp [littleEndian, ofLittleEndian, wordRange, Nat.mod_one]
  | succ count ih =>
    have low : (UInt8.ofNat value).toNat = value % 256 := UInt8.toNat_ofNat'
    rw [littleEndian, ofLittleEndian, ih, low, wordRange, Nat.mod_mul]

theorem ofLittleEndian_lt (bytes : List UInt8) : ofLittleEndian bytes < wordRange bytes.length := by
  induction bytes with
  | nil => simp [ofLittleEndian, wordRange]
  | cons byte rest ih =>
    have := byte.toNat_lt
    rw [ofLittleEndian, List.length_cons, wordRange]
    omega

theorem littleEndian_ofLittleEndian (bytes : List UInt8) :
    littleEndian bytes.length (ofLittleEndian bytes) = bytes := by
  induction bytes with
  | nil => rfl
  | cons byte rest ih =>
    have := byte.toNat_lt
    rw [List.length_cons, littleEndian, ofLittleEndian,
      show (byte.toNat + 256 * ofLittleEndian rest) / 256 = ofLittleEndian rest by omega, ih]
    congr 1
    apply UInt8.toNat_inj.1
    rw [UInt8.toNat_ofNat']
    omega

/-- A type of words of `size` bytes, numbered from zero without gaps. -/
class Word (α : Type) where
  size : Nat
  toNat : α → Nat
  ofNat : Nat → α
  toNat_lt : ∀ a, toNat a < wordRange size
  ofNat_toNat : ∀ a, ofNat (toNat a) = a
  toNat_ofNat : ∀ k, k < wordRange size → toNat (ofNat k) = k

namespace Word

def bytes {α : Type} [Word α] (a : α) : List UInt8 := littleEndian (size α) (toNat a)

def ofBytes {α : Type} [Word α] (bytes : List UInt8) : α := ofNat (ofLittleEndian bytes)

@[simp] theorem length_bytes {α : Type} [Word α] (a : α) : (bytes a).length = size α :=
  length_littleEndian ..

@[simp] theorem ofBytes_bytes {α : Type} [Word α] (a : α) : ofBytes (bytes a) = a := by
  rw [ofBytes, bytes, ofLittleEndian_littleEndian, Nat.mod_eq_of_lt (toNat_lt a), ofNat_toNat]

theorem bytes_ofBytes {α : Type} [Word α] (l : List UInt8) (h : l.length = size α) :
    bytes (ofBytes l : α) = l := by
  rw [bytes, ofBytes, toNat_ofNat _ (h ▸ ofLittleEndian_lt l), ← h, littleEndian_ofLittleEndian]

end Word

instance : Word UInt8 where
  size := 1
  toNat := UInt8.toNat
  ofNat := UInt8.ofNat
  toNat_lt a := a.toNat_lt
  ofNat_toNat a := UInt8.ofNat_toNat
  toNat_ofNat k h := by rw [UInt8.toNat_ofNat']; exact Nat.mod_eq_of_lt h

instance : Word UInt32 where
  size := 4
  toNat := UInt32.toNat
  ofNat := UInt32.ofNat
  toNat_lt a := a.toNat_lt
  ofNat_toNat a := UInt32.ofNat_toNat
  toNat_ofNat k h := by rw [UInt32.toNat_ofNat']; exact Nat.mod_eq_of_lt h

instance : Word UInt64 where
  size := 8
  toNat := UInt64.toNat
  ofNat := UInt64.ofNat
  toNat_lt a := a.toNat_lt
  ofNat_toNat a := UInt64.ofNat_toNat
  toNat_ofNat k h := by rw [UInt64.toNat_ofNat']; exact Nat.mod_eq_of_lt h

/-- A signed word is stored in two's complement. -/
instance : Word Int64 where
  size := 8
  toNat a := a.toUInt64.toNat
  ofNat k := (UInt64.ofNat k).toInt64
  toNat_lt a := a.toUInt64.toNat_lt
  ofNat_toNat a := by rw [UInt64.ofNat_toNat]; rfl
  toNat_ofNat k h := by
    show ((UInt64.ofNat k).toInt64).toUInt64.toNat = k
    rw [show (UInt64.ofNat k).toInt64.toUInt64 = UInt64.ofNat k from rfl, UInt64.toNat_ofNat']
    exact Nat.mod_eq_of_lt h

end SharedCounters
