import SharedCounters.Machine.Access

/-! Windows over a shared memory of `n` bytes. A window never reaches beyond the memory, and a
window cut from another never beyond that one. The memory starts at an aligned address, so the
distance from its start decides whether an access is aligned. -/

namespace SharedCounters

structure Window (n : Nat) where
  base : Nat
  len : Nat
  fits : base + len ≤ n

namespace Window

variable {n : Nat} {α : Type}

def whole (n : Nat) : Window n := ⟨0, n, by omega⟩

def part (w : Window n) (offset len : Nat) (h : offset + len ≤ w.len) : Window n :=
  ⟨w.base + offset, len, by have := w.fits; omega⟩

def covers (w : Window n) (offset size : Nat) : Except Fault Unit :=
  if offset + size ≤ w.len then .ok () else .error (.outOfBounds size offset w.len)

/-- The address of a word of `size` bytes. Bounds come before alignment. -/
def locate (w : Window n) (offset size : Nat) : Except Fault Nat :=
  if offset + size ≤ w.len then
    if (w.base + offset) % size = 0 then .ok (w.base + offset)
    else .error (.misaligned size offset)
  else .error (.outOfBounds size offset w.len)

def cut (w : Window n) (offset len : Nat) : Except Fault (Window n) :=
  if h : offset + len ≤ w.len then .ok (w.part offset len h)
  else .error (.outOfBounds len offset w.len)

/-- The word at an address that was located. -/
def wordAt [Word α] (m : Memory n) (address : Nat) : α := Word.ofBytes (m.read address (Word.size α))

def load [Word α] (w : Window n) (offset : Nat) (order : Order) : Read n α := fun m =>
  match w.locate offset (Word.size α) with
  | .error fault => .error fault
  | .ok address =>
    match order.loadClash with
    | some clash => .error (.order clash)
    | none => .ok (wordAt m address)

def store [Word α] (w : Window n) (offset : Nat) (value : α) (order : Order) : Write n Unit := fun m =>
  match w.locate offset (Word.size α) with
  | .error fault => .error fault m
  | .ok address =>
    match order.storeClash with
    | some clash => .error (.order clash) m
    | none => .ok () (m.write address (Word.bytes value))

/-- Replaces the word by what `next` makes of it, in one step. -/
def update [Word α] (w : Window n) (offset : Nat) (next : α → α) : Write n α := fun m =>
  match w.locate offset (Word.size α) with
  | .error fault => .error fault m
  | .ok address =>
    let old : α := wordAt m address
    .ok old (m.write address (Word.bytes (next old)))

def swap [Word α] (w : Window n) (offset : Nat) (value : α) : Write n α :=
  w.update offset fun _ => value

/-- Sums wrap around. -/
def fetchAdd (w : Window n) (offset : Nat) (delta : Int64) : Write n Int64 :=
  w.update offset fun old => old + delta

def compareExchange [Word α] [DecidableEq α] (w : Window n) (offset : Nat) (current new : α) :
    Write n (Exchange α) := fun m =>
  match w.locate offset (Word.size α) with
  | .error fault => .error fault m
  | .ok address =>
    let old : α := wordAt m address
    if old = current then .ok (.swapped old) (m.write address (Word.bytes new))
    else .ok (.found old) m

def storeBytes (w : Window n) (offset : Nat) (bytes : List UInt8) : Write n Unit := fun m =>
  if offset + bytes.length ≤ w.len then .ok () (m.write (w.base + offset) bytes)
  else .error (.outOfBounds bytes.length offset w.len) m

def loadBytes (w : Window n) (offset len : Nat) : Read n (List UInt8) := fun m =>
  if offset + len ≤ w.len then .ok (m.read (w.base + offset) len)
  else .error (.outOfBounds len offset w.len)

def contents (w : Window n) (m : Memory n) : List UInt8 := m.read w.base w.len

/-- The address is shown as it is given. -/
def describe (w : Window n) (address : String) : String :=
  s!"MemoryView \x7b ptr: {address}, len: {w.len} \x7d"

end Window

end SharedCounters
