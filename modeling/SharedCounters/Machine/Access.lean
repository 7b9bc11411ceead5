import SharedCounters.Machine.Memory

/-! What an access to a shared memory can ask for, and how it can be refused. Reading needs the
memory only; writing also changes it, and what was written before a refused access stays. -/

namespace SharedCounters

inductive Order
  | relaxed | acquire | release | acqRel | seqCst
  deriving DecidableEq, Repr

/-- A load cannot publish and a store cannot acquire. -/
inductive OrderClash
  | releaseLoad | acqRelLoad | acquireStore | acqRelStore
  deriving DecidableEq, Repr

def Order.loadClash : Order → Option OrderClash
  | .release => some .releaseLoad
  | .acqRel => some .acqRelLoad
  | _ => none

def Order.storeClash : Order → Option OrderClash
  | .acquire => some .acquireStore
  | .acqRel => some .acqRelStore
  | _ => none

def OrderClash.message : OrderClash → String
  | .releaseLoad => "there is no such thing as a release load"
  | .acqRelLoad => "there is no such thing as an acquire-release load"
  | .acquireStore => "there is no such thing as an acquire store"
  | .acqRelStore => "there is no such thing as an acquire-release store"

/-- A programming error: nothing was read or written. -/
inductive Fault
  | outOfBounds (size offset len : Nat)
  | misaligned (size offset : Nat)
  | order (clash : OrderClash)
  deriving DecidableEq, Repr

def Fault.message : Fault → String
  | .outOfBounds size offset len =>
    s!"access of {size} bytes at offset {offset} is out of bounds of a view of {len} bytes"
  | .misaligned size offset => s!"misaligned access of {size} bytes at offset {offset}"
  | .order clash => clash.message

abbrev Read (n : Nat) := ReaderT (Memory n) (Except Fault)

abbrev Write (n : Nat) := EStateM Fault (Memory n)

instance {n : Nat} : MonadLift (Read n) (Write n) where
  monadLift read m :=
    match read m with
    | .ok a => .ok a m
    | .error fault => .error fault m

/-- What a compare-and-swap found: the expected word, now replaced, or another one. -/
inductive Exchange (α : Type)
  | swapped (old : α)
  | found (actual : α)
  deriving DecidableEq, Repr

end SharedCounters
