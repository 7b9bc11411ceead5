import SharedCounters.Machine.Access

/-! Operations that others may interfere with. Between two steps of such an operation anything may
happen to the memory; what does is a function of the slot at hand, of the memory and of a state of
the interfering party. -/

namespace SharedCounters

/-- Others act on the memory and on a state of their own. -/
abbrev Interference (κ : Type) (n : Nat) := Nat → κ × Memory n → κ × Memory n

/-- A step of an operation that others may interfere with. -/
abbrev Contended (κ : Type) (n : Nat) := EStateM Fault (κ × Memory n)

def alone {n : Nat} : Interference Unit n := fun _ s => s

namespace Contended

variable {κ α : Type} {n : Nat}

instance : MonadLift (Write n) (Contended κ n) where
  monadLift write s :=
    match s with
    | (k, m) =>
      match write m with
      | .ok a m => .ok a (k, m)
      | .error fault m => .error fault (k, m)

def yield (others : Interference κ n) (slot : Nat) : Contended κ n Unit := fun s => .ok () (others slot s)

/-- The operation without anybody else, as one that writes. -/
def quietWrite (operation : Contended Unit n α) : Write n α := fun m =>
  match operation ((), m) with
  | .ok a (_, m) => .ok a m
  | .error fault (_, m) => .error fault m

def quietRead (operation : Contended Unit n α) : Read n α := fun m =>
  match operation ((), m) with
  | .ok a _ => .ok a
  | .error fault _ => .error fault

end Contended

end SharedCounters
