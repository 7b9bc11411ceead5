import SharedCounters.Proofs.Logs
import SharedCounters.Proofs.Windows
import SharedCounters.Writing.Allocation

/-! Runs of operations, with a record of what happened. While a counter is being allocated others may
act, and their allocations may be interrupted in the same way, to any depth. The record has the log and
the memory of every moment at which anybody can look at it. -/

namespace SharedCounters

/-- A moment at which anybody can look at the memory. -/
structure Moment (n : Nat) where
  log : Log
  memory : Memory n

structure History (n : Nat) where
  log : Log
  trace : List (Moment n)

abbrev Stage (n : Nat) := History n × Memory n

section Stages

variable {n : Nat}

def now (s : Stage n) : Moment n := ⟨s.1.log, s.2⟩

def note (event : Event) (s : Stage n) : Stage n := ({ s.1 with log := event :: s.1.log }, s.2)

def look (s : Stage n) : Stage n := ({ s.1 with trace := now s :: s.1.trace }, s.2)

def opening (m : Memory n) : Stage n := look (⟨[], []⟩, m)

def endAllocate (id : UInt64) (label : String) (initial : Int64) :
    EStateM.Result Fault (Stage n) (Except Refusal Placement) → Stage n
  | .ok (.ok placement) s => note (.allocated placement.slot ⟨id, keptLabel label, initial⟩) s
  | .ok (.error _) s => note (.refused id) s
  | .error fault s => note (.crashed fault) s

def endFree (id : UInt64) (history : History n) : EStateM.Result Fault (Memory n) Bool → Stage n
  | .ok true m => note (.freed id) (history, m)
  | .ok false m => (history, m)
  | .error fault m => note (.crashed fault) (history, m)

def endStore (slot : Nat) (value : Int64) (history : History n) :
    EStateM.Result Fault (Memory n) Unit → Stage n
  | .ok () m => note (.stored slot value) (history, m)
  | .error fault m => note (.crashed fault) (note (.stored slot value) (history, m))

theorem live_of_endStore {slot : Nat} {value : Int64} {history : History n}
    {result : EStateM.Result Fault (Memory n) Unit}
    (proper : Log.Proper (endStore slot value history result).1.log) :
    ∃ e ∈ Register.ofLog history.log, e.slot = slot := by
  rcases result with ⟨_, m⟩ | ⟨fault, m⟩
  · exact (Log.proper_cons.1 proper).1
  · exact (Log.proper_cons.1 (Log.proper_cons.1 proper).2).1

end Stages

/-- An operation, and for an allocation what the others do each time it may be interrupted. They may
go by the slot at hand and by all that happened so far. -/
inductive Action (n : Nat)
  | allocate (id : UInt64) (label : String) (initial : Int64) (limit : RetryLimit)
      (plan : Nat → Stage n → List (Action n))
  | free (id : UInt64)
  | store (slot : Nat) (value : Int64) (how : StoreOrder)

namespace Blocks

variable {n : Nat} (b : Blocks n)

mutual

def act : Action n → Stage n → Stage n
  | .allocate id label initial limit plan, s =>
    endAllocate id label initial (b.allocateAmong (fun slot s => actAll (plan slot s) (look s)) id label
      initial limit (note (.asked id) s))
  | .free id, s => endFree id s.1 (b.free id s.2)
  | .store slot value how, s =>
    endStore slot value s.1 (b.values.store (valueOffset slot) value how.order s.2)

def actAll : List (Action n) → Stage n → Stage n
  | [], s => s
  | action :: rest, s => actAll rest (look (act action s))

end

end Blocks

end SharedCounters
