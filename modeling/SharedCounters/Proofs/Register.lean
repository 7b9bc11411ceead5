import Mathlib.Data.List.Sort
import SharedCounters.Reading.Scan

/-! The register of live counters: what a reader should see, kept apart from any memory. Entries come in
the order of their slots, and two registers in that order with the same entries are equal. -/

namespace SharedCounters

/-- A live counter and the slot it is in. -/
structure Entry where
  slot : Nat
  counter : Reading
  deriving DecidableEq, Repr

namespace Entry

def id (e : Entry) : UInt64 := e.counter.id

def before (d e : Entry) : Prop := d.slot < e.slot

instance : Std.Irrefl before := ⟨fun e => Nat.lt_irrefl e.slot⟩

instance : Std.Antisymm before := ⟨fun _ _ h1 h2 => absurd h1 (Nat.lt_asymm h2)⟩

end Entry

abbrev Register := List Entry

namespace Register

/-- Keeps an entry that is already there. -/
def add (e : Entry) : Register → Register
  | [] => [e]
  | d :: rest => if e.slot ≤ d.slot then e :: d :: rest else d :: add e rest

def drop (id : UInt64) (r : Register) : Register := r.filter fun e => e.id ≠ id

def set (slot : Nat) (value : Int64) (r : Register) : Register :=
  r.map fun e => if e.slot = slot then { e with counter := { e.counter with value := value } } else e

def InOrder (r : Register) : Prop := r.Pairwise Entry.before

def listing (r : Register) : List Reading := r.map Entry.counter

variable {r : Register} {d e : Entry} {id : UInt64} {slot : Nat} {value : Int64}

@[simp] theorem mem_add : d ∈ add e r ↔ d = e ∨ d ∈ r := by
  induction r with
  | nil => simp [add]
  | cons x rest ih =>
    rw [add]
    split_ifs
    · simp
    · simp [ih, or_left_comm]

@[simp] theorem mem_drop : e ∈ drop id r ↔ e ∈ r ∧ e.id ≠ id := by
  simp [drop]

theorem mem_set : e ∈ set slot value r ↔ ∃ d ∈ r, e.slot = d.slot ∧
    e.counter = if d.slot = slot then { d.counter with value := value } else d.counter := by
  simp only [set, List.mem_map]
  constructor
  · rintro ⟨d, hd, rfl⟩
    refine ⟨d, hd, ?_⟩
    split_ifs <;> exact ⟨rfl, rfl⟩
  · rintro ⟨d, hd, hs, hc⟩
    refine ⟨d, hd, ?_⟩
    obtain ⟨es, ec⟩ := e
    dsimp only at hs hc
    rw [hs, hc]
    split_ifs <;> rfl

theorem InOrder.add (h : InOrder r) (new : ∀ d ∈ r, d.slot ≠ e.slot) : InOrder (add e r) := by
  induction r with
  | nil => exact List.pairwise_singleton _ _
  | cons d rest ih =>
    obtain ⟨hd, hrest⟩ := List.pairwise_cons.1 h
    have hne := new d List.mem_cons_self
    rw [Register.add]
    split_ifs with hle
    · refine List.pairwise_cons.2 ⟨fun x hx => ?_, h⟩
      have first : e.slot < d.slot := by omega
      rcases List.mem_cons.1 hx with rfl | hx
      · exact first
      · exact Nat.lt_trans first (hd x hx)
    · refine List.pairwise_cons.2 ⟨fun x hx => ?_, ih hrest fun x hx => new x (List.mem_cons_of_mem _ hx)⟩
      rcases mem_add.1 hx with rfl | hx
      · exact Nat.lt_of_not_le hle
      · exact hd x hx

theorem InOrder.drop (h : InOrder r) : InOrder (drop id r) := List.Pairwise.filter _ h

theorem InOrder.set (h : InOrder r) : InOrder (set slot value r) := by
  refine List.pairwise_map.2 (h.imp fun {d e} hde => ?_)
  unfold Entry.before at hde ⊢
  split_ifs <;> exact hde

theorem InOrder.ext {r' : Register} (h : InOrder r) (h' : InOrder r') (mem : ∀ e, e ∈ r ↔ e ∈ r') :
    r = r' :=
  List.Pairwise.eq_of_mem_iff h h' mem

end Register

end SharedCounters
