import SharedCounters.Proofs.Changes

/-! What a scan finds when nobody else acts, whatever the slots hold: unknown statuses, one id in several
slots, slots in use behind one that never was. A listing shows the live slots that no unused slot lies
before. Freeing and looking up end at the first slot whose word does not send them on. -/

namespace SharedCounters.Blocks

variable {n : Nat} (b : Blocks n)

/-- The slot is live and a scan gets there. -/
def Shown (m : Memory n) (slot : Nat) : Prop := b.Live m slot ∧ ∀ j, j < slot → b.Touched m j

instance (m : Memory n) (slot : Nat) : Decidable (b.Touched m slot) := inferInstanceAs (Decidable (_ ≠ _))

instance (m : Memory n) (slot : Nat) : Decidable (b.Live m slot) := inferInstanceAs (Decidable (_ = _))

instance (m : Memory n) (slot : Nat) : Decidable (b.Shown m slot) := inferInstanceAs (Decidable (_ ∧ _))

def shown (m : Memory n) : List Nat := (List.range b.partition.slots).filter fun slot => b.Shown m slot

/-- Where a search among the `rest` slots from `slot` on ends, if the counter is there. -/
def holderFrom (m : Memory n) (id : UInt64) : (rest slot : Nat) → Option Nat
  | 0, _ => none
  | rest + 1, slot =>
    match SlotWord.verdict id (b.slotWord m slot) with
    | .stop => none
    | .next => holderFrom m id rest (slot + 1)
    | .here => some slot

def holder (m : Memory n) (id : UInt64) : Option Nat := b.holderFrom m id b.partition.slots 0

/-- What freeing an id makes of a memory. -/
def freed (m : Memory n) (id : UInt64) : Memory n :=
  match b.holder m id with
  | some k => b.released m k
  | none => m

variable {b} {m : Memory n} {id : UInt64} {k : Nat}

theorem mem_shown : k ∈ b.shown m ↔ k < b.partition.slots ∧ b.Live m k ∧ ∀ j, j < k → b.Touched m j := by
  rw [shown, List.mem_filter, List.mem_range, decide_eq_true_eq, Shown]

theorem pairwise_shown : (b.shown m).Pairwise (· < ·) := List.pairwise_lt_range.filter _

theorem holderFrom_eq_some_iff (rest slot : Nat) : b.holderFrom m id rest slot = some k ↔
    (slot ≤ k ∧ k < slot + rest) ∧ SlotWord.verdict id (b.slotWord m k) = .here ∧
      ∀ j, slot ≤ j → j < k → SlotWord.verdict id (b.slotWord m j) = .next := by
  induction rest generalizing slot with
  | zero =>
    rw [holderFrom]
    constructor
    · intro h
      cases h
    · rintro ⟨bounds, -⟩
      omega
  | succ rest ih =>
    rw [holderFrom]
    cases hv : SlotWord.verdict id (b.slotWord m slot) with
    | stop =>
      constructor
      · intro h
        cases h
      · rintro ⟨⟨le, -⟩, here, before⟩
        rcases Nat.eq_or_lt_of_le le with rfl | lt
        · cases hv.symm.trans here
        · cases hv.symm.trans (before slot (Nat.le_refl _) lt)
    | next =>
      rw [ih (slot + 1)]
      constructor
      · rintro ⟨bounds, here, before⟩
        refine ⟨by omega, here, fun j le lt => ?_⟩
        rcases Nat.eq_or_lt_of_le le with rfl | later
        · exact hv
        · exact before j later lt
      · rintro ⟨⟨le, lt⟩, here, before⟩
        have ne : slot ≠ k := by
          rintro rfl
          cases hv.symm.trans here
        exact ⟨by omega, here, fun j later => before j (by omega)⟩
    | here =>
      rw [Option.some.injEq]
      constructor
      · rintro rfl
        exact ⟨by omega, hv, fun j le lt => absurd lt (Nat.not_lt.2 le)⟩
      · rintro ⟨⟨le, -⟩, -, before⟩
        rcases Nat.eq_or_lt_of_le le with rfl | lt
        · rfl
        · cases hv.symm.trans (before slot (Nat.le_refl _) lt)

/-- A search ends at the first slot that has the id, if a listing shows it. -/
theorem holder_eq_some_iff : b.holder m id = some k ↔ k ∈ b.shown m ∧
    SlotWord.id (b.slotWord m k) = id ∧ ∀ j, j < k → SlotWord.id (b.slotWord m j) ≠ id := by
  rw [holder, holderFrom_eq_some_iff, mem_shown]
  simp only [verdict_eq_here_iff, verdict_eq_next_iff]
  constructor
  · rintro ⟨⟨-, lt⟩, ⟨live, same⟩, before⟩
    exact ⟨⟨by omega, live, fun j hj => (before j (Nat.zero_le j) hj).1⟩, same,
      fun j hj => (before j (Nat.zero_le j) hj).2⟩
  · rintro ⟨⟨lt, live, touched⟩, same, first⟩
    exact ⟨⟨Nat.zero_le k, by omega⟩, ⟨live, same⟩, fun j _ hj => ⟨touched j hj, first j hj⟩⟩

theorem find?_shown (h : b.holder m id = some k) :
    (b.shown m).find? (fun j => (b.slotReading m j).id = id) = some k := by
  obtain ⟨mem, same, first⟩ := holder_eq_some_iff.1 h
  rw [shown, List.mem_filter, decide_eq_true_eq] at mem
  have least : (List.range b.partition.slots).find?
      (fun j => b.Shown m j ∧ (b.slotReading m j).id = id) = some k := by
    refine List.find?_range_eq_some.2 ⟨decide_eq_true ⟨mem.2, same⟩, mem.1, fun j hj => ?_⟩
    rw [decide_eq_false fun h => first j hj h.2]
    rfl
  rw [shown, List.find?_filter]
  simp only [decide_eq_true_eq]
  exact least

theorem holderFrom_congr {m' : Memory n} (rest slot : Nat)
    (same : ∀ j, slot ≤ j → j < slot + rest →
      SlotWord.verdict id (b.slotWord m' j) = SlotWord.verdict id (b.slotWord m j)) :
    b.holderFrom m' id rest slot = b.holderFrom m id rest slot := by
  induction rest generalizing slot with
  | zero => rfl
  | succ rest ih =>
    rw [holderFrom, holderFrom, same slot (Nat.le_refl _) (by omega),
      ih (slot + 1) fun j le lt => same j (by omega) (by omega)]

section Scans

variable (aligned : b.Aligned)

include aligned

theorem liveFrom_alone (rest slot : Nat) (all : slot + rest = b.partition.slots)
    (before : ∀ j, j < slot → b.Touched m j) :
    b.liveFrom alone rest slot ((), m) =
      .ok (((List.range' slot rest).filter fun j => b.Shown m j).map (b.slotReading m)) ((), m) := by
  induction rest generalizing slot with
  | zero => rfl
  | succ rest ih =>
    rw [liveFrom_succ aligned alone (by omega), List.range'_succ]
    by_cases touched : b.Touched m slot
    · have later := ih (slot + 1) (by omega) fun j hj => by
        rcases Nat.eq_or_lt_of_le (Nat.le_of_lt_succ hj) with rfl | lt
        · exact touched
        · exact before j lt
      by_cases live : b.Live m slot
      · have here : decide (b.Shown m slot) = true := decide_eq_true ⟨live, before⟩
        rw [List.filter_cons, if_pos here, live.status]
        simp only [alone, later, if_true, List.map_cons]
      · have hidden : ¬ decide (b.Shown m slot) = true := fun h => live (of_decide_eq_true h).1
        rw [List.filter_cons, if_neg hidden, ← later]
        split
        · next unused => exact absurd unused touched
        · next allocated => exact absurd allocated live
        · rfl
    · -- the scan ends here, and no slot behind this one is shown
      have none : (slot :: List.range' (slot + 1) rest).filter (fun j => b.Shown m j) = [] := by
        refine List.filter_eq_nil_iff.2 fun j hj => ?_
        rw [decide_eq_true_eq]
        rintro ⟨live, reached⟩
        rcases List.mem_cons.1 hj with rfl | hj
        · exact touched live.touched
        · exact touched (reached slot (by have := (List.mem_range'_1.1 hj).1; omega))
      rw [none, not_not.1 touched]
      rfl

theorem liveCounters_eq_shown : b.liveCounters m = .ok ((b.shown m).map (b.slotReading m)) := by
  have run := liveFrom_alone (m := m) aligned b.partition.slots 0 (Nat.zero_add _) fun j hj =>
    absurd hj (Nat.not_lt_zero j)
  rw [← List.range_eq_range'] at run
  simp only [liveCounters, Contended.quietRead, liveAmong, run, shown]

theorem freeFrom_eq (rest slot : Nat) (all : slot + rest = b.partition.slots) :
    b.freeFrom id rest slot m =
      match b.holderFrom m id rest slot with
      | some k => .ok true (b.released m k)
      | none => .ok false m := by
  induction rest generalizing slot with
  | zero => rfl
  | succ rest ih =>
    rw [freeFrom_succ aligned (by omega), holderFrom]
    cases hv : SlotWord.verdict id (b.slotWord m slot) with
    | stop => rfl
    | next => exact ih (slot + 1) (by omega)
    | here =>
      obtain ⟨-, rfl⟩ := verdict_eq_here_iff.1 hv
      rfl

theorem free_eq : b.free id m = .ok (b.holder m id).isSome (b.freed m id) := by
  rw [free, freeFrom_eq aligned _ _ (Nat.zero_add _), freed, holder]
  cases b.holderFrom m id b.partition.slots 0 <;> rfl

theorem searchFrom_alone (rest slot : Nat) (all : slot + rest = b.partition.slots) :
    b.searchFrom alone id rest slot ((), m) =
      .ok ((b.holderFrom m id rest slot).map (b.slotHeld m)) ((), m) := by
  induction rest generalizing slot with
  | zero => rfl
  | succ rest ih =>
    rw [searchFrom_succ aligned alone (by omega), holderFrom]
    cases SlotWord.verdict id (b.slotWord m slot) with
    | stop => rfl
    | next => exact ih (slot + 1) (by omega)
    | here => exact if_pos rfl

theorem search_eq : b.search id m = .ok ((b.holder m id).map (b.slotHeld m)) := by
  have run : b.searchFrom alone id b.partition.slots 0 ((), m) = _ :=
    searchFrom_alone aligned b.partition.slots 0 (Nat.zero_add _)
  simp only [search, Contended.quietRead, searchAmong, run, holder]

theorem valueOf_eq : b.valueOf id m = .ok ((b.holder m id).map fun k => (b.slotReading m k).value) := by
  simp only [valueOf, bind, ReaderT.bind, Except.bind, search_eq aligned]
  cases b.holder m id <;> rfl

theorem labelOf_eq : b.labelOf id m = .ok ((b.holder m id).map fun k => (b.slotReading m k).label) := by
  simp only [labelOf, bind, ReaderT.bind, Except.bind, search_eq aligned]
  cases b.holder m id <;> rfl

end Scans

end SharedCounters.Blocks
