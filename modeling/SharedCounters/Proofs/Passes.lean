import SharedCounters.Proofs.Interruption

/-! A pass over the slots while others act. Every slot that is live when the pass comes to it is visited,
and reported if its word is the same after the others acted. A slot that is not visited was not live, or
lies behind one that was never used, at some stage of the pass. -/

namespace SharedCounters

/-- A slot that was read, with the stage at that moment and the one after the others acted. -/
structure SlotVisit (n : Nat) where
  slot : Nat
  before : Stage n
  after : Stage n

namespace Blocks

variable {n : Nat} (b : Blocks n)

/-- Others who act by a plan, with a record of the visits, the latest first. -/
def watched (plan : Nat → Stage n → List (Action n)) : Interference (List (SlotVisit n) × History n) n :=
  fun slot s =>
    let before : Stage n := (s.1.2, s.2)
    let after := b.actAll (plan slot before) (look before)
    ((⟨slot, before, after⟩ :: s.1.1, after.1), after.2)

def unchanged (v : SlotVisit n) : Bool := b.slotWord v.after.2 v.slot == b.slotWord v.before.2 v.slot

/-- What a pass makes of its visits. -/
def reported (visits : List (SlotVisit n)) : Register :=
  (visits.filter b.unchanged).map fun v => ⟨v.slot, b.slotReading v.before.2 v.slot⟩

/-- A pass from a slot on, from one stage to another. -/
structure Passes (plan : Nat → Stage n → List (Action n)) (slot : Nat) (s : Stage n)
    (visits : List (SlotVisit n)) (u : Stage n) : Prop where
  inOrder : visits.Pairwise fun v w => v.slot < w.slot
  bounds : ∀ v ∈ visits, slot ≤ v.slot ∧ v.slot < b.partition.slots
  live : ∀ v ∈ visits, b.Live v.before.2 v.slot
  acted : ∀ v ∈ visits, v.after = b.actAll (plan v.slot v.before) (look v.before)
  stages : ∀ v ∈ visits, b.Later s v.before ∧ b.Later v.before v.after ∧ b.Later v.after u
  missed : ∀ j, slot ≤ j → j < b.partition.slots → (∃ v ∈ visits, v.slot = j) ∨
    ∃ t, b.Later s t ∧ b.Later t u ∧ (¬ b.Live t.2 j ∨ ∃ i, i ≤ j ∧ ¬ b.Touched t.2 i)
  later : b.Later s u

variable {b} {plan : Nat → Stage n → List (Action n)} {slot : Nat} {s u : Stage n}
  {visits : List (SlotVisit n)}

theorem Passes.over (behind : ∀ j, slot ≤ j → j < b.partition.slots →
    ∃ i, i ≤ j ∧ ¬ b.Touched s.2 i) : b.Passes plan slot s [] s where
  inOrder := List.Pairwise.nil
  bounds _ h := absurd h List.not_mem_nil
  live _ h := absurd h List.not_mem_nil
  acted _ h := absurd h List.not_mem_nil
  stages _ h := absurd h List.not_mem_nil
  missed j h1 h2 := Or.inr ⟨s, Later.refl s, Later.refl s, Or.inr (behind j h1 h2)⟩
  later := Later.refl s

theorem Passes.skip (idle : ¬ b.Live s.2 slot) (rest : b.Passes plan (slot + 1) s visits u) :
    b.Passes plan slot s visits u where
  inOrder := rest.inOrder
  bounds v hv := ⟨Nat.le_of_succ_le (rest.bounds v hv).1, (rest.bounds v hv).2⟩
  live := rest.live
  acted := rest.acted
  stages := rest.stages
  missed j h1 h2 := by
    rcases Nat.lt_or_eq_of_le h1 with hlt | rfl
    · exact rest.missed j hlt h2
    · exact Or.inr ⟨s, Later.refl s, rest.later, Or.inl idle⟩
  later := rest.later

theorem Passes.visit (h : slot < b.partition.slots) (live : b.Live s.2 slot) {after : Stage n}
    (acted : after = b.actAll (plan slot s) (look s)) (step : b.Later s after)
    (rest : b.Passes plan (slot + 1) after visits u) :
    b.Passes plan slot s (⟨slot, s, after⟩ :: visits) u where
  inOrder := List.pairwise_cons.2 ⟨fun v hv => (rest.bounds v hv).1, rest.inOrder⟩
  bounds := List.forall_mem_cons.2 ⟨⟨Nat.le_refl slot, h⟩,
    fun v hv => ⟨Nat.le_of_succ_le (rest.bounds v hv).1, (rest.bounds v hv).2⟩⟩
  live := List.forall_mem_cons.2 ⟨live, rest.live⟩
  acted := List.forall_mem_cons.2 ⟨acted, rest.acted⟩
  stages := List.forall_mem_cons.2 ⟨⟨Later.refl s, step, rest.later⟩, fun v hv => by
    obtain ⟨h1, h2, h3⟩ := rest.stages v hv
    exact ⟨step.trans h1, h2, h3⟩⟩
  missed j h1 h2 := by
    rcases Nat.lt_or_eq_of_le h1 with hlt | rfl
    · rcases rest.missed j hlt h2 with ⟨v, hv, same⟩ | ⟨t, ht, hu, passed⟩
      · exact Or.inl ⟨v, List.mem_cons_of_mem _ hv, same⟩
      · exact Or.inr ⟨t, step.trans ht, hu, passed⟩
    · exact Or.inl ⟨_, List.mem_cons_self, rfl⟩
  later := step.trans rest.later

theorem liveFrom_watched (aligned : b.Aligned) (plan : Nat → Stage n → List (Action n)) (rest slot : Nat)
    (all : slot + rest = b.partition.slots) (earlier : List (SlotVisit n)) (s : Stage n) :
    ∃ visits u, b.Passes plan slot s visits u ∧
      b.liveFrom (b.watched plan) rest slot ((earlier, s.1), s.2) =
        .ok (b.reported visits).listing ((visits.reverse ++ earlier, u.1), u.2) := by
  induction rest generalizing slot earlier s with
  | zero => exact ⟨[], s, Passes.over fun j h1 h2 => by omega, rfl⟩
  | succ rest ih =>
    have h : slot < b.partition.slots := by omega
    by_cases used : b.Touched s.2 slot
    · by_cases live : b.Live s.2 slot
      · set after := b.actAll (plan slot s) (look s) with hafter
        have step : b.Later s after := (Later.looked s).trans (later_actAll aligned _ _)
        obtain ⟨visits, u, passes, run⟩ := ih (slot + 1) (by omega) (⟨slot, s, after⟩ :: earlier) after
        refine ⟨⟨slot, s, after⟩ :: visits, u, passes.visit h live hafter step, ?_⟩
        have acts : b.watched plan slot ((earlier, s.1), s.2) =
            ((⟨slot, s, after⟩ :: earlier, after.1), after.2) := rfl
        rw [liveFrom_succ aligned _ h, live.status]
        simp only [acts, run]
        have report : b.reported (⟨slot, s, after⟩ :: visits) =
            if b.slotWord after.2 slot = b.slotWord s.2 slot then
              ⟨slot, b.slotReading s.2 slot⟩ :: b.reported visits else b.reported visits := by
          simp only [reported, List.filter_cons, unchanged, beq_iff_eq]
          split_ifs <;> rfl
        rw [report]
        split_ifs <;> simp [Register.listing]
      · obtain ⟨visits, u, passes, run⟩ := ih (slot + 1) (by omega) earlier s
        refine ⟨visits, u, passes.skip live, ?_⟩
        rw [liveFrom_succ aligned _ h]
        rcases hs : SlotWord.status? (b.slotWord s.2 slot) with _ | _ | _ | _ | _
        · exact run
        · exact absurd hs used
        · exact run
        · exact absurd hs live
        · exact run
    · refine ⟨[], s, Passes.over fun j h1 _ => ⟨slot, h1, used⟩, ?_⟩
      rw [liveFrom_succ aligned _ h, not_not.1 used]
      rfl

end Blocks

end SharedCounters
