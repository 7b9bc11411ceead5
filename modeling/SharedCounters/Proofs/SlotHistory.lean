import SharedCounters.Proofs.Interruption

/-! How slots are used over a run. The slots that were used come before those that never were, and stay
used. Each carries an id of its own, also after it was freed, so a counter that was freed is never found
again. -/

namespace SharedCounters.Blocks

variable {n : Nat} (b : Blocks n)

/-- Slots are used in order, each by a counter of its own, and a freed counter is gone. -/
structure Disciplined (t : Moment n) : Prop where
  prefixed : ∃ used, used ≤ b.partition.slots ∧
    ∀ j, j < b.partition.slots → (b.Touched t.memory j ↔ j < used)
  distinct : ∀ i j, i < b.partition.slots → j < b.partition.slots → b.Touched t.memory i →
    b.Touched t.memory j → SlotWord.id (b.slotWord t.memory i) = SlotWord.id (b.slotWord t.memory j) → i = j
  settled : ∀ j, j < b.partition.slots → SlotWord.status? (b.slotWord t.memory j) = some .notUsed ∨
    SlotWord.status? (b.slotWord t.memory j) = some .allocated ∨
    SlotWord.status? (b.slotWord t.memory j) = some .freed
  gone : ∀ id, .freed id ∈ t.log →
    (∀ j, j < b.partition.slots → b.Live t.memory j → SlotWord.id (b.slotWord t.memory j) ≠ id) ∧
      b.valueOf id t.memory = .ok none ∧ b.labelOf id t.memory = .ok none

variable {b} {m : Memory n}

theorem Orderly.exists_prefix (orderly : b.Orderly m) : ∃ used, used ≤ b.partition.slots ∧
    ∀ j, j < b.partition.slots → (b.Touched m j ↔ j < used) := by
  suffices h : ∀ slots, slots ≤ b.partition.slots →
      ∃ used, used ≤ slots ∧ ∀ j, j < slots → (b.Touched m j ↔ j < used) from h _ (Nat.le_refl _)
  intro slots
  induction slots with
  | zero => exact fun _ => ⟨0, Nat.le_refl 0, fun j hj => absurd hj (Nat.not_lt_zero j)⟩
  | succ slots ih =>
    intro le
    obtain ⟨used, hused, below⟩ := ih (by omega)
    by_cases last : b.Touched m slots
    · -- then every slot before it is used as well
      refine ⟨slots + 1, Nat.le_refl _, fun j hj => ⟨fun _ => hj, fun _ => ?_⟩⟩
      rcases Nat.lt_or_eq_of_le (Nat.le_of_lt_succ hj) with hlt | rfl
      · exact orderly.filled j slots hlt (by omega) last
      · exact last
    · refine ⟨used, by omega, fun j hj => ?_⟩
      rcases Nat.lt_or_eq_of_le (Nat.le_of_lt_succ hj) with hlt | rfl
      · exact below j hlt
      · exact ⟨fun h => absurd h last, fun h => absurd h (by omega)⟩

theorem Consistent.disciplined (aligned : b.Aligned) {t : Moment n} (h : b.Consistent t) :
    b.Disciplined t where
  prefixed := h.orderly.exists_prefix
  distinct i j hi hj used used' same := by
    obtain ⟨counter, mem, hid⟩ := h.issued i hi used
    obtain ⟨counter', mem', hid'⟩ := h.issued j hj used'
    exact (h.tidy.eq_of_id mem mem' (by rw [hid, hid', same])).1
  settled j hj := by
    by_cases used : b.Touched t.memory j
    · exact Or.inr (h.orderly.known j hj used)
    · exact Or.inl (not_not.1 used)
  gone id freed := by
    obtain ⟨-, absent⟩ := h.tidy.gone id freed
    refine ⟨fun j hj live same => ?_, valueOf_absent aligned h.mirrors absent,
      labelOf_absent aligned h.mirrors absent⟩
    exact absent _ (h.mirrors.mem_of_live hj live) same

/-- Slots are disciplined at every moment. Later moments know of every event before them, and what was
used once stays so. -/
theorem disciplined_at_every_moment (unused : b.Unused m) (actions : List (Action n))
    (proper : Log.Proper (b.actAll actions (opening m)).1.log) :
    (∀ t ∈ (b.actAll actions (opening m)).1.trace, b.Disciplined t) ∧
      (b.actAll actions (opening m)).1.trace.Pairwise fun later earlier =>
        (∀ event ∈ earlier.log, event ∈ later.log) ∧
          ∀ j, j < b.partition.slots → b.Touched earlier.memory j → b.Touched later.memory j := by
  have sound := sound_actAll unused actions proper
  constructor
  · intro t ht
    exact (sound.consistent t (List.mem_cons_of_mem _ ht)).disciplined unused.aligned
  · refine (List.pairwise_cons.1 sound.kept).2.imp fun keeps => ⟨fun event mem => ?_, fun j hj used => ?_⟩
    · obtain ⟨more, hm, -⟩ := keeps.log
      rw [hm]
      exact List.mem_append_right _ mem
    · exact keeps.touched hj used

theorem disciplined_when_contested :
    oneSlot.Unused (Memory.zero _) ∧
    Log.Proper (oneSlot.actAll (contested _) (opening (Memory.zero _))).1.log ∧
    ∀ t ∈ (oneSlot.actAll (contested _) (opening (Memory.zero _))).1.trace, oneSlot.Disciplined t := by
  have unused : oneSlot.Unused (Memory.zero _) := unused_zero rfl
  exact ⟨unused, proper_contested,
    (disciplined_at_every_moment unused (contested _) proper_contested).1⟩

end SharedCounters.Blocks
