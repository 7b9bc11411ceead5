import SharedCounters.Proofs.Activity
import SharedCounters.Proofs.Fresh

/-! What every step of a run preserves. At each moment the memory mirrors the register of the log, and a
slot that was used carries the id of an allocation in the log. From one moment to a later one a slot
that is still unused keeps its word, and the memory changes only with an event that says so. -/

namespace SharedCounters.Blocks

variable {n : Nat} (b : Blocks n)

structure Consistent (t : Moment n) : Prop where
  orderly : b.Orderly t.memory
  mirrors : b.Mirrors t.memory (Register.ofLog t.log)
  tidy : t.log.Tidy
  issued : ∀ j, j < b.partition.slots → b.Touched t.memory j →
    ∃ counter, .allocated j counter ∈ t.log ∧ counter.id = SlotWord.id (b.slotWord t.memory j)

/-- From one moment to a later one. Where allocations only start or are refused nothing changes. -/
structure Keeps (s t : Moment n) : Prop where
  log : ∃ more, t.log = more ++ s.log ∧ ((∀ event ∈ more, event.Silent) → t.memory = s.memory)
  unused : ∀ j, j < b.partition.slots → ¬ b.Touched t.memory j →
    b.slotWord t.memory j = b.slotWord s.memory j

/-- All is well so far. -/
structure Sound (s : Stage n) : Prop where
  consistent : ∀ t ∈ now s :: s.1.trace, b.Consistent t
  kept : (now s :: s.1.trace).Pairwise fun later earlier => b.Keeps earlier later

/-- What is well at a stage still is at a later one, as long as the run is proper. -/
structure Later (s t : Stage n) : Prop where
  continues : Log.Continues s.1.log t.1.log
  sound : Log.Proper t.1.log → b.Sound s → b.Sound t ∧ b.Keeps (now s) (now t)

variable {b} {s t u : Stage n}

theorem Keeps.refl (t : Moment n) : b.Keeps t t := ⟨⟨[], rfl, fun _ => rfl⟩, fun _ _ _ => rfl⟩

theorem Keeps.touched {s t : Moment n} (h : b.Keeps s t) {j : Nat} (hj : j < b.partition.slots)
    (used : b.Touched s.memory j) : b.Touched t.memory j := by
  by_contra unused
  have same := h.unused j hj unused
  unfold Touched at used unused
  rw [same] at unused
  exact unused used

theorem Keeps.trans {s t u : Moment n} (h1 : b.Keeps s t) (h2 : b.Keeps t u) : b.Keeps s u where
  log := by
    obtain ⟨more, hm, silent⟩ := h1.log
    obtain ⟨more', hm', silent'⟩ := h2.log
    refine ⟨more' ++ more, by rw [hm', hm, List.append_assoc], fun h => ?_⟩
    rw [silent' fun event he => h event (List.mem_append_left _ he),
      silent fun event he => h event (List.mem_append_right _ he)]
  unused j hj unused := (h2.unused j hj unused).trans
    (h1.unused j hj fun used => unused (h2.touched hj used))

theorem Keeps.event {s t : Moment n} {event : Event} (log : t.log = event :: s.log)
    (effect : ¬ event.Silent ∨ t.memory = s.memory)
    (unused : ∀ j, j < b.partition.slots → ¬ b.Touched t.memory j →
      b.slotWord t.memory j = b.slotWord s.memory j) : b.Keeps s t where
  log := ⟨[event], log, fun silent => effect.resolve_left (not_not.2 (silent event List.mem_cons_self))⟩
  unused := unused

/-- The ids on used slots are still those of allocations if they stay where they are. -/
theorem Consistent.issued_after {s t : Moment n} {event : Event} (h : b.Consistent s)
    (log : t.log = event :: s.log)
    (used : ∀ j, j < b.partition.slots → b.Touched t.memory j → b.Touched s.memory j ∧
      SlotWord.id (b.slotWord t.memory j) = SlotWord.id (b.slotWord s.memory j)) :
    ∀ j, j < b.partition.slots → b.Touched t.memory j →
      ∃ counter, .allocated j counter ∈ t.log ∧ counter.id = SlotWord.id (b.slotWord t.memory j) := by
  intro j hj touched
  obtain ⟨touched, same⟩ := used j hj touched
  obtain ⟨counter, mem, issued⟩ := h.issued j hj touched
  rw [log]
  exact ⟨counter, List.mem_cons_of_mem _ mem, issued.trans same.symm⟩

theorem Sound.current (h : b.Sound s) : b.Consistent (now s) := h.consistent _ List.mem_cons_self

theorem Sound.step (h : b.Sound s) (trace : t.1.trace = s.1.trace) (consistent : b.Consistent (now t))
    (keeps : b.Keeps (now s) (now t)) : b.Sound t := by
  obtain ⟨first, later⟩ := List.pairwise_cons.1 h.kept
  refine ⟨fun r hr => ?_, ?_⟩
  · rcases List.mem_cons.1 hr with rfl | hr
    · exact consistent
    · exact h.consistent r (List.mem_cons_of_mem _ (trace ▸ hr))
  · rw [trace]
    exact List.pairwise_cons.2 ⟨fun r hr => (first r hr).trans keeps, later⟩

theorem Sound.looked (h : b.Sound s) : b.Sound (look s) := by
  refine ⟨fun r hr => ?_, List.pairwise_cons.2 ⟨fun r hr => ?_, h.kept⟩⟩
  · rcases List.mem_cons.1 hr with rfl | hr
    · exact h.current
    · exact h.consistent r hr
  · rcases List.mem_cons.1 hr with rfl | hr
    · exact Keeps.refl _
    · exact (List.pairwise_cons.1 h.kept).1 r hr

theorem Later.refl (s : Stage n) : b.Later s s :=
  ⟨Log.Continues.refl _, fun _ sound => ⟨sound, Keeps.refl _⟩⟩

theorem Later.trans (h1 : b.Later s t) (h2 : b.Later t u) : b.Later s u where
  continues := h1.continues.trans h2.continues
  sound proper sound := by
    obtain ⟨sound, keeps⟩ := h1.sound (proper.earlier h2.continues.suffix) sound
    obtain ⟨sound', keeps'⟩ := h2.sound proper sound
    exact ⟨sound', keeps.trans keeps'⟩

theorem Later.looked (s : Stage n) : b.Later s (look s) :=
  ⟨Log.Continues.refl _, fun _ sound => ⟨sound.looked, Keeps.refl _⟩⟩

theorem Later.ask (s : Stage n) (id : UInt64) : b.Later s (note (.asked id) s) where
  continues := Log.Continues.event _ rfl
  sound _ sound := by
    have keeps : b.Keeps (now s) (now (note (.asked id) s)) :=
      Keeps.event rfl (Or.inr rfl) fun _ _ _ => rfl
    obtain ⟨orderly, mirrors, tidy, -⟩ := sound.current
    exact ⟨sound.step rfl ⟨orderly, mirrors, tidy.ask,
      sound.current.issued_after rfl fun _ _ used => ⟨used, rfl⟩⟩ keeps, keeps⟩

section Steps

variable (aligned : b.Aligned)

include aligned

theorem later_free (id : UInt64) (s : Stage n) : b.Later s (b.act (.free id) s) := by
  rw [act]
  constructor
  · rcases b.free id s.2 with ⟨_ | _, m⟩ | ⟨fault, m⟩
    · exact Log.Continues.refl _
    · exact Log.Continues.event _ rfl
    · exact Log.Continues.event _ rfl
  · intro _ sound
    obtain ⟨orderly, mirrors, tidy, -⟩ := sound.current
    by_cases present : ∃ e ∈ Register.ofLog s.1.log, e.id = id
    · obtain ⟨e, he, rfl⟩ := present
      have hk := mirrors.lt he
      have run : b.free e.id s.2 = .ok true (b.released s.2 e.slot) := free_mem aligned mirrors orderly he
      rw [run]
      have keeps : b.Keeps (now s) (now (note (.freed e.id) (s.1, b.released s.2 e.slot))) := by
        refine Keeps.event rfl (Or.inl not_false) fun j hj unused => ?_
        have apart : j ≠ e.slot := fun h => unused ((touched_released hk hj).2 (Or.inl h))
        show b.slotWord (b.released s.2 e.slot) j = b.slotWord s.2 j
        rw [released, slotWord_withWord b hk hj, if_neg apart]
      refine ⟨sound.step rfl ⟨orderly.released hk (mirrors.live he), mirrors.released orderly he,
        tidy.free he, sound.current.issued_after rfl fun j hj used => ⟨?_, id_released hk hj⟩⟩ keeps, keeps⟩
      rcases (touched_released hk hj).1 used with rfl | used
      · exact (mirrors.live he).touched
      · exact used
    · push Not at present
      have run : b.free id s.2 = .ok false s.2 := free_absent aligned mirrors present
      rw [run]
      exact ⟨sound, Keeps.refl _⟩

theorem later_store (slot : Nat) (value : Int64) (how : StoreOrder) (s : Stage n) :
    b.Later s (b.act (.store slot value how) s) := by
  rw [act]
  constructor
  · rcases b.values.store (valueOffset slot) value how.order s.2 with ⟨_, m⟩ | ⟨fault, m⟩
    · exact Log.Continues.event _ rfl
    · exact (Log.Continues.event (.stored slot value) rfl).trans (Log.Continues.event _ rfl)
  · intro proper sound
    obtain ⟨orderly, mirrors, tidy, -⟩ := sound.current
    obtain ⟨e, he, rfl⟩ := live_of_endStore proper
    have hk := mirrors.lt he
    rw [storeValue_eq aligned hk s.2 value how.admitted]
    have words := fun j (hj : j < b.partition.slots) => slotWord_withValue b hk hj s.2 value
    have keeps : b.Keeps (now s) (now (note (.stored e.slot value) (s.1, b.withValue s.2 e.slot value))) :=
      Keeps.event rfl (Or.inl not_false) fun j hj _ => words j hj
    refine ⟨sound.step rfl ⟨orderly.withValue hk, mirrors.withValue hk, tidy.store,
      sound.current.issued_after rfl fun j hj used => ⟨?_, congrArg SlotWord.id (words j hj)⟩⟩ keeps, keeps⟩
    intro unused
    exact used ((congrArg SlotWord.status? (words j hj)).trans unused)

end Steps

end SharedCounters.Blocks
