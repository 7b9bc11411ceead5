import SharedCounters.Proofs.Interruption

/-! At every moment of a run, however deep allocations interrupt each other, readers see the counters
whose allocation has returned and that were not freed since. An allocation under way cannot be seen, and
one that is refused never could. -/

namespace SharedCounters.Blocks

variable {n : Nat} (b : Blocks n)

/-- Readers see the register of the log: each counter that was allocated and not freed since, once, with
its label and the value last stored. -/
structure Faithful (t : Moment n) : Prop where
  listing : b.liveCounters t.memory = .ok (Register.ofLog t.log).listing
  once : ((Register.ofLog t.log).map Entry.id).Nodup
  listed_iff : ∀ id, (∃ e ∈ Register.ofLog t.log, e.id = id) ↔
    (∃ slot counter, .allocated slot counter ∈ t.log ∧ counter.id = id) ∧ .freed id ∉ t.log
  origin : ∀ e ∈ Register.ofLog t.log, ∃ since before initial,
    t.log = since ++ .allocated e.slot { e.counter with value := initial } :: before ∧
      e.counter.value = Log.lastStored e.slot initial since
  refused : ∀ id, .refused id ∈ t.log → ∀ e ∈ Register.ofLog t.log, e.id ≠ id
  calm : ∀ fault, .crashed fault ∉ t.log

variable {b} {m : Memory n}

theorem Consistent.faithful (aligned : b.Aligned) {t : Moment n} (h : b.Consistent t) : b.Faithful t where
  listing := liveCounters_eq h.mirrors aligned h.orderly
  once := h.mirrors.nodup_ids h.orderly
  listed_iff id := by
    constructor
    · rintro ⟨e, he, rfl⟩
      obtain ⟨initial, mem⟩ := Register.allocated_of_mem he
      exact ⟨⟨_, _, mem, rfl⟩, fun freed => (h.tidy.gone e.id freed).2 e he rfl⟩
    · rintro ⟨⟨slot, counter, mem, rfl⟩, kept⟩
      obtain ⟨value, he⟩ := Register.mem_of_allocated mem kept
      exact ⟨_, he, rfl⟩
  origin _ he := Register.origin_of_mem he
  refused id refused e he same := by
    obtain ⟨initial, mem⟩ := Register.allocated_of_mem he
    cases h.tidy.eq_of_settles mem refused (congrArg some same) rfl
  calm := h.tidy.calm

/-- Readers see the register of the log at every moment, and the memory is left as it was between two
moments unless a counter was allocated, freed or stored there. -/
theorem faithful_at_every_moment (unused : b.Unused m) (actions : List (Action n))
    (proper : Log.Proper (b.actAll actions (opening m)).1.log) :
    (∀ t ∈ (b.actAll actions (opening m)).1.trace, b.Faithful t) ∧
      (b.actAll actions (opening m)).1.trace.Pairwise fun later earlier =>
        ∃ more, later.log = more ++ earlier.log ∧
          ((∀ event ∈ more, event.Silent) → later.memory = earlier.memory) := by
  have sound := sound_actAll unused actions proper
  constructor
  · intro t ht
    exact (sound.consistent t (List.mem_cons_of_mem _ ht)).faithful unused.aligned
  · exact (List.pairwise_cons.1 sound.kept).2.imp fun keeps => keeps.log

theorem faithful_when_contested :
    oneSlot.Unused (Memory.zero _) ∧
    Log.Proper (oneSlot.actAll (contested _) (opening (Memory.zero _))).1.log ∧
    ∀ t ∈ (oneSlot.actAll (contested _) (opening (Memory.zero _))).1.trace, oneSlot.Faithful t := by
  have unused : oneSlot.Unused (Memory.zero _) := unused_zero rfl
  exact ⟨unused, proper_contested, (faithful_at_every_moment unused (contested _) proper_contested).1⟩

end SharedCounters.Blocks
