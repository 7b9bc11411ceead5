import SharedCounters.Proofs.Alone
import SharedCounters.Proofs.Register

/-! Memories whose slots are in order, and the register they mirror. The statuses are those a finished
operation leaves, used slots come first, and no used slot before a live one has its id. In such a memory
every scan finds exactly what the register says. -/

namespace SharedCounters.Blocks

variable {n : Nat} (b : Blocks n)

def Touched (m : Memory n) (slot : Nat) : Prop :=
  SlotWord.status? (b.slotWord m slot) ≠ some .notUsed

def Live (m : Memory n) (slot : Nat) : Prop :=
  SlotWord.status? (b.slotWord m slot) = some .allocated

structure Orderly (m : Memory n) : Prop where
  known : ∀ j, j < b.partition.slots → b.Touched m j → b.Live m j ∨
    SlotWord.status? (b.slotWord m j) = some .freed
  filled : ∀ i j, i < j → j < b.partition.slots → b.Touched m j → b.Touched m i
  first : ∀ i j, i < b.partition.slots → j < b.partition.slots → b.Live m i → b.Touched m j →
    SlotWord.id (b.slotWord m i) = SlotWord.id (b.slotWord m j) → i ≤ j

/-- The register has an entry for each live slot, with what a reader makes of the slot. -/
structure Mirrors (m : Memory n) (r : Register) : Prop where
  inOrder : r.InOrder
  mem_iff : ∀ e : Entry, e ∈ r ↔
    e.slot < b.partition.slots ∧ b.Live m e.slot ∧ b.slotReading m e.slot = e.counter

variable {b} {m : Memory n} {r : Register} {j k : Nat} {e : Entry} {id : UInt64}

theorem Live.status (h : b.Live m j) : SlotWord.status? (b.slotWord m j) = some .allocated := h

theorem Live.touched (h : b.Live m j) : b.Touched m j := by
  rw [Touched, h.status]
  decide

theorem isFree_eq_false_iff (known : b.Touched m j → b.Live m j ∨
    SlotWord.status? (b.slotWord m j) = some .freed) :
    SlotWord.isFree (b.slotWord m j) = false ↔ b.Live m j := by
  rw [← Bool.not_eq_true, SlotWord.isFree_iff, not_or]
  constructor
  · rintro ⟨used, nonfree⟩
    exact (known used).resolve_right nonfree
  · intro live
    rw [live.status]
    decide

theorem verdict_eq_next_iff : SlotWord.verdict id (b.slotWord m j) = .next ↔
    b.Touched m j ∧ SlotWord.id (b.slotWord m j) ≠ id := by
  constructor
  · intro h
    unfold SlotWord.verdict at h
    split_ifs at h with h1 h2
    exact ⟨h1, h2⟩
  · rintro ⟨touched, other⟩
    rw [SlotWord.verdict, if_neg touched, if_pos other]

theorem verdict_eq_here_iff : SlotWord.verdict id (b.slotWord m j) = .here ↔
    b.Live m j ∧ SlotWord.id (b.slotWord m j) = id := by
  constructor
  · intro h
    unfold SlotWord.verdict at h
    split_ifs at h with h1 h2 h3
    exact ⟨h3, not_not.1 h2⟩
  · rintro ⟨live, rfl⟩
    simp [SlotWord.verdict, live.status]

section Reading

namespace Mirrors

variable (mirrors : b.Mirrors m r)

include mirrors

theorem live (he : e ∈ r) : b.Live m e.slot := ((mirrors.mem_iff e).1 he).2.1

theorem lt (he : e ∈ r) : e.slot < b.partition.slots := ((mirrors.mem_iff e).1 he).1

theorem reading (he : e ∈ r) : b.slotReading m e.slot = e.counter := ((mirrors.mem_iff e).1 he).2.2

theorem id_eq (he : e ∈ r) : SlotWord.id (b.slotWord m e.slot) = e.id :=
  congrArg Reading.id (mirrors.reading he)

theorem word (he : e ∈ r) : b.slotWord m e.slot = SlotWord.pack e.id .allocated := by
  rw [← mirrors.id_eq he]
  exact SlotWord.eq_pack_of_status (mirrors.live he)

theorem here (he : e ∈ r) : SlotWord.verdict e.id (b.slotWord m e.slot) = .here :=
  verdict_eq_here_iff.2 ⟨mirrors.live he, mirrors.id_eq he⟩

theorem mem_of_live (hj : j < b.partition.slots) (live : b.Live m j) :
    ⟨j, b.slotReading m j⟩ ∈ r := (mirrors.mem_iff _).2 ⟨hj, live, rfl⟩

theorem next (orderly : b.Orderly m) (he : e ∈ r) (h : j < e.slot) :
    SlotWord.verdict e.id (b.slotWord m j) = .next := by
  have hlt := mirrors.lt he
  have live := mirrors.live he
  have used := orderly.filled j e.slot h hlt live.touched
  refine verdict_eq_next_iff.2 ⟨used, fun same => ?_⟩
  have := orderly.first e.slot j hlt (by omega) live used ((mirrors.id_eq he).trans same.symm)
  omega

theorem eq_of_slot {d : Entry} (hd : d ∈ r) (he : e ∈ r) (same : d.slot = e.slot) : d = e := by
  have counters : d.counter = e.counter := by
    rw [← mirrors.reading hd, ← mirrors.reading he, same]
  cases d
  cases e
  simp_all

theorem eq_of_id (orderly : b.Orderly m) {d : Entry} (hd : d ∈ r) (he : e ∈ r) (same : d.id = e.id) :
    d = e := by
  have ids : SlotWord.id (b.slotWord m d.slot) = SlotWord.id (b.slotWord m e.slot) := by
    rw [mirrors.id_eq hd, mirrors.id_eq he, same]
  have hde := orderly.first _ _ (mirrors.lt hd) (mirrors.lt he) (mirrors.live hd)
    (mirrors.live he).touched ids
  have hed := orderly.first _ _ (mirrors.lt he) (mirrors.lt hd) (mirrors.live he)
    (mirrors.live hd).touched ids.symm
  exact mirrors.eq_of_slot hd he (Nat.le_antisymm hde hed)

theorem nodup_ids (orderly : b.Orderly m) : (r.map Entry.id).Nodup := by
  refine List.pairwise_map.2 (mirrors.inOrder.imp_of_mem fun {d e} hd he before same => ?_)
  obtain rfl := mirrors.eq_of_id orderly hd he same
  exact Nat.lt_irrefl d.slot before

end Mirrors

end Reading

end SharedCounters.Blocks
