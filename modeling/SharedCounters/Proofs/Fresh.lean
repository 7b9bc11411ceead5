import SharedCounters.Proofs.Observation
import SharedCounters.Writing.Publish

/-! Regions whose slots were never used. Filling in a region fails unless it is aligned, so every region
that was published, with slots that were never used, is one of them. -/

namespace SharedCounters

theorem Write.bind_eq_ok {α β : Type} {n : Nat} {first : Write n α} {next : α → Write n β}
    {m m' : Memory n} {result : β} (h : (first >>= next) m = .ok result m') :
    ∃ a between, first m = .ok a between ∧ next a between = .ok result m' := by
  simp only [bind, EStateM.bind] at h
  split at h
  · next a between hfirst => exact ⟨a, between, hfirst, h⟩
  · cases h

theorem Window.aligned_of_store {α : Type} [Word α] {n : Nat} {w : Window n} {offset : Nat} {value : α}
    {order : Order} {m m' : Memory n} (h : w.store offset value order m = .ok () m') :
    (w.base + offset) % Word.size α = 0 := by
  unfold Window.store Window.locate at h
  split_ifs at h with h1 h2
  exact h2

theorem Memory.byte_zero {n : Nat} (i : Nat) : (Memory.zero n).byte i = 0 := by
  unfold Memory.byte
  by_cases h : i < n
  · rw [dif_pos h]
    exact Array.getElem_replicate _
  · rw [dif_neg h]

namespace Blocks

variable {n : Nat} (b : Blocks n)

structure Unused (m : Memory n) : Prop where
  aligned : b.Aligned
  notUsed : ∀ j, j < b.partition.slots → ¬ b.Touched m j

variable {b} {m : Memory n}

theorem Unused.orderly (unused : b.Unused m) : b.Orderly m where
  known j hj used := absurd used (unused.notUsed j hj)
  filled _ j _ hj used := absurd used (unused.notUsed j hj)
  first i _ hi _ live := absurd live.touched (unused.notUsed i hi)

theorem Unused.mirrors (unused : b.Unused m) : b.Mirrors m [] where
  inOrder := List.Pairwise.nil
  mem_iff e := by
    refine ⟨fun he => absurd he List.not_mem_nil, ?_⟩
    rintro ⟨hj, live, -⟩
    exact absurd live.touched (unused.notUsed _ hj)

theorem aligned_of_publish {pid start : UInt64} {statics : Statics} {m' : Memory n}
    (h : b.publish pid start statics m = .ok (.ok ()) m') : b.Aligned := by
  obtain ⟨stored, _, -, h⟩ := Write.bind_eq_ok h
  cases stored with
  | error cause => cases h
  | ok _ =>
    -- the first word of eight bytes that is stored
    obtain ⟨_, _, hpid, -⟩ := Write.bind_eq_ok h
    have h16 : (b.region.base + 16) % 8 = 0 := Window.aligned_of_store hpid
    unfold Aligned
    omega

/-- Every region that was published, and whose slots were not used since, is one to start a run from. -/
theorem unused_of_publish {pid start : UInt64} {statics : Statics} {before : Memory n}
    (h : b.publish pid start statics before = .ok (.ok ()) m)
    (notUsed : ∀ j, j < b.partition.slots →
      SlotWord.status? (b.slotWord m j) = some .notUsed) : b.Unused m :=
  ⟨aligned_of_publish h, fun j hj used => used (notUsed j hj)⟩

theorem slotWord_of_zeros (zeros : ∀ i, b.metadata.base ≤ i → i < b.metadata.base + b.metadata.len →
    m.byte i = 0) {j : Nat} (hj : j < b.partition.slots) : b.slotWord m j = 0 := by
  have e : b.metadata.len = b.partition.slots * 512 := rfl
  have bytes : m.read (b.metadata.base + wordOffset j) 8 = List.replicate 8 0 := by
    refine List.ext_getElem (by simp) fun i h1 h2 => ?_
    rw [Memory.length_read] at h1
    rw [Memory.getElem_read, List.getElem_replicate]
    exact zeros _ (by omega) (by simp only [wordOffset, metadataAt]; omega)
  show Word.ofBytes (m.read (b.metadata.base + wordOffset j) 8) = 0
  rw [bytes]
  rfl

theorem unused_of_zeros (aligned : b.Aligned) (zeros : ∀ i, b.metadata.base ≤ i →
    i < b.metadata.base + b.metadata.len → m.byte i = 0) : b.Unused m :=
  ⟨aligned, fun j hj used => used (by rw [slotWord_of_zeros zeros hj]; rfl)⟩

theorem unused_zero (aligned : b.Aligned) : b.Unused (Memory.zero n) :=
  unused_of_zeros aligned fun i _ _ => Memory.byte_zero i

/-- A whole memory as a region, with the shortest statics block there can be. -/
def plain (slots : Nat) (le : slots ≤ counterLimit) : Blocks (256 + slots * 640) where
  region := Window.whole _
  partition := ⟨128, slots, by decide, Nat.dvd_refl 128, by decide, le⟩
  fits := by
    simp only [Partition.extent, Partition.valuesStart, Partition.metadataStart, Partition.staticsStart,
      Partition.metadataLen, Partition.valuesLen, metadataLenFor, valuesLenFor, metadataAt, valueAt,
      headerAt, Window.whole]
    omega

def oneSlot : Blocks 896 := plain 1 (by decide)

end Blocks

end SharedCounters
