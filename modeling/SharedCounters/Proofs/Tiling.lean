import Mathlib.Algebra.Group.Nat.Defs
import Mathlib.Data.List.Chain
import SharedCounters.Format.Blocks
import SharedCounters.Proofs.Partitions

/-! How a region is tiled. The lengths in a header and the partition they stand for determine each other:
lengths are those of a partition or are refused. In every partition the blocks follow one another from
multiples of 128 on, and the records of the slots lie side by side in two of them. -/

namespace SharedCounters

/-- A run of bytes. -/
structure Span where
  start : Nat
  len : Nat

namespace Span

def stop (s : Span) : Nat := s.start + s.len

def Has (s : Span) (i : Nat) : Prop := s.start ≤ i ∧ i < s.stop

def Within (s t : Span) : Prop := ∀ i, s.Has i → t.Has i

def Apart (s t : Span) : Prop := ∀ i, ¬ (s.Has i ∧ t.Has i)

variable {s t : Span}

theorem within_of_le (first : t.start ≤ s.start) (last : s.stop ≤ t.stop) : s.Within t :=
  fun _ inside => ⟨Nat.le_trans first inside.1, Nat.lt_of_lt_of_le inside.2 last⟩

theorem apart_of_le (h : s.stop ≤ t.start) : s.Apart t := by
  rintro i ⟨⟨-, below⟩, above, -⟩
  omega

theorem Apart.symm (h : s.Apart t) : t.Apart s := fun i both => h i both.symm

theorem Apart.mono {s' t' : Span} (h : s.Apart t) (hs : s'.Within s) (ht : t'.Within t) : s'.Apart t' :=
  fun i both => h i ⟨hs i both.1, ht i both.2⟩

instance : IsTrans Span fun s t => s.stop ≤ t.start where
  trans _ t _ h h' := (h.trans (Nat.le_add_right t.start t.len)).trans h'

theorem pairwise_apart {l : List Span} (consecutive : l.IsChain fun s t => s.stop = t.start) :
    l.Pairwise Apart := by
  have ordered := List.isChain_iff_pairwise.1 (consecutive.imp fun _ _ e => Nat.le_of_eq e)
  exact ordered.imp apart_of_le

theorem row_le (first len : Nat) {j k : Nat} (h : j < k) : first + j * len + len ≤ first + k * len :=
  calc first + j * len + len
    _ = first + (j + 1) * len := by rw [Nat.succ_mul, Nat.add_assoc]
    _ ≤ first + k * len := Nat.add_le_add_left (Nat.mul_le_mul_right len h) first

theorem apart_of_ne (first len : Nat) {j k : Nat} (other : j ≠ k) :
    (⟨first + j * len, len⟩ : Span).Apart ⟨first + k * len, len⟩ := by
  rcases Nat.lt_or_gt_of_ne other with h | h
  · exact apart_of_le (row_le first len h)
  · apply Apart.symm
    exact apart_of_le (row_le first len h)

theorem within_row (first len : Nat) {j count : Nat} (h : j < count) :
    (⟨first + j * len, len⟩ : Span).Within ⟨first, count * len⟩ :=
  within_of_le (Nat.le_add_right ..) (row_le first len h)

end Span

namespace Partition

variable (p : Partition)

/-- Header, statics, metadata and values. -/
def blocks : List Span := [⟨0, headerAt.len⟩, ⟨p.staticsStart, p.staticsLen⟩,
  ⟨p.metadataStart, p.metadataLen⟩, ⟨p.valuesStart, p.valuesLen⟩]

def metadataRecord (slot : Nat) : Span := ⟨p.metadataStart + Blocks.wordOffset slot, 512⟩

def valueRecord (slot : Nat) : Span := ⟨p.valuesStart + Blocks.valueOffset slot, 128⟩

def records (slot : Nat) : List Span := [p.metadataRecord slot, p.valueRecord slot]

structure Tiled : Prop where
  consecutive : p.blocks.IsChain fun s t => s.stop = t.start
  apart : p.blocks.Pairwise Span.Apart
  aligned : ∀ s ∈ p.blocks, 128 ∣ s.start
  extent : p.blocks.getLast?.map Span.stop = some p.extent
  metadata : ∀ slot < p.slots, (p.metadataRecord slot).Within ⟨p.metadataStart, p.metadataLen⟩
  values : ∀ slot < p.slots, (p.valueRecord slot).Within ⟨p.valuesStart, p.valuesLen⟩
  own : ∀ slot < p.slots, (p.metadataRecord slot).Apart (p.valueRecord slot)
  others : ∀ j < p.slots, ∀ k < p.slots, j ≠ k → ∀ s ∈ p.records j, ∀ t ∈ p.records k, s.Apart t

theorem consecutive : p.blocks.IsChain fun s t => s.stop = t.start := by
  simp [blocks, Span.stop, staticsStart, metadataStart, valuesStart]

theorem aligned : ∀ s ∈ p.blocks, 128 ∣ s.start := by
  obtain ⟨units, h⟩ := p.staticsLen_dvd
  have statics : p.staticsStart = 128 := rfl
  have metadata : p.metadataStart = 128 + p.staticsLen := rfl
  have values : p.valuesStart = 128 + p.staticsLen + p.slots * 512 := rfl
  intro s hs
  simp only [blocks, List.mem_cons, List.not_mem_nil, or_false] at hs
  rcases hs with rfl | rfl | rfl | rfl <;> dsimp only <;> omega

section Records

variable {j k : Nat}

theorem metadataRecord_eq : p.metadataRecord j = ⟨p.metadataStart + j * 512, 512⟩ := by
  simp only [metadataRecord, Blocks.wordOffset, metadataAt, Nat.add_zero]

theorem valueRecord_eq : p.valueRecord j = ⟨p.valuesStart + j * 128, 128⟩ := by
  simp only [valueRecord, Blocks.valueOffset, valueAt, Nat.add_zero]

theorem metadata_within (h : j < p.slots) :
    (p.metadataRecord j).Within ⟨p.metadataStart, p.metadataLen⟩ := by
  rw [metadataRecord_eq, metadataLen_eq]
  exact Span.within_row p.metadataStart 512 h

theorem value_within (h : j < p.slots) : (p.valueRecord j).Within ⟨p.valuesStart, p.valuesLen⟩ := by
  rw [valueRecord_eq, valuesLen_eq]
  exact Span.within_row p.valuesStart 128 h

theorem metadata_apart_value (hj : j < p.slots) (hk : k < p.slots) :
    (p.metadataRecord j).Apart (p.valueRecord k) := by
  have blocks : (⟨p.metadataStart, p.metadataLen⟩ : Span).Apart ⟨p.valuesStart, p.valuesLen⟩ :=
    Span.apart_of_le (Nat.le_refl _)
  exact blocks.mono (p.metadata_within hj) (p.value_within hk)

theorem records_apart (hj : j < p.slots) (hk : k < p.slots) (other : j ≠ k) :
    ∀ s ∈ p.records j, ∀ t ∈ p.records k, s.Apart t := by
  intro s hs t ht
  simp only [records, List.mem_cons, List.not_mem_nil, or_false] at hs ht
  rcases hs with rfl | rfl <;> rcases ht with rfl | rfl
  · rw [metadataRecord_eq, metadataRecord_eq]
    exact Span.apart_of_ne p.metadataStart 512 other
  · exact p.metadata_apart_value hj hk
  · exact (p.metadata_apart_value hk hj).symm
  · rw [valueRecord_eq, valueRecord_eq]
    exact Span.apart_of_ne p.valuesStart 128 other

end Records

theorem tiled : p.Tiled where
  consecutive := p.consecutive
  apart := Span.pairwise_apart p.consecutive
  aligned := p.aligned
  extent := rfl
  metadata _ := p.metadata_within
  values _ := p.value_within
  own _ h := p.metadata_apart_value h h
  others _ hj _ hk other := p.records_apart hj hk other

/-- The partition of a new region has the block its statics need and the slots asked for; the lengths of a
partition fit a header and stand for it; lengths stand for a partition if and only if they are its own; and
every partition is tiled. -/
theorem lengths_determine_the_partition :
    (∀ statics slots p, ofStatics statics slots = .ok p ↔
      statics.blockLen = .ok p.staticsLen ∧ p.slots = slots) ∧
    (∀ statics slots p, ofStatics statics slots = .ok p →
      p.staticsLen < 2 ^ 32 ∧ p.metadataLen < 2 ^ 32 ∧ p.valuesLen < 2 ^ 32 ∧
      ofLengths (UInt32.ofNat p.staticsLen) (UInt32.ofNat p.metadataLen) (UInt32.ofNat p.valuesLen) = .ok p) ∧
    (∀ staticsLen metadataLen valuesLen p, ofLengths staticsLen metadataLen valuesLen = .ok p ↔
      staticsLen.toNat = p.staticsLen ∧ metadataLen.toNat = p.metadataLen ∧
      valuesLen.toNat = p.valuesLen) ∧
    ∀ p : Partition, p.Tiled := by
  refine ⟨fun _ _ _ => ofStatics_eq_ok_iff, fun statics slots p _ => ?_, fun _ _ _ _ => ofLengths_eq_ok_iff,
    tiled⟩
  exact ⟨p.lt, p.metadataLen_lt, p.valuesLen_lt, p.ofLengths_lengths⟩

/-- Seven slots and one pair. Of lengths that agree once remainders are dropped, none stand for anything. -/
theorem lengths_for_seven_slots : ∃ p, ofStatics (Statics.empty.insert "pid" "1234") 7 = .ok p ∧
    ofLengths 128 3584 896 = .ok p ∧ p.Tiled ∧ ∀ q, ofLengths 128 3585 896 ≠ .ok q := by
  obtain ⟨asked, -, lengths, tiled⟩ := lengths_determine_the_partition
  let p : Partition := ⟨128, 7, by decide, by decide, by decide, by decide⟩
  refine ⟨p, (asked _ _ p).2 ⟨rfl, rfl⟩, (lengths 128 3584 896 p).2 (by decide), tiled p, fun q h => ?_⟩
  obtain ⟨-, metadata, -⟩ := (lengths 128 3585 896 q).1 h
  have rounded : 3585 = q.slots * 512 := metadata
  omega

end Partition

end SharedCounters
