import Mathlib.Tactic.SplitIfs
import SharedCounters.Format.Partition

/-! Which partitions there are. One is made for statics and a number of slots if and only if the statics fit
its block, and lengths in a header stand for one if and only if they are its own. All its lengths fit a
header, so that each partition is the one its header describes. -/

namespace SharedCounters.Partition

theorem ofStatics_eq_ok_iff {statics : Statics} {slots : Nat} {p : Partition} :
    ofStatics statics slots = .ok p ↔ statics.blockLen = .ok p.staticsLen ∧ p.slots = slots := by
  rw [ofStatics]
  refine ⟨fun h => ?_, ?_⟩
  · split_ifs at h
    split at h
    · cases h
    · next len needed =>
      cases h
      exact ⟨needed, rfl⟩
  · rintro ⟨needed, rfl⟩
    rw [dif_pos p.le]
    split
    · next cause refused =>
      rw [needed] at refused
      cases refused
    · next len found =>
      rw [needed] at found
      cases found
      rfl

section Lengths

variable {staticsLen metadataLen valuesLen : UInt32} {p : Partition}

theorem ofLengths_eq_ok (statics : staticsLen.toNat = p.staticsLen)
    (metadata : metadataLen.toNat = p.metadataLen) (values : valuesLen.toNat = p.valuesLen) :
    ofLengths staticsLen metadataLen valuesLen = .ok p := by
  have le := p.le
  have pos := p.pos
  obtain ⟨units, hunits⟩ := p.staticsLen_dvd
  rw [p.metadataLen_eq] at metadata
  rw [p.valuesLen_eq] at values
  have slots : valuesLen.toNat / valueAt.len = p.slots := by
    simp only [valueAt]
    omega
  rw [ofLengths, dif_pos]
  · simp only [statics, slots]
  · simp only [staticsAt, blockUnit, cacheLine, metadataAt, valueAt]
    omega

theorem lengths_of_ofLengths (h : ofLengths staticsLen metadataLen valuesLen = .ok p) :
    staticsLen.toNat = p.staticsLen ∧ metadataLen.toNat = p.metadataLen ∧
      valuesLen.toNat = p.valuesLen := by
  rw [ofLengths] at h
  split_ifs at h with agree
  cases h
  simp only [staticsAt, blockUnit, cacheLine, metadataAt, valueAt] at agree
  refine ⟨rfl, ?_, ?_⟩
  · rw [metadataLen_eq]
    simp only [valueAt]
    omega
  · rw [valuesLen_eq]
    simp only [valueAt]
    omega

theorem ofLengths_eq_ok_iff : ofLengths staticsLen metadataLen valuesLen = .ok p ↔
    staticsLen.toNat = p.staticsLen ∧ metadataLen.toNat = p.metadataLen ∧
      valuesLen.toNat = p.valuesLen :=
  ⟨lengths_of_ofLengths, fun ⟨statics, metadata, values⟩ => ofLengths_eq_ok statics metadata values⟩

theorem ofLengths_eq_error
    (none : ∀ p : Partition, ¬ (staticsLen.toNat = p.staticsLen ∧ metadataLen.toNat = p.metadataLen
      ∧ valuesLen.toNat = p.valuesLen)) :
    ofLengths staticsLen metadataLen valuesLen = .error .inconsistentLengths := by
  cases h : ofLengths staticsLen metadataLen valuesLen with
  | error cause =>
    rw [ofLengths] at h
    split_ifs at h
    exact h.symm
  | ok p => exact absurd (lengths_of_ofLengths h) (none p)

end Lengths

/-- What a header keeps of a partition. -/
theorem ofLengths_lengths (p : Partition) : ofLengths (UInt32.ofNat p.staticsLen) (UInt32.ofNat p.metadataLen)
    (UInt32.ofNat p.valuesLen) = .ok p :=
  ofLengths_eq_ok_iff.2 ⟨UInt32.toNat_ofNat_of_lt' p.lt, UInt32.toNat_ofNat_of_lt' p.metadataLen_lt,
    UInt32.toNat_ofNat_of_lt' p.valuesLen_lt⟩

end SharedCounters.Partition
