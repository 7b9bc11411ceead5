import SharedCounters.Proofs.Mirror

/-! Taking a slot, releasing it and storing its value keep the slots in order, and do to the mirrored
register what they should. -/

namespace SharedCounters.Blocks

variable {n : Nat} {b : Blocks n} {m : Memory n} {r : Register} {k : Nat} {id : UInt64}

section Taking

variable (hk : k < b.partition.slots) (valid : id ≤ largestId) {label : List UInt8}
  (room : label.length ≤ metadataAt.labelCapacity) {initial : Int64}

include hk room

theorem live_taken {j : Nat} (hj : j < b.partition.slots) :
    b.Live (b.taken m k id label initial) j ↔ j = k ∨ b.Live m j := by
  rw [Live, slotWord_taken hk m id room initial hj]
  split_ifs with h
  · simp [h, SlotWord.status?_pack]
  · simp [h, Live]

theorem touched_taken {j : Nat} (hj : j < b.partition.slots) :
    b.Touched (b.taken m k id label initial) j ↔ j = k ∨ b.Touched m j := by
  rw [Touched, slotWord_taken hk m id room initial hj]
  split_ifs with h
  · simp [h, SlotWord.status?_pack]
  · simp [h, Touched]

include valid

theorem id_taken {j : Nat} (hj : j < b.partition.slots) :
    SlotWord.id (b.slotWord (b.taken m k id label initial) j) =
      if j = k then id else SlotWord.id (b.slotWord m j) := by
  rw [slotWord_taken hk m id room initial hj]
  split_ifs
  · exact SlotWord.id_pack valid _
  · rfl

theorem slotReading_taken {j : Nat} (hj : j < b.partition.slots) :
    b.slotReading (b.taken m k id label initial) j =
      if j = k then ⟨id, Text.lossy label, initial⟩ else b.slotReading m j := by
  simp only [slotReading, id_taken hk valid room hj, slotHeld_taken hk m id room initial hj]
  split_ifs <;> rfl

theorem Orderly.taken (orderly : b.Orderly m)
    (before : ∀ j, j < k → b.Touched m j ∧ SlotWord.id (b.slotWord m j) ≠ id)
    (absent : ∀ j, j < b.partition.slots → b.Live m j → SlotWord.id (b.slotWord m j) ≠ id) :
    b.Orderly (b.taken m k id label initial) where
  known j hj used := by
    rw [live_taken hk room hj, slotWord_taken hk m id room initial hj]
    rcases (touched_taken hk room hj).1 used with h | used
    · exact Or.inl (Or.inl h)
    · split_ifs with h
      · exact Or.inl (Or.inl h)
      · exact (orderly.known j hj used).imp_left Or.inr
  filled i j hij hj used := by
    rw [touched_taken hk room (by omega)]
    rcases (touched_taken hk room hj).1 used with rfl | used
    · exact Or.inr (before i hij).1
    · exact Or.inr (orderly.filled i j hij hj used)
  first i j hi hj live used same := by
    rw [id_taken hk valid room hi, id_taken hk valid room hj] at same
    rw [live_taken hk room hi] at live
    rw [touched_taken hk room hj] at used
    split_ifs at same with h1 h2 h2
    · omega
    · by_contra hlt
      exact (before j (by omega)).2 same.symm
    · exact absurd same (absent i hi (live.resolve_left h1))
    · exact orderly.first i j hi hj (live.resolve_left h1) (used.resolve_left h2) same

end Taking

theorem Mirrors.taken (mirrors : b.Mirrors m r) (hk : k < b.partition.slots) (vacant : ¬ b.Live m k)
    (valid : id ≤ largestId) (label : String) (initial : Int64) :
    b.Mirrors (b.taken m k id (Text.utf8 (keptLabel label)) initial)
      (r.add ⟨k, id, keptLabel label, initial⟩) where
  inOrder := mirrors.inOrder.add fun d hd (same : d.slot = k) => vacant (same ▸ mirrors.live hd)
  mem_iff e := by
    have room := length_keptLabel_le label
    rw [Register.mem_add, mirrors.mem_iff e]
    constructor
    · rintro (rfl | ⟨hj, live, reading⟩)
      · refine ⟨hk, (live_taken hk room hk).2 (Or.inl rfl), ?_⟩
        rw [slotReading_taken hk valid room hk, if_pos rfl, Text.lossy_utf8]
      · have ne : e.slot ≠ k := fun h => vacant (h ▸ live)
        refine ⟨hj, (live_taken hk room hj).2 (Or.inr live), ?_⟩
        rw [slotReading_taken hk valid room hj, if_neg ne, reading]
    · rintro ⟨hj, live, reading⟩
      rw [slotReading_taken hk valid room hj] at reading
      split_ifs at reading with h
      · rw [Text.lossy_utf8] at reading
        exact Or.inl (by cases e; simp_all)
      · exact Or.inr ⟨hj, ((live_taken hk room hj).1 live).resolve_left h, reading⟩

section Releasing

/-- Releases a live slot, which keeps its id. -/
def released (b : Blocks n) (m : Memory n) (k : Nat) : Memory n :=
  b.withWord m k (SlotWord.pack (SlotWord.id (b.slotWord m k)) .freed)

variable (hk : k < b.partition.slots) {j : Nat} (hj : j < b.partition.slots)

include hk hj

theorem id_released : SlotWord.id (b.slotWord (b.released m k) j) = SlotWord.id (b.slotWord m j) := by
  rw [released, slotWord_withWord b hk hj]
  split_ifs with h
  · rw [SlotWord.id_pack (SlotWord.id_le _), h]
  · rfl

theorem slotReading_released : b.slotReading (b.released m k) j = b.slotReading m j := by
  rw [slotReading, slotReading, id_released hk hj, released, slotHeld_withWord b hk hj]

theorem live_released : b.Live (b.released m k) j ↔ j ≠ k ∧ b.Live m j := by
  rw [Live, released, slotWord_withWord b hk hj]
  split_ifs with h
  · simp [h, SlotWord.status?_pack]
  · simp [h, Live]

theorem touched_released : b.Touched (b.released m k) j ↔ j = k ∨ b.Touched m j := by
  rw [Touched, released, slotWord_withWord b hk hj]
  split_ifs with h
  · simp [h, SlotWord.status?_pack]
  · simp [h, Touched]

omit hj in
theorem Orderly.released (orderly : b.Orderly m) (live : b.Live m k) : b.Orderly (b.released m k) where
  known j hj used := by
    by_cases h : j = k
    · right
      rw [Blocks.released, slotWord_withWord b hk hj, if_pos h, SlotWord.status?_pack]
    · have used := ((touched_released hk hj).1 used).resolve_left h
      rw [live_released hk hj, Blocks.released, slotWord_withWord b hk hj, if_neg h]
      exact (orderly.known j hj used).imp_left fun live => ⟨h, live⟩
  filled i j hij hj used := by
    rw [touched_released hk (by omega)]
    rcases (touched_released hk hj).1 used with rfl | used
    · exact Or.inr (orderly.filled i j hij hj live.touched)
    · exact Or.inr (orderly.filled i j hij hj used)
  first i j hi hj live' used same := by
    rw [id_released hk hi, id_released hk hj] at same
    have used' : b.Touched m j := by
      rcases (touched_released hk hj).1 used with rfl | used
      · exact live.touched
      · exact used
    exact orderly.first i j hi hj ((live_released hk hi).1 live').2 used' same

end Releasing

theorem Mirrors.released (mirrors : b.Mirrors m r) (orderly : b.Orderly m) {e : Entry} (he : e ∈ r) :
    b.Mirrors (b.released m e.slot) (r.drop e.id) where
  inOrder := mirrors.inOrder.drop
  mem_iff d := by
    have hk := mirrors.lt he
    rw [Register.mem_drop]
    constructor
    · rintro ⟨hd, ne⟩
      have hj := mirrors.lt hd
      have apart : d.slot ≠ e.slot := fun h =>
        ne (by rw [← mirrors.id_eq hd, ← mirrors.id_eq he, h])
      exact ⟨hj, (live_released hk hj).2 ⟨apart, mirrors.live hd⟩,
        (slotReading_released hk hj).trans (mirrors.reading hd)⟩
    · rintro ⟨hj, live, reading⟩
      obtain ⟨apart, live⟩ := (live_released hk hj).1 live
      rw [slotReading_released hk hj] at reading
      have hd := (mirrors.mem_iff d).2 ⟨hj, live, reading⟩
      exact ⟨hd, fun same => apart (congrArg Entry.slot (mirrors.eq_of_id orderly hd he same))⟩

section Storing

variable (hk : k < b.partition.slots) {value : Int64}

include hk

theorem Orderly.withValue (orderly : b.Orderly m) : b.Orderly (b.withValue m k value) := by
  have words := fun j (hj : j < b.partition.slots) => slotWord_withValue b hk hj m value
  constructor
  · intro j hj
    simp only [Touched, Live, words j hj]
    exact orderly.known j hj
  · intro i j hij hj
    simp only [Touched, words j hj, words i (by omega)]
    exact orderly.filled i j hij hj
  · intro i j hi hj
    simp only [Touched, Live, words i hi, words j hj]
    exact orderly.first i j hi hj

theorem live_withValue {j : Nat} (hj : j < b.partition.slots) :
    b.Live (b.withValue m k value) j ↔ b.Live m j := by
  rw [Live, slotWord_withValue b hk hj, Live]

theorem slotReading_withValue {j : Nat} (hj : j < b.partition.slots) :
    b.slotReading (b.withValue m k value) j =
      if j = k then { b.slotReading m j with value := value } else b.slotReading m j := by
  simp only [slotReading, slotWord_withValue b hk hj, slotHeld_withValue b hk hj]
  split_ifs <;> rfl

theorem Mirrors.withValue (mirrors : b.Mirrors m r) :
    b.Mirrors (b.withValue m k value) (r.set k value) where
  inOrder := mirrors.inOrder.set
  mem_iff e := by
    rw [Register.mem_set]
    constructor
    · rintro ⟨d, hd, hs, hc⟩
      have hj := mirrors.lt hd
      rw [hs, hc, live_withValue hk hj, slotReading_withValue hk hj, mirrors.reading hd]
      exact ⟨hj, mirrors.live hd, rfl⟩
    · rintro ⟨hj, live, reading⟩
      rw [live_withValue hk hj] at live
      rw [slotReading_withValue hk hj] at reading
      exact ⟨_, mirrors.mem_of_live hj live, rfl, reading.symm⟩

end Storing

end SharedCounters.Blocks
