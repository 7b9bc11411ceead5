import SharedCounters.Proofs.Fresh
import SharedCounters.Proofs.Scans

/-! Lookups against listings, on every memory. A lookup finds the first counter of a listing that has the
id, unless a slot before it carries the id too; then, and without such a counter, it finds nothing. -/

namespace SharedCounters.Blocks

variable {n : Nat} (b : Blocks n)

/-- What lookups find and what a listing shows of one memory: the counters of `slots`. -/
structure LookupsAgree (m : Memory n) (slots : List Nat) : Prop where
  listing : b.liveCounters m = .ok (slots.map (b.slotReading m))
  inOrder : slots.Pairwise (· < ·)
  mem_iff : ∀ slot, slot ∈ slots ↔
    slot < b.partition.slots ∧ b.Live m slot ∧ ∀ j, j < slot → b.Touched m j
  answered : ∀ id, ∃ value label, b.valueOf id m = .ok value ∧ b.labelOf id m = .ok label ∧
    (value = none ↔ label = none)
  found : ∀ id value, b.valueOf id m = .ok (some value) → ∃ label, b.labelOf id m = .ok (some label) ∧
    (slots.map (b.slotReading m)).find? (fun r => r.id = id) = some ⟨id, label, value⟩
  first : ∀ slot ∈ slots, ∀ id label value, b.slotReading m slot = ⟨id, label, value⟩ →
    (∀ j, j < slot → SlotWord.id (b.slotWord m j) ≠ id) →
    b.valueOf id m = .ok (some value) ∧ b.labelOf id m = .ok (some label)
  absent : ∀ id, (∀ r ∈ slots.map (b.slotReading m), r.id ≠ id) →
    b.valueOf id m = .ok none ∧ b.labelOf id m = .ok none

variable {b} {m : Memory n} {id : UInt64} {k : Nat}

/-- Whatever the slots hold, lookups and a listing agree. -/
theorem lookups_agree_with_the_listing (b : Blocks n) (aligned : b.Aligned) (m : Memory n) :
    ∃ slots, b.LookupsAgree m slots := by
  refine ⟨b.shown m, ?_⟩
  constructor
  case listing => exact liveCounters_eq_shown aligned
  case inOrder => exact pairwise_shown
  case mem_iff => exact fun slot => mem_shown
  case answered =>
    intro id
    refine ⟨_, _, valueOf_eq aligned, labelOf_eq aligned, ?_⟩
    rw [Option.map_eq_none_iff, Option.map_eq_none_iff]
  case found =>
    intro id value looked
    rw [valueOf_eq aligned] at looked
    obtain ⟨k, held, rfl⟩ := Option.map_eq_some_iff.1 (Except.ok.inj looked)
    obtain ⟨-, rfl, -⟩ := holder_eq_some_iff.1 held
    refine ⟨(b.slotReading m k).label, ?_, ?_⟩
    · rw [labelOf_eq aligned, held]
      rfl
    · rw [List.find?_map]
      exact congrArg (Option.map (b.slotReading m)) (find?_shown held)
  case first =>
    intro slot shown id label value reading first
    have same : SlotWord.id (b.slotWord m slot) = id := congrArg Reading.id reading
    have held : b.holder m id = some slot := holder_eq_some_iff.2 ⟨shown, same, first⟩
    rw [valueOf_eq aligned, labelOf_eq aligned, held, Option.map_some, Option.map_some, reading]
    exact ⟨rfl, rfl⟩
  case absent =>
    intro id absent
    have none : b.holder m id = none := by
      refine Option.eq_none_iff_forall_ne_some.2 fun k held => ?_
      obtain ⟨shown, same, -⟩ := holder_eq_some_iff.1 held
      exact absent _ (List.mem_map_of_mem shown) same
    rw [valueOf_eq aligned, labelOf_eq aligned, none]
    exact ⟨rfl, rfl⟩

def fourSlots : Blocks 2816 := plain 4 (by decide)

/-- A counter, its id again with a status that there is none of, and a live counter behind a freed one
with the same id. -/
def tangled : Memory 2816 :=
  fourSlots.withWord (fourSlots.withWord (fourSlots.withWord
    (fourSlots.taken (Memory.zero 2816) 0 5 [97] 11) 1 0x509) 2 (SlotWord.pack 7 .freed)) 3
    (SlotWord.pack 7 .allocated)

section Tangled

theorem room_tangled : [(97 : UInt8)].length ≤ metadataAt.labelCapacity := by decide

theorem slotWord_tangled : fourSlots.slotWord tangled 0 = SlotWord.pack 5 .allocated ∧
    fourSlots.slotWord tangled 1 = 0x509 ∧ fourSlots.slotWord tangled 2 = SlotWord.pack 7 .freed ∧
    fourSlots.slotWord tangled 3 = SlotWord.pack 7 .allocated := by
  have word : ∀ {m : Memory 2816} {k j : Nat} {w : SlotWord}, k < 4 → j < 4 →
      fourSlots.slotWord (fourSlots.withWord m k w) j = if j = k then w else fourSlots.slotWord m j :=
    fun hk hj => fourSlots.slotWord_withWord hk hj _ _
  have first : 0 < fourSlots.partition.slots := by decide
  simp (disch := decide) only [tangled, word, slotWord_taken first (Memory.zero 2816) 5 room_tangled 11]
  exact ⟨rfl, rfl, rfl, rfl⟩

theorem slotReading_tangled : fourSlots.slotReading tangled 0 = ⟨5, "a", 11⟩ := by
  have held : ∀ {m : Memory 2816} {k : Nat} {w : SlotWord}, k < 4 →
      fourSlots.slotHeld (fourSlots.withWord m k w) 0 = fourSlots.slotHeld m 0 :=
    fun hk => fourSlots.slotHeld_withWord hk (by decide) _ _
  have first : 0 < fourSlots.partition.slots := by decide
  have bytes : fourSlots.slotHeld tangled 0 = ⟨[97], 11⟩ := by
    simp (disch := decide) only [tangled, held]
    exact slotHeld_taken first _ 5 room_tangled 11 first
  rw [slotReading, slotWord_tangled.1, bytes]
  decide +kernel

theorem shown_tangled : 0 ∈ fourSlots.shown tangled ∧ 3 ∈ fourSlots.shown tangled := by
  obtain ⟨word0, word1, word2, word3⟩ := slotWord_tangled
  have live0 : fourSlots.Live tangled 0 := by rw [Live, word0]; decide
  have live3 : fourSlots.Live tangled 3 := by rw [Live, word3]; decide
  refine ⟨mem_shown.2 ⟨by decide, live0, fun j hj => absurd hj (Nat.not_lt_zero j)⟩,
    mem_shown.2 ⟨by decide, live3, fun j hj => ?_⟩⟩
  have cases : j = 0 ∨ j = 1 ∨ j = 2 := by omega
  unfold Touched
  rcases cases with rfl | rfl | rfl
  · rw [word0]; decide
  · rw [word1]; decide
  · rw [word2]; decide

theorem holder_tangled : fourSlots.holder tangled 5 = some 0 ∧ fourSlots.holder tangled 7 = none := by
  obtain ⟨word0, word1, word2, -⟩ := slotWord_tangled
  constructor
  · refine holder_eq_some_iff.2 ⟨shown_tangled.1, ?_, fun j hj => absurd hj (Nat.not_lt_zero j)⟩
    rw [word0]
    rfl
  · refine Option.eq_none_iff_forall_ne_some.2 fun k held => ?_
    obtain ⟨shown, same, first⟩ := holder_eq_some_iff.1 held
    have cases : k = 0 ∨ k = 1 ∨ k = 2 ∨ 2 < k := by omega
    rcases cases with rfl | rfl | rfl | behind
    · rw [word0] at same
      exact absurd same (by decide)
    · rw [word1] at same
      exact absurd same (by decide)
    · -- the first slot with the id is freed
      have live : fourSlots.Live tangled 2 := (mem_shown.1 shown).2.1
      rw [Live, word2] at live
      exact absurd live (by decide)
    · refine absurd ?_ (first 2 behind)
      rw [word2]
      rfl

end Tangled

/-- The second live counter is listed, and not found under its id. -/
theorem lookups_agree_in_a_tangle : fourSlots.Aligned ∧ ∃ slots, fourSlots.LookupsAgree tangled slots ∧
    3 ∈ slots ∧ fourSlots.valueOf 5 tangled = .ok (some 11) ∧ fourSlots.labelOf 5 tangled = .ok (some "a") ∧
    fourSlots.valueOf 7 tangled = .ok none := by
  have aligned : fourSlots.Aligned := rfl
  obtain ⟨slots, agree⟩ := lookups_agree_with_the_listing fourSlots aligned tangled
  have shown0 : 0 ∈ slots := (agree.mem_iff 0).2 (mem_shown.1 shown_tangled.1)
  have shown3 : 3 ∈ slots := (agree.mem_iff 3).2 (mem_shown.1 shown_tangled.2)
  obtain ⟨value, label⟩ := agree.first 0 shown0 5 "a" 11 slotReading_tangled
    fun j hj => absurd hj (Nat.not_lt_zero j)
  have hidden : fourSlots.valueOf 7 tangled = .ok none := by
    rw [valueOf_eq aligned, holder_tangled.2]
    rfl
  exact ⟨aligned, slots, agree, shown3, value, label, hidden⟩

end SharedCounters.Blocks
