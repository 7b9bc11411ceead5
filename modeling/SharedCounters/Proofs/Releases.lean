import SharedCounters.Proofs.Lookups

/-! Freeing counters in any memory, whatever its slots hold. A freed slot keeps its id, so a second attempt
ends there and finds nothing, and searches for other ids go the way they went before. -/

namespace SharedCounters.Blocks

variable {n : Nat} {b : Blocks n} {m : Memory n} {id : UInt64} {j k : Nat}

section Released

variable (hk : k < b.partition.slots) (live : b.Live m k)

include hk live

theorem shown_released_iff (hj : j < b.partition.slots) :
    b.Shown (b.released m k) j ↔ j ≠ k ∧ b.Shown m j := by
  have touched : (∀ i, i < j → b.Touched (b.released m k) i) ↔ ∀ i, i < j → b.Touched m i := by
    refine forall₂_congr fun i hi => ?_
    rw [touched_released hk (Nat.lt_trans hi hj)]
    constructor
    · rintro (rfl | touched)
      · exact live.touched
      · exact touched
    · exact Or.inr
  rw [Shown, Shown, live_released hk hj, touched, and_assoc]

theorem verdict_released (hj : j < b.partition.slots) (other : SlotWord.id (b.slotWord m k) ≠ id) :
    SlotWord.verdict id (b.slotWord (b.released m k) j) = SlotWord.verdict id (b.slotWord m j) := by
  by_cases same : j = k
  · subst same
    have before : SlotWord.verdict id (b.slotWord m j) = .next :=
      verdict_eq_next_iff.2 ⟨live.touched, other⟩
    rw [before, verdict_eq_next_iff, touched_released hk hk, id_released hk hk]
    exact ⟨.inl rfl, other⟩
  · rw [released, slotWord_withWord b hk hj, if_neg same]

theorem holder_released_other (other : SlotWord.id (b.slotWord m k) ≠ id) :
    b.holder (b.released m k) id = b.holder m id :=
  holderFrom_congr b.partition.slots 0 fun j _ hj =>
    verdict_released hk live (by omega) other

end Released

section Holder

variable (held : b.holder m id = some k)

include held

theorem lt_of_holder : k < b.partition.slots := (mem_shown.1 (holder_eq_some_iff.1 held).1).1

theorem live_of_holder : b.Live m k := (mem_shown.1 (holder_eq_some_iff.1 held).1).2.1

theorem id_of_holder : SlotWord.id (b.slotWord m k) = id := (holder_eq_some_iff.1 held).2.1

/-- The id stays where it was, so a search for it ends there and finds nothing. -/
theorem holder_released : b.holder (b.released m k) id = none := by
  have hk := lt_of_holder held
  obtain ⟨-, same, first⟩ := holder_eq_some_iff.1 held
  refine Option.eq_none_iff_forall_ne_some.2 fun j found => ?_
  obtain ⟨shown, found, before⟩ := holder_eq_some_iff.1 found
  obtain ⟨hj, live, -⟩ := mem_shown.1 shown
  rw [id_released hk hj] at found
  rcases Nat.lt_trichotomy j k with lt | rfl | gt
  · exact first j lt found
  · exact ((live_released hk hk).1 live).1 rfl
  · exact before k gt ((id_released hk hk).trans same)

theorem shown_released : b.shown (b.released m k) =
    (b.shown m).eraseP fun j => (b.slotReading m j).id = id := by
  have hk := lt_of_holder held
  have live := live_of_holder held
  obtain ⟨here, front, rest, split, before⟩ := List.find?_eq_some_iff_append.1 (find?_shown held)
  have nodup : (b.shown m).Nodup := pairwise_shown.imp Nat.ne_of_lt
  have fresh : k ∉ front := fun mem => by simpa [here] using before k mem
  calc b.shown (b.released m k)
    _ = (b.shown m).filter (· != k) := by
      rw [shown, shown, List.filter_filter]
      refine List.filter_congr fun j hj => ?_
      rw [bne, Bool.eq_iff_iff, Bool.and_eq_true, decide_eq_true_eq, decide_eq_true_eq,
        shown_released_iff hk live (List.mem_range.1 hj), Bool.not_eq_true', beq_eq_false_iff_ne]
    _ = (b.shown m).erase k := (nodup.erase_eq_filter k).symm
    _ = front ++ rest := by rw [split, List.erase_append_right _ fresh, List.erase_cons_head]
    _ = (b.shown m).eraseP fun j => (b.slotReading m j).id = id := by
      rw [split, List.eraseP_append_right _ (by simpa using before), List.eraseP_cons, here, cond_true]

theorem listing_released : (b.shown (b.released m k)).map (b.slotReading (b.released m k)) =
    ((b.shown m).map (b.slotReading m)).eraseP fun r => r.id = id := by
  have hk := lt_of_holder held
  have readings : ∀ j ∈ b.shown (b.released m k), b.slotReading (b.released m k) j = b.slotReading m j :=
    fun j shown => slotReading_released hk (mem_shown.1 shown).1
  rw [List.map_congr_left readings, shown_released held, List.eraseP_map]
  rfl

end Holder

section Order

theorem withWord_comm (hj : j < b.partition.slots) (hk : k < b.partition.slots) (ne : j ≠ k)
    (word word' : SlotWord) :
    b.withWord (b.withWord m j word) k word' = b.withWord (b.withWord m k word') j word := by
  have := b.values_base
  have := b.values_end
  have len : (Word.bytes word).length = 8 := Word.length_bytes word
  have len' : (Word.bytes word').length = 8 := Word.length_bytes word'
  refine m.write_comm ?_ ?_ ?_
  all_goals simp only [wordOffset, metadataAt]; omega

theorem released_comm (hj : j < b.partition.slots) (hk : k < b.partition.slots) (ne : j ≠ k) :
    b.released (b.released m j) k = b.released (b.released m k) j := by
  have first : b.slotWord (b.released m k) j = b.slotWord m j := by
    rw [released, slotWord_withWord b hk hj, if_neg ne]
  have second : b.slotWord (b.released m j) k = b.slotWord m k := by
    rw [released, slotWord_withWord b hj hk, if_neg ne.symm]
  show b.withWord (b.released m j) k (SlotWord.pack (SlotWord.id (b.slotWord (b.released m j) k)) .freed) =
    b.withWord (b.released m k) j (SlotWord.pack (SlotWord.id (b.slotWord (b.released m k) j)) .freed)
  rw [first, second]
  exact withWord_comm hj hk ne _ _

variable {a c : UInt64}

theorem freed_of_some (held : b.holder m id = some k) : b.freed m id = b.released m k := by
  rw [freed, held]

theorem freed_of_none (none : b.holder m id = none) : b.freed m id = m := by
  rw [freed, none]

theorem holder_freed_other (ne : a ≠ c) : b.holder (b.freed m a) c = b.holder m c := by
  cases held : b.holder m a with
  | none => rw [freed_of_none held]
  | some k =>
    rw [freed_of_some held]
    exact holder_released_other (lt_of_holder held) (live_of_holder held) (id_of_holder held ▸ ne)

theorem holder_freed : b.holder (b.freed m a) a = none := by
  cases held : b.holder m a with
  | none => rwa [freed_of_none held]
  | some k =>
    rw [freed_of_some held]
    exact holder_released held

theorem freed_comm (ne : a ≠ c) : b.freed (b.freed m a) c = b.freed (b.freed m c) a := by
  have afterA : b.holder (b.freed m a) c = b.holder m c := holder_freed_other ne
  have afterC : b.holder (b.freed m c) a = b.holder m a := holder_freed_other ne.symm
  cases heldA : b.holder m a with
  | none => rw [freed_of_none heldA, freed_of_none (afterC.trans heldA)]
  | some j =>
    cases heldC : b.holder m c with
    | none => rw [freed_of_none heldC, freed_of_none (afterA.trans heldC)]
    | some k =>
      have apart : j ≠ k := by
        rintro rfl
        exact ne ((id_of_holder heldA).symm.trans (id_of_holder heldC))
      rw [freed_of_some (afterA.trans heldC), freed_of_some (afterC.trans heldA), freed_of_some heldA,
        freed_of_some heldC]
      exact released_comm (lt_of_holder heldA) (lt_of_holder heldC) apart

end Order

/-- What frees do to a memory and to what readers see of it. -/
structure FreeLaws (b : Blocks n) (m : Memory n) : Prop where
  comm : ∀ a c, a ≠ c → ∃ freedA freedC afterA afterC m',
    b.free a m = .ok freedA afterA ∧ b.free c afterA = .ok freedC m' ∧
    b.free c m = .ok freedC afterC ∧ b.free a afterC = .ok freedA m'
  again : ∀ a, ∃ freed m', b.free a m = .ok freed m' ∧ b.free a m' = .ok false m'
  done : ∀ a m', b.free a m = .ok true m' → ∃ listing, b.liveCounters m = .ok listing ∧
    (∃ r ∈ listing, r.id = a) ∧ b.liveCounters m' = .ok (listing.eraseP fun r => r.id = a) ∧
    b.valueOf a m' = .ok none
  refused : ∀ a m', b.free a m = .ok false m' → m' = m ∧ b.valueOf a m = .ok none

/-- In any memory frees of different ids can change places, a second one of an id does nothing, and one
that succeeds takes the first counter of its id off a listing and leaves the others. -/
theorem frees_obey_their_laws (b : Blocks n) (aligned : b.Aligned) (m : Memory n) : b.FreeLaws m := by
  constructor
  case comm =>
    intro a c ne
    refine ⟨_, _, _, b.freed m c, _, free_eq aligned, free_eq aligned, ?_, ?_⟩
    · rw [holder_freed_other ne]
      exact free_eq aligned
    · rw [freed_comm ne, ← holder_freed_other ne.symm]
      exact free_eq aligned
  case again =>
    intro a
    refine ⟨_, _, free_eq aligned, ?_⟩
    rw [free_eq aligned, freed_of_none holder_freed, holder_freed]
    rfl
  case done =>
    intro a m' run
    rw [free_eq aligned] at run
    injection run with found result
    obtain ⟨k, held⟩ := Option.isSome_iff_exists.1 found
    obtain rfl := (freed_of_some held).symm.trans result
    refine ⟨_, liveCounters_eq_shown aligned, ?_, ?_, ?_⟩
    · exact ⟨_, List.mem_map_of_mem (holder_eq_some_iff.1 held).1, id_of_holder held⟩
    · rw [liveCounters_eq_shown aligned, listing_released held]
    · rw [valueOf_eq aligned, holder_released held]
      rfl
  case refused =>
    intro a m' run
    rw [free_eq aligned] at run
    injection run with missed result
    have none : b.holder m a = none := by simpa using missed
    refine ⟨result.symm.trans (freed_of_none none), ?_⟩
    rw [valueOf_eq aligned, none]
    rfl

/-- Freeing 5 takes effect, in whichever order, and freeing 7 does not: the slot that has the id first is
free already. -/
theorem frees_in_a_tangle : fourSlots.Aligned ∧
    fourSlots.free 5 tangled = .ok true (fourSlots.released tangled 0) ∧
    fourSlots.valueOf 5 (fourSlots.released tangled 0) = .ok none ∧
    fourSlots.free 7 (fourSlots.released tangled 0) = .ok false (fourSlots.released tangled 0) ∧
    fourSlots.free 7 tangled = .ok false tangled := by
  have aligned : fourSlots.Aligned := rfl
  have laws := frees_obey_their_laws fourSlots aligned tangled
  have first : fourSlots.free 5 tangled = .ok true (fourSlots.released tangled 0) := by
    rw [free_eq aligned, freed_of_some holder_tangled.1, holder_tangled.1]
    rfl
  have second : fourSlots.free 7 tangled = .ok false tangled := by
    rw [free_eq aligned, freed_of_none holder_tangled.2, holder_tangled.2]
    rfl
  obtain ⟨listing, -, -, -, gone⟩ := laws.done 5 _ first
  obtain ⟨freed5, freed7, after5, after7, m', run5, run57, run7, run75⟩ := laws.comm 5 7 (by decide)
  cases first.symm.trans run5
  cases second.symm.trans run7
  cases first.symm.trans run75
  exact ⟨aligned, first, gone, run57, second⟩

end SharedCounters.Blocks
