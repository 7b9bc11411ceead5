import SharedCounters.Proofs.Scans

/-! What a memory in order shows is the register it mirrors: a listing has the register's counters in
slot order, and freeing or looking up a counter succeeds exactly when the register has one. -/

namespace SharedCounters.Blocks

variable {n : Nat} {b : Blocks n} {m : Memory n} {r : Register} {e : Entry} {id : UInt64}

section Listing

variable (mirrors : b.Mirrors m r)

include mirrors

theorem Mirrors.mem_shown (orderly : b.Orderly m) (he : e ∈ r) : e.slot ∈ b.shown m :=
  Blocks.mem_shown.2 ⟨mirrors.lt he, mirrors.live he, fun j hj =>
    orderly.filled j e.slot hj (mirrors.lt he) (mirrors.live he).touched⟩

theorem Mirrors.map_shown (orderly : b.Orderly m) :
    (b.shown m).map (fun slot => ⟨slot, b.slotReading m slot⟩) = r := by
  refine Register.InOrder.ext (List.pairwise_map.2 pairwise_shown) mirrors.inOrder fun e => ?_
  rw [List.mem_map]
  constructor
  · rintro ⟨slot, shown, rfl⟩
    obtain ⟨lt, live, -⟩ := Blocks.mem_shown.1 shown
    exact mirrors.mem_of_live lt live
  · intro he
    refine ⟨e.slot, mirrors.mem_shown orderly he, ?_⟩
    rw [mirrors.reading he]

theorem liveCounters_eq (aligned : b.Aligned) (orderly : b.Orderly m) :
    b.liveCounters m = .ok r.listing := by
  rw [liveCounters_eq_shown aligned, Register.listing, ← mirrors.map_shown orderly, List.map_map]
  rfl

end Listing

theorem Mirrors.holder_mem (mirrors : b.Mirrors m r) (orderly : b.Orderly m) (he : e ∈ r) :
    b.holder m e.id = some e.slot :=
  holder_eq_some_iff.2 ⟨mirrors.mem_shown orderly he, mirrors.id_eq he, fun _ hj =>
    (verdict_eq_next_iff.1 (mirrors.next orderly he hj)).2⟩

theorem Mirrors.holder_absent (mirrors : b.Mirrors m r) (absent : ∀ e ∈ r, e.id ≠ id) :
    b.holder m id = none := by
  refine Option.eq_none_iff_forall_ne_some.2 fun k found => ?_
  obtain ⟨shown, same, -⟩ := holder_eq_some_iff.1 found
  obtain ⟨lt, live, -⟩ := Blocks.mem_shown.1 shown
  exact absent _ (mirrors.mem_of_live lt live) same

section Finding

variable (aligned : b.Aligned) (mirrors : b.Mirrors m r)

include aligned mirrors

theorem valueOf_mem (orderly : b.Orderly m) (he : e ∈ r) : b.valueOf e.id m = .ok (some e.counter.value) := by
  rw [valueOf_eq aligned, mirrors.holder_mem orderly he, Option.map_some, mirrors.reading he]

theorem labelOf_mem (orderly : b.Orderly m) (he : e ∈ r) : b.labelOf e.id m = .ok (some e.counter.label) := by
  rw [labelOf_eq aligned, mirrors.holder_mem orderly he, Option.map_some, mirrors.reading he]

theorem free_mem (orderly : b.Orderly m) (he : e ∈ r) : b.free e.id m = .ok true (b.released m e.slot) := by
  rw [free_eq aligned, freed, mirrors.holder_mem orderly he]
  rfl

variable (absent : ∀ e ∈ r, e.id ≠ id)

include absent

theorem valueOf_absent : b.valueOf id m = .ok none := by
  rw [valueOf_eq aligned, mirrors.holder_absent absent]
  rfl

theorem labelOf_absent : b.labelOf id m = .ok none := by
  rw [labelOf_eq aligned, mirrors.holder_absent absent]
  rfl

theorem free_absent : b.free id m = .ok false m := by
  rw [free_eq aligned, freed, mirrors.holder_absent absent]
  rfl

end Finding

end SharedCounters.Blocks
