import SharedCounters.Proofs.Slots

/-! One step of each scan in an aligned region, in terms of what the slots hold. No step fails. -/

namespace SharedCounters

variable {κ α : Type} {n : Nat}

theorem Write.lift_read {read : Read n α} {a : α} {m : Memory n} (h : read m = .ok a) :
    (liftM read : Write n α) m = .ok a m := by
  simp only [liftM, monadLift, MonadLift.monadLift, h]

theorem Write.lift_error {read : Read n α} {fault : Fault} {m : Memory n} (h : read m = .error fault) :
    (liftM read : Write n α) m = .error fault m := by
  simp only [liftM, monadLift, MonadLift.monadLift, h]

theorem Contended.lift_write {write : Write n α} {a : α} {s : κ × Memory n} {m : Memory n}
    (h : write s.2 = .ok a m) : (liftM write : Contended κ n α) s = .ok a (s.1, m) := by
  simp only [liftM, monadLift, MonadLift.monadLift, h]

theorem Contended.lift_read {read : Read n α} {a : α} {s : κ × Memory n} (h : read s.2 = .ok a) :
    (liftM read : Contended κ n α) s = .ok a s :=
  Contended.lift_write (Write.lift_read h)

namespace Blocks

variable {b : Blocks n} (aligned : b.Aligned) (others : Interference κ n) {slot : Nat}
  (h : slot < b.partition.slots)

include aligned h

theorem claimSlot_succ (claim : SlotWord) (budget : Nat) (seen : SlotWord) (failures : Nat)
    (s : κ × Memory n) :
    b.claimSlot others slot claim (budget + 1) seen failures s =
      if SlotWord.isFree seen then
        if b.slotWord (others slot s).2 slot = seen then
          .ok (true, failures) ((others slot s).1, b.withWord (others slot s).2 slot claim)
        else
          b.claimSlot others slot claim budget (b.slotWord (others slot s).2 slot) (failures + 1)
            (others slot s)
      else .ok (false, failures) s := by
  have swap := swapWord_eq aligned h (others slot s).2 seen claim
  rw [claimSlot]
  split_ifs with h1 h2
  · rw [if_pos h2] at swap
    simp only [bind, EStateM.bind, Contended.yield, Contended.lift_write swap]
    rfl
  · rw [if_neg h2] at swap
    simp only [bind, EStateM.bind, Contended.yield, Contended.lift_write swap]
  · rfl

/-- A slot is filled in as soon as it is claimed: nobody acts in between. -/
theorem allocateFrom_succ (id : UInt64) {label : List UInt8}
    (room : label.length ≤ metadataAt.labelCapacity) (initial : Int64) (limit : RetryLimit)
    (rest failures : Nat) (s : κ × Memory n) :
    b.allocateFrom others id label initial limit (rest + 1) slot failures s =
      match b.claimSlot others slot (SlotWord.pack id .allocating) (limit.perSlot + 1)
        (b.slotWord s.2 slot) failures s with
      | .ok (true, failures) t =>
        .ok (.ok ⟨slot, valueOffset slot, label.length, failures⟩)
          (t.1, b.occupied t.2 slot id label initial)
      | .ok (false, failures) t =>
        b.allocateFrom others id label initial limit rest (slot + 1) failures t
      | .error fault t => .error fault t := by
  rw [allocateFrom]
  simp only [bind, EStateM.bind, Contended.lift_read (word_eq aligned h s.2)]
  rcases b.claimSlot others slot (SlotWord.pack id .allocating) (limit.perSlot + 1)
    (b.slotWord s.2 slot) failures s with ⟨⟨_ | _, failures⟩, t⟩ | ⟨fault, t⟩
  · rfl
  · simp only [if_true, EStateM.bind, Contended.lift_write (occupy_eq h t.2 id room initial aligned)]
    rfl
  · rfl

theorem freeFrom_succ (id : UInt64) (rest : Nat) (m : Memory n) :
    b.freeFrom id (rest + 1) slot m =
      match SlotWord.verdict id (b.slotWord m slot) with
      | .stop => .ok false m
      | .next => b.freeFrom id rest (slot + 1) m
      | .here => .ok true (b.withWord m slot (SlotWord.pack id .freed)) := by
  have swap := swapWord_eq aligned h m (b.slotWord m slot) (SlotWord.pack id .freed)
  rw [if_pos rfl] at swap
  rw [freeFrom]
  simp only [bind, EStateM.bind, Write.lift_read (word_eq aligned h m)]
  cases SlotWord.verdict id (b.slotWord m slot) with
  | stop => rfl
  | next => rfl
  | here =>
    simp only [EStateM.bind, swap]
    rfl

theorem searchFrom_succ (id : UInt64) (rest : Nat) (s : κ × Memory n) :
    b.searchFrom others id (rest + 1) slot s =
      match SlotWord.verdict id (b.slotWord s.2 slot) with
      | .stop => .ok none s
      | .next => b.searchFrom others id rest (slot + 1) s
      | .here =>
        if b.slotWord (others slot s).2 slot = b.slotWord s.2 slot then
          .ok (some (b.slotHeld s.2 slot)) (others slot s)
        else if SlotWord.verdict id (b.slotWord (others slot s).2 slot) = .next then
          b.searchFrom others id rest (slot + 1) (others slot s)
        else .ok none (others slot s) := by
  rw [searchFrom]
  simp only [bind, EStateM.bind, Contended.lift_read (word_eq aligned h s.2)]
  cases SlotWord.verdict id (b.slotWord s.2 slot) with
  | stop => rfl
  | next => rfl
  | here =>
    simp only [EStateM.bind, Contended.lift_read (held_eq aligned h s.2), Contended.yield,
      Contended.lift_read (word_eq aligned h (others slot s).2)]
    split_ifs <;> rfl

theorem liveFrom_succ (rest : Nat) (s : κ × Memory n) :
    b.liveFrom others (rest + 1) slot s =
      match SlotWord.status? (b.slotWord s.2 slot) with
      | some .notUsed => .ok [] s
      | some .allocated =>
        match b.liveFrom others rest (slot + 1) (others slot s) with
        | .ok later t =>
          .ok (if b.slotWord (others slot s).2 slot = b.slotWord s.2 slot then
            b.slotReading s.2 slot :: later else later) t
        | .error fault t => .error fault t
      | _ => b.liveFrom others rest (slot + 1) s := by
  rw [liveFrom]
  simp only [bind, EStateM.bind, Contended.lift_read (word_eq aligned h s.2)]
  rcases SlotWord.status? (b.slotWord s.2 slot) with _ | _ | _ | _ | _
  · rfl
  · rfl
  · rfl
  · simp only [EStateM.bind, Contended.lift_read (held_eq aligned h s.2), Contended.yield,
      Contended.lift_read (word_eq aligned h (others slot s).2)]
    cases b.liveFrom others rest (slot + 1) (others slot s) with
    | error fault t => rfl
    | ok later t => rfl
  · rfl

end Blocks

end SharedCounters
