import SharedCounters.Proofs.Pauses
import SharedCounters.Proofs.Steps

/-! The attempts of an allocation, one after the other. On one slot an attempt fails because the others
changed its word in the meantime; the slot is given up when it is found taken or when the attempts are used
up. What a run does to the slots, and how often it lets the others in, is read off its trail. -/

namespace SharedCounters.Blocks

variable {κ : Type} {n : Nat} (b : Blocks n)

/-- Failed attempts on a slot: it was free each time, and its word was another one after the others had
been let in. -/
inductive Misses (others : Interference κ n) (slot : Nat) :
    κ × Memory n → List (Pause κ n) → κ × Memory n → Prop
  | none (s : κ × Memory n) : Misses others slot s [] s
  | miss {s t : κ × Memory n} {misses : List (Pause κ n)}
    (free : SlotWord.isFree (b.slotWord s.2 slot) = true)
    (changed : b.slotWord (others slot s).2 slot ≠ b.slotWord s.2 slot)
    (later : Misses others slot (others slot s) misses t) :
    Misses others slot s (⟨slot, s, others slot s⟩ :: misses) t

/-- All attempts on one slot, and whether the last one claimed it. -/
inductive Attempts (others : Interference κ n) (budget slot : Nat) (s : κ × Memory n) :
    List (Pause κ n) → Bool → κ × Memory n → Prop
  | won {t : κ × Memory n} {misses : List (Pause κ n)} (missed : b.Misses others slot s misses t)
    (few : misses.length < budget) (free : SlotWord.isFree (b.slotWord t.2 slot) = true)
    (same : b.slotWord (others slot t).2 slot = b.slotWord t.2 slot) :
    Attempts others budget slot s (misses ++ [⟨slot, t, others slot t⟩]) true (others slot t)
  | lost {t : κ × Memory n} {misses : List (Pause κ n)} (missed : b.Misses others slot s misses t)
    (few : misses.length ≤ budget)
    (left : SlotWord.isFree (b.slotWord t.2 slot) = false ∨ misses.length = budget) :
    Attempts others budget slot s misses false t

/-- The way through the slots from one on, up to the one that is claimed, if any is. -/
inductive Trail (others : Interference κ n) (limit : RetryLimit) :
    Nat → κ × Memory n → List (Pause κ n) → Option Nat → κ × Memory n → Prop
  | exhausted (s : κ × Memory n) : Trail others limit b.partition.slots s [] none s
  | lost {slot : Nat} {s t u : κ × Memory n} {tries more : List (Pause κ n)} {found : Option Nat}
    (lt : slot < b.partition.slots)
    (tried : b.Attempts others (limit.perSlot + 1) slot s tries false t)
    (later : Trail others limit (slot + 1) t more found u) :
    Trail others limit slot s (tries ++ more) found u
  | won {slot : Nat} {s t : κ × Memory n} {tries : List (Pause κ n)} (lt : slot < b.partition.slots)
    (tried : b.Attempts others (limit.perSlot + 1) slot s tries true t) :
    Trail others limit slot s tries (some slot) t

/-- The answer after so many pauses: all but the last one were in vain. -/
def answer (label : List UInt8) (pauses : Nat) : Option Nat → Except Refusal Placement
  | none => .error (.capacityExceeded b.partition.slots)
  | some slot => .ok ⟨slot, valueOffset slot, label.length, pauses - 1⟩

def settled (id : UInt64) (label : List UInt8) (initial : Int64) (u : κ × Memory n) :
    Option Nat → κ × Memory n
  | none => u
  | some slot => (u.1, b.taken u.2 slot id label initial)

variable {b} {others : Interference κ n} {limit : RetryLimit} {budget slot : Nat} {s t u : κ × Memory n}
  {misses tries pauses : List (Pause κ n)} {found : Option Nat} {claimed : Bool}

section Acting

theorem Misses.acted (missed : b.Misses others slot s misses t) : Pauses others s misses t := by
  induction missed with
  | none s => exact .none s
  | miss _ _ _ ih => exact .pause slot ih

theorem Attempts.acted (tried : b.Attempts others budget slot s tries claimed t) :
    Pauses others s tries t := by
  cases tried with
  | won missed _ _ _ => exact missed.acted.append (.pause slot (.none _))
  | lost missed _ _ => exact missed.acted

theorem Trail.acted (trail : b.Trail others limit slot s pauses found u) : Pauses others s pauses u := by
  induction trail with
  | exhausted s => exact .none s
  | lost _ tried _ ih => exact tried.acted.append ih
  | won _ tried => exact tried.acted

theorem Trail.lt_of_found {k : Nat} (trail : b.Trail others limit slot s pauses found u)
    (claimed : found = some k) : k < b.partition.slots := by
  induction trail with
  | exhausted s => cases claimed
  | lost _ _ _ ih => exact ih claimed
  | won lt _ =>
    cases claimed
    exact lt

end Acting

section Running

variable (aligned : b.Aligned) (others)

include aligned

/-- The attempts on one slot, recorded or not. The claim is all they write. -/
theorem claimSlot_attempts (h : slot < b.partition.slots) (claim : SlotWord) (budget failures : Nat)
    (earlier : List (Pause κ n)) (s : κ × Memory n) :
    ∃ claimed failures' tries t, b.Attempts others budget slot s tries claimed t ∧
      failures' + claimed.toNat = failures + tries.length ∧
      b.claimSlot others slot claim budget (b.slotWord s.2 slot) failures s =
        .ok (claimed, failures') (if claimed then (t.1, b.withWord t.2 slot claim) else t) ∧
      b.claimSlot others.recorded slot claim budget (b.slotWord s.2 slot) failures (recording earlier s) =
        .ok (claimed, failures') (recording (tries.reverse ++ earlier)
          (if claimed then (t.1, b.withWord t.2 slot claim) else t)) := by
  induction budget generalizing failures earlier s with
  | zero => exact ⟨false, failures, [], s, .lost (.none s) (Nat.le_refl 0) (.inr rfl), rfl, rfl, rfl⟩
  | succ budget ih =>
    rw [claimSlot_succ aligned others h, claimSlot_succ aligned others.recorded h, recorded_recording]
    by_cases free : SlotWord.isFree (b.slotWord s.2 slot) = true
    · by_cases same : b.slotWord (others slot s).2 slot = b.slotWord s.2 slot
      · -- nobody touched the word, so what was seen to be free still is
        simp only [if_pos free, if_pos same]
        exact ⟨true, failures, [⟨slot, s, others slot s⟩], others slot s,
          .won (.none s) (Nat.succ_pos budget) free same, rfl, rfl, rfl⟩
      · obtain ⟨claimed, failures', tries, t, tried, count, run, run'⟩ :=
          ih (failures + 1) (⟨slot, s, others slot s⟩ :: earlier) (others slot s)
        simp only [if_pos free, if_neg same]
        refine ⟨claimed, failures', ⟨slot, s, others slot s⟩ :: tries, t, ?_, ?_, run, ?_⟩
        · cases tried with
          | won missed few free' same' =>
            exact .won (.miss free same missed) (Nat.succ_lt_succ few) free' same'
          | lost missed few left =>
            exact .lost (.miss free same missed) (Nat.succ_le_succ few) (left.imp_right (congrArg (· + 1)))
        · rw [count, List.length_cons]
          omega
        · rw [run', List.reverse_cons, List.append_assoc]
          rfl
    · simp only [if_neg free]
      have busy : SlotWord.isFree (b.slotWord s.2 slot) = false := Bool.not_eq_true _ ▸ free
      exact ⟨false, failures, [], s, .lost (.none s) (Nat.zero_le _) (.inl busy), rfl, rfl, rfl⟩

/-- An allocation goes the same way whether the pauses are recorded or not. -/
theorem allocateFrom_trail (id : UInt64) {label : List UInt8}
    (room : label.length ≤ metadataAt.labelCapacity) (initial : Int64) (limit : RetryLimit)
    (rest slot failures : Nat) (all : slot + rest = b.partition.slots) (earlier : List (Pause κ n))
    (s : κ × Memory n) :
    ∃ found pauses u, b.Trail others limit slot s pauses found u ∧
      b.allocateFrom others id label initial limit rest slot failures s =
        .ok (b.answer label (failures + pauses.length) found) (b.settled id label initial u found) ∧
      b.allocateFrom others.recorded id label initial limit rest slot failures (recording earlier s) =
        .ok (b.answer label (failures + pauses.length) found)
          (recording (pauses.reverse ++ earlier) (b.settled id label initial u found)) := by
  induction rest generalizing slot failures earlier s with
  | zero =>
    obtain rfl : slot = b.partition.slots := all
    exact ⟨none, [], s, .exhausted s, rfl, rfl⟩
  | succ rest ih =>
    have h : slot < b.partition.slots := by omega
    rw [allocateFrom_succ aligned others h id room, allocateFrom_succ aligned others.recorded h id room]
    obtain ⟨claimed, failures', tries, t, tried, count, run, run'⟩ := claimSlot_attempts others aligned h
      (SlotWord.pack id .allocating) (limit.perSlot + 1) failures earlier s
    rw [run, run']
    cases claimed with
    | true =>
      obtain rfl : failures' = failures + tries.length - 1 := by
        rw [← count]
        exact (Nat.add_sub_cancel ..).symm
      exact ⟨some slot, tries, t, .won h tried, rfl, rfl⟩
    | false =>
      obtain rfl : failures' = failures + tries.length := count
      obtain ⟨found, more, u, trail, run, run'⟩ :=
        ih (slot + 1) (failures + tries.length) (by omega) (tries.reverse ++ earlier) t
      rw [Nat.add_assoc, ← List.length_append] at run run'
      refine ⟨found, tries ++ more, u, .lost h tried trail, run, ?_⟩
      rw [List.reverse_append, List.append_assoc]
      exact run'

end Running

end SharedCounters.Blocks
