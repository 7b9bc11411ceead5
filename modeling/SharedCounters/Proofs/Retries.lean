import SharedCounters.Proofs.Placing

/-! How often an allocation tries. Whatever the others do to the region, they are let in at one slot after
the other, at each slot no more often than the limit allows, and a slot is given up only when it was seen
to be in use or when all attempts on it have failed. -/

namespace SharedCounters

variable {κ : Type} {n : Nat}

def stageAfter (s : κ × Memory n) (pauses : List (Pause κ n)) : κ × Memory n :=
  pauses.foldl (fun _ pause => pause.after) s

theorem stageAfter_append (s : κ × Memory n) (pauses more : List (Pause κ n)) :
    stageAfter s (pauses ++ more) = stageAfter (stageAfter s pauses) more := List.foldl_append ..

theorem Pauses.stageAfter_eq {others : Interference κ n} {s u : κ × Memory n} {pauses : List (Pause κ n)}
    (acted : Pauses others s pauses u) : stageAfter s pauses = u := by
  induction acted with
  | none s => rfl
  | pause slot _ ih => exact ih

def pausesAt (pauses : List (Pause κ n)) (slot : Nat) : List (Pause κ n) :=
  pauses.filter fun p => p.slot = slot

section Places

variable {pauses more : List (Pause κ n)} {slot : Nat}

theorem pausesAt_append : pausesAt (pauses ++ more) slot = pausesAt pauses slot ++ pausesAt more slot :=
  List.filter_append ..

theorem pausesAt_of_all (here : ∀ p ∈ pauses, p.slot = slot) : pausesAt pauses slot = pauses :=
  List.filter_eq_self.2 fun p hp => by simpa using here p hp

theorem pausesAt_of_none (elsewhere : ∀ p ∈ pauses, p.slot ≠ slot) : pausesAt pauses slot = [] :=
  List.filter_eq_nil_iff.2 fun p hp => by simpa using elsewhere p hp

end Places

namespace Blocks

variable (b : Blocks n)

/-- The word of a slot when it was looked at last, after the pauses at the slots before and at itself. -/
def lastSeen (s : κ × Memory n) (pauses : List (Pause κ n)) (slot : Nat) : SlotWord :=
  b.slotWord (stageAfter s (pauses.filter fun p => p.slot ≤ slot)).2 slot

/-- An attempt fails when the word of the slot is no longer the one that was expected. -/
def Failed (p : Pause κ n) : Prop := b.slotWord p.after.2 p.slot ≠ b.slotWord p.before.2 p.slot

/-- Why a slot is given up: it was seen to be in use, or as many attempts as are allowed have failed. -/
def GivenUp (limit : RetryLimit) (s : κ × Memory n) (pauses : List (Pause κ n)) (slot : Nat) : Prop :=
  (SlotWord.status? (b.lastSeen s pauses slot) ≠ some .notUsed ∧
    SlotWord.status? (b.lastSeen s pauses slot) ≠ some .freed) ∨
  (pausesAt pauses slot).length = limit.perSlot + 1 ∧ ∀ p ∈ pausesAt pauses slot, b.Failed p

/-- The slots that were given up: those before the one that was taken, or all of them. -/
def Behind (slot : Nat) : Except Refusal Placement → Prop
  | .ok placement => slot < placement.slot
  | .error (.capacityExceeded _) => slot < b.partition.slots
  | .error (.invalidId _) => False

/-- An allocation with these pauses kept to the limit. -/
structure Patient (limit : RetryLimit) (s : κ × Memory n) (pauses : List (Pause κ n))
    (result : Except Refusal Placement) : Prop where
  bounds : ∀ p ∈ pauses, p.slot < b.partition.slots
  inOrder : pauses.Pairwise fun p q => p.slot ≤ q.slot
  perSlot : ∀ slot, (pausesAt pauses slot).length ≤ limit.perSlot + 1
  total : pauses.length ≤ b.partition.slots * (limit.perSlot + 1)
  retries : ∀ placement, result = .ok placement → pauses.length = placement.retries + 1
  givenUp : ∀ slot, b.Behind slot result → b.GivenUp limit s pauses slot

variable {b} {others : Interference κ n} {limit : RetryLimit} {budget slot : Nat} {s t u : κ × Memory n}
  {misses tries more pauses : List (Pause κ n)} {found : Option Nat} {claimed : Bool}

section OneSlot

theorem Misses.failed (missed : b.Misses others slot s misses t) :
    ∀ p ∈ misses, p.slot = slot ∧ b.Failed p := by
  induction missed with
  | none s => exact fun p hp => absurd hp List.not_mem_nil
  | miss _ changed _ ih => exact List.forall_mem_cons.2 ⟨⟨rfl, changed⟩, ih⟩

theorem Attempts.slot_eq (tried : b.Attempts others budget slot s tries claimed t) :
    ∀ p ∈ tries, p.slot = slot := by
  cases tried with
  | won missed _ _ _ =>
    intro p hp
    rcases List.mem_append.1 hp with hp | hp
    · exact (missed.failed p hp).1
    · rw [List.mem_singleton.1 hp]
  | lost missed _ _ => exact fun p hp => (missed.failed p hp).1

theorem Attempts.length_le (tried : b.Attempts others budget slot s tries claimed t) :
    tries.length ≤ budget := by
  cases tried with
  | won _ few _ _ =>
    rw [List.length_append, List.length_singleton]
    exact few
  | lost _ few _ => exact few

theorem Attempts.givenUp (tried : b.Attempts others (limit.perSlot + 1) slot s tries false t)
    (beyond : ∀ p ∈ more, slot < p.slot) : b.GivenUp limit s (tries ++ more) slot := by
  have here := tried.slot_eq
  have seen : (tries ++ more).filter (fun p => p.slot ≤ slot) = tries := by
    rw [List.filter_append, List.filter_eq_self.2, List.filter_eq_nil_iff.2, List.append_nil]
    · intro p hp
      simpa using beyond p hp
    · intro p hp
      simpa using Nat.le_of_eq (here p hp)
  have at_eq : pausesAt (tries ++ more) slot = tries := by
    rw [pausesAt_append, pausesAt_of_all here, pausesAt_of_none fun p hp => Nat.ne_of_gt (beyond p hp),
      List.append_nil]
  have last : b.lastSeen s (tries ++ more) slot = b.slotWord t.2 slot := by
    rw [lastSeen, seen, tried.acted.stageAfter_eq]
  rw [GivenUp, last, at_eq]
  cases tried with
  | lost missed _ left =>
    rcases left with busy | spent
    · left
      simpa [SlotWord.isFree, not_or] using busy
    · exact .inr ⟨spent, fun p hp => (missed.failed p hp).2⟩

end OneSlot

section Trails

variable (trail : b.Trail others limit slot s pauses found u)

include trail

theorem Trail.bounds : ∀ p ∈ pauses, slot ≤ p.slot ∧ p.slot < b.partition.slots := by
  induction trail with
  | exhausted s => exact fun p hp => absurd hp List.not_mem_nil
  | lost lt tried _ ih =>
    intro p hp
    rcases List.mem_append.1 hp with hp | hp
    · rw [tried.slot_eq p hp]
      exact ⟨Nat.le_refl _, lt⟩
    · exact ⟨Nat.le_of_succ_le (ih p hp).1, (ih p hp).2⟩
  | won lt tried =>
    intro p hp
    rw [tried.slot_eq p hp]
    exact ⟨Nat.le_refl _, lt⟩

theorem Trail.inOrder : pauses.Pairwise fun p q => p.slot ≤ q.slot := by
  have level : ∀ {tries : List (Pause κ n)} {slot : Nat}, (∀ p ∈ tries, p.slot = slot) →
      tries.Pairwise fun p q => p.slot ≤ q.slot := fun same =>
    List.pairwise_of_forall_mem_list fun p hp q hq => by rw [same p hp, same q hq]
  induction trail with
  | exhausted s => exact .nil
  | lost _ tried later ih =>
    refine List.pairwise_append.2 ⟨level tried.slot_eq, ih, fun p hp q hq => ?_⟩
    rw [tried.slot_eq p hp]
    exact Nat.le_of_succ_le (later.bounds q hq).1
  | won _ tried => exact level tried.slot_eq

theorem Trail.pausesAt_length_le (j : Nat) : (pausesAt pauses j).length ≤ limit.perSlot + 1 := by
  induction trail with
  | exhausted s => exact Nat.zero_le _
  | @lost slot s t u tries more found _ tried later ih =>
    rw [pausesAt_append]
    by_cases here : j = slot
    · -- all pauses at this slot are among its own attempts
      subst here
      rw [pausesAt_of_none fun p hp => Nat.ne_of_gt (later.bounds p hp).1, List.append_nil]
      exact Nat.le_trans (List.length_filter_le ..) tried.length_le
    · rw [pausesAt_of_none fun p hp => tried.slot_eq p hp ▸ Ne.symm here, List.nil_append]
      exact ih
  | won _ tried => exact Nat.le_trans (List.length_filter_le ..) tried.length_le

theorem Trail.length_le : pauses.length ≤ (b.partition.slots - slot) * (limit.perSlot + 1) := by
  induction trail with
  | exhausted s => exact Nat.zero_le _
  | @lost slot s t u tries more found lt tried _ ih =>
    have few := tried.length_le
    rw [show b.partition.slots - slot = (b.partition.slots - (slot + 1)) + 1 by omega, Nat.succ_mul,
      List.length_append]
    omega
  | @won slot s t tries lt tried =>
    have one : 1 ≤ b.partition.slots - slot := Nat.sub_pos_of_lt lt
    exact Nat.le_trans tried.length_le (Nat.le_mul_of_pos_left _ one)

theorem Trail.length_pos {k : Nat} (claimed : found = some k) : 0 < pauses.length := by
  induction trail with
  | exhausted s => cases claimed
  | lost _ _ _ ih =>
    rw [List.length_append]
    exact Nat.add_pos_right _ (ih claimed)
  | won _ tried =>
    cases tried with
    | won => simp

theorem Trail.givenUp {j : Nat} (from_le : slot ≤ j) (before : j < found.getD b.partition.slots) :
    b.GivenUp limit s pauses j := by
  induction trail with
  | exhausted s => exact absurd before (Nat.not_lt_of_le from_le)
  | @lost slot s t u tries more found _ tried later ih =>
    rcases Nat.eq_or_lt_of_le from_le with rfl | beyond
    · exact tried.givenUp fun p hp => (later.bounds p hp).1
    · have all : tries.filter (fun p => p.slot ≤ j) = tries := List.filter_eq_self.2 fun p hp => by
        simpa [tried.slot_eq p hp] using from_le
      have last : b.lastSeen s (tries ++ more) j = b.lastSeen t more j := by
        rw [lastSeen, List.filter_append, all, stageAfter_append, tried.acted.stageAfter_eq, ← lastSeen]
      have same : pausesAt (tries ++ more) j = pausesAt more j := by
        rw [pausesAt_append, pausesAt_of_none fun p hp => tried.slot_eq p hp ▸ Nat.ne_of_lt beyond,
          List.nil_append]
      rw [GivenUp, last, same]
      exact ih beyond before
  | won _ _ => exact absurd before (Nat.not_lt_of_le from_le)

end Trails

theorem Trail.patient (trail : b.Trail others limit 0 s pauses found u) (label : List UInt8) :
    b.Patient limit s pauses (b.answer label (0 + pauses.length) found) := by
  constructor
  case bounds => exact fun p hp => (trail.bounds p hp).2
  case inOrder => exact trail.inOrder
  case perSlot => exact trail.pausesAt_length_le
  case total => exact trail.length_le
  case retries =>
    intro placement taken
    cases found with
    | none => cases taken
    | some slot =>
      have pos := trail.length_pos rfl
      cases taken
      show pauses.length = 0 + pauses.length - 1 + 1
      omega
  case givenUp =>
    intro slot behind
    refine trail.givenUp (Nat.zero_le slot) ?_
    cases found with
    | none => exact behind
    | some slot => exact behind

/-- No count of attempts runs over 32 bits if slots times attempts fit. -/
theorem Patient.counts_fit {result : Except Refusal Placement} (patient : b.Patient limit s pauses result)
    (small : b.partition.slots * (limit.perSlot + 1) < UInt32.size) :
    pauses.length < UInt32.size ∧ (∀ slot, (pausesAt pauses slot).length < UInt32.size) ∧
      ∀ placement, result = .ok placement → placement.retries < UInt32.size := by
  have all : pauses.length < UInt32.size := Nat.lt_of_le_of_lt patient.total small
  refine ⟨all, fun slot => Nat.lt_of_le_of_lt (List.length_filter_le ..) all, fun placement taken => ?_⟩
  have counted := patient.retries placement taken
  omega

/-- An allocation ends whatever the others write. It lets them in slot by slot, no more often than the limit
allows, counts all pauses but the last one as retries, and gives no slot up for another reason than that it
was in use or all attempts on it had failed. The count fits the 32 bits it is kept in. -/
theorem attempts_are_bounded (aligned : b.Aligned) (limit : RetryLimit)
    (small : b.partition.slots * (limit.perSlot + 1) < UInt32.size) (others : Interference κ n) (id : UInt64)
    (label : String) (initial : Int64) (s : κ × Memory n) :
    ∃ result pauses u, b.allocateAmong others id label initial limit s = .ok result u ∧
      b.allocateAmong others.recorded id label initial limit (recording [] s) =
        .ok result (recording pauses.reverse u) ∧
      pauses.length < UInt32.size ∧ b.Patient limit s pauses result := by
  rcases allocateAmong_trail others aligned id initial limit label s with
    ⟨-, run, run'⟩ | ⟨-, found, pauses, u, trail, run, run'⟩
  · refine ⟨.error (.invalidId id), [], s, run, run', show 0 < UInt32.size by decide, ?_⟩
    exact ⟨nofun, .nil, fun _ => Nat.zero_le _, Nat.zero_le _, nofun, fun _ => False.elim⟩
  · have patient := trail.patient (Text.utf8 (keptLabel label))
    exact ⟨_, pauses, _, run, run', (patient.counts_fit small).1, patient⟩

/-- Somebody who leaves another freed counter behind each time. -/
def stubborn (slot : Nat) (s : Nat × Memory 896) : Nat × Memory 896 :=
  (s.1 + 1, oneSlot.withWord s.2 slot (SlotWord.pack (UInt64.ofNat s.1) .freed))

theorem allocateAmong_stubborn :
    result? (oneSlot.allocateAmong stubborn 1 "a" 5 ⟨2⟩ (7, Memory.zero 896)) =
      some (.error (.capacityExceeded 1)) := by
  decide +kernel

/-- The only slot is free all the time, and is given up after three attempts. -/
theorem attempts_against_the_stubborn :
    oneSlot.Aligned ∧ oneSlot.partition.slots * (2 + 1) < UInt32.size ∧ ∃ pauses u,
      oneSlot.allocateAmong stubborn 1 "a" 5 ⟨2⟩ (7, Memory.zero 896) =
        .ok (.error (.capacityExceeded 1)) u ∧
      pauses.length ≤ 3 ∧ oneSlot.GivenUp ⟨2⟩ (7, Memory.zero 896) pauses 0 := by
  have aligned : oneSlot.Aligned := rfl
  have small : oneSlot.partition.slots * (2 + 1) < UInt32.size := by decide
  obtain ⟨result, pauses, u, run, -, -, patient⟩ :=
    attempts_are_bounded aligned ⟨2⟩ small stubborn 1 "a" 5 (7, Memory.zero 896)
  have refused := allocateAmong_stubborn
  rw [run] at refused
  cases refused
  exact ⟨aligned, small, pauses, u, run, patient.total, patient.givenUp 0 Nat.one_pos⟩

end Blocks

end SharedCounters
