import SharedCounters.Proofs.Attempts
import SharedCounters.Proofs.Decoding
import SharedCounters.Proofs.SlotWords

/-! Claiming a slot while others act. A slot is claimed by what it holds at that very moment, which is what
the others left there at the last pause, and it is given up only if it was not free or its word changed
in the meantime. -/

namespace SharedCounters.Blocks

variable {κ : Type} {n : Nat} (b : Blocks n)

/-- Between two stages the slot was not free at some moment, or its word changed. -/
def Passed (R : κ × Memory n → κ × Memory n → Prop) (s u : κ × Memory n) (slot : Nat) : Prop :=
  ∃ t t', R s t ∧ R t t' ∧ R t' u ∧
    (SlotWord.isFree (b.slotWord t.2 slot) = false ∨ b.slotWord t'.2 slot ≠ b.slotWord t.2 slot)

/-- The last time the others were let in was at this slot, and they left it free. -/
structure LeftFree (pauses : List (Pause κ n)) (slot : Nat) (t : κ × Memory n) : Prop where
  last : ∃ before, pauses.getLast? = some ⟨slot, before, t⟩
  free : SlotWord.status? (b.slotWord t.2 slot) = some .notUsed ∨
    SlotWord.status? (b.slotWord t.2 slot) = some .freed

/-- How taking the first slot that can be claimed ends, from a slot on. -/
inductive Takes (others : Interference κ n) (id : UInt64) (label : List UInt8) (initial : Int64) (slot : Nat)
    (s : κ × Memory n) : List (Pause κ n) → Except Refusal Placement → κ × Memory n → Prop
  | full {pauses : List (Pause κ n)} {u : κ × Memory n} (acted : Pauses others s pauses u)
    (passed : ∀ j, slot ≤ j → j < b.partition.slots → b.Passed (Reaches others) s u j) :
    Takes others id label initial slot s pauses (.error (.capacityExceeded b.partition.slots)) u
  | taken {pauses : List (Pause κ n)} {t : κ × Memory n} {k retries : Nat} (acted : Pauses others s pauses t)
    (lt : k < b.partition.slots) (left : b.LeftFree pauses k t)
    (passed : ∀ j, slot ≤ j → j < k → b.Passed (Reaches others) s t j) :
    Takes others id label initial slot s pauses (.ok ⟨k, valueOffset k, label.length, retries⟩)
      (t.1, b.taken t.2 k id label initial)

variable {b} {others : Interference κ n} {R : κ × Memory n → κ × Memory n → Prop} {slot : Nat}
  {s t u : κ × Memory n} {pauses : List (Pause κ n)}

theorem Passed.extend (within : Within R others) {s' u' : κ × Memory n} (h : b.Passed R s' u slot)
    (before : R s s') (after : R u u') : b.Passed R s u' slot := by
  obtain ⟨t, t', h1, h2, h3, h4⟩ := h
  exact ⟨t, t', within.trans before h1, h2, within.trans h3 after, h4⟩

theorem Passed.related (within : Within R others) (h : b.Passed (Reaches others) s u slot) :
    b.Passed R s u slot := by
  obtain ⟨t, t', h1, h2, h3, h4⟩ := h
  exact ⟨t, t', h1.related within, h2.related within, h3.related within, h4⟩

theorem LeftFree.append (left : b.LeftFree pauses slot t) (earlier : List (Pause κ n)) :
    b.LeftFree (earlier ++ pauses) slot t where
  last := by
    obtain ⟨before, e⟩ := left.last
    exact ⟨before, by rw [List.getLast?_append, e]; rfl⟩
  free := left.free

theorem Takes.passed {id : UInt64} {label : List UInt8} {initial : Int64} {more : List (Pause κ n)}
    {result : Except Refusal Placement} (takes : b.Takes others id label initial (slot + 1) t more result u)
    (acted : Pauses others s pauses t) (first : b.Passed (Reaches others) s t slot) :
    b.Takes others id label initial slot s (pauses ++ more) result u := by
  have within := within_reaches others
  have passed : ∀ {v : κ × Memory n}, Pauses others t more v → ∀ {stop : Nat},
      (∀ j, slot + 1 ≤ j → j < stop → b.Passed (Reaches others) t v j) →
      ∀ j, slot ≤ j → j < stop → b.Passed (Reaches others) s v j := fun later stop rest j above below => by
    rcases Nat.lt_or_eq_of_le above with beyond | rfl
    · exact (rest j beyond below).extend within ⟨_, acted⟩ (within.refl _)
    · exact first.extend within (within.refl s) ⟨_, later⟩
  cases takes with
  | full later rest => exact .full (acted.append later) (passed later rest)
  | taken later lt left rest => exact .taken (acted.append later) lt (left.append pauses) (passed later rest)

section Trails

variable {budget : Nat} {tries : List (Pause κ n)}

/-- A slot that was given up was taken in the end, or it was changed at the first attempt. -/
theorem Attempts.passed (tried : b.Attempts others budget slot s tries false t) (pos : 0 < budget) :
    b.Passed (Reaches others) s t slot := by
  have within := within_reaches others
  have acted : Reaches others s t := ⟨tries, tried.acted⟩
  cases tried with
  | lost missed _ left =>
    rcases left with busy | spent
    · exact ⟨t, t, acted, within.refl t, within.refl t, .inl busy⟩
    · cases missed with
      | none s => exact absurd spent (Nat.ne_of_lt pos)
      | miss _ changed later =>
        exact ⟨s, others slot s, within.refl s, within.step slot s, ⟨_, later.acted⟩, .inr changed⟩

theorem Attempts.leftFree (tried : b.Attempts others budget slot s tries true t) :
    b.LeftFree tries slot t := by
  cases tried with
  | won missed few free same =>
    refine ⟨⟨_, List.getLast?_concat ..⟩, ?_⟩
    rw [same]
    exact SlotWord.isFree_iff.1 free

theorem Trail.takes {limit : RetryLimit} {found : Option Nat} (trail : b.Trail others limit slot s pauses found u)
    (id : UInt64) (label : List UInt8) (initial : Int64) (failures : Nat) :
    b.Takes others id label initial slot s pauses (b.answer label (failures + pauses.length) found)
      (b.settled id label initial u found) := by
  induction trail generalizing failures with
  | exhausted s => exact .full (.none s) fun j above below => by omega
  | @lost slot s t u tries more found _ tried _ ih =>
    have later := (ih (failures + tries.length)).passed tried.acted (tried.passed (Nat.succ_pos _))
    rwa [Nat.add_assoc, ← List.length_append] at later
  | won lt tried => exact .taken tried.acted lt tried.leftFree fun j above below => by omega

end Trails

variable (others) (aligned : b.Aligned)

include aligned

variable (id : UInt64) (initial : Int64) (limit : RetryLimit)

theorem allocateFrom_recorded {label : List UInt8} (room : label.length ≤ metadataAt.labelCapacity)
    (rest slot failures : Nat) (all : slot + rest = b.partition.slots) (earlier : List (Pause κ n))
    (s : κ × Memory n) :
    ∃ result pauses u, b.Takes others id label initial slot s pauses result u ∧
      b.allocateFrom others id label initial limit rest slot failures s = .ok result u ∧
      b.allocateFrom others.recorded id label initial limit rest slot failures (recording earlier s) =
        .ok result (recording (pauses.reverse ++ earlier) u) := by
  obtain ⟨found, pauses, u, trail, run, run'⟩ :=
    allocateFrom_trail others aligned id room initial limit rest slot failures all earlier s
  exact ⟨_, pauses, _, trail.takes id label initial failures, run, run'⟩

/-- An id that fits a word sends an allocation on its way through the slots; any other id is refused
at once. -/
theorem allocateAmong_trail (label : String) (s : κ × Memory n) :
    ((id = 0 ∨ largestId < id) ∧
      b.allocateAmong others id label initial limit s = .ok (.error (.invalidId id)) s ∧
      b.allocateAmong others.recorded id label initial limit (recording [] s) =
        .ok (.error (.invalidId id)) (recording [] s)) ∨
    (id ≠ 0 ∧ id ≤ largestId) ∧ ∃ found pauses u, b.Trail others limit 0 s pauses found u ∧
      b.allocateAmong others id label initial limit s =
        .ok (b.answer (Text.utf8 (keptLabel label)) (0 + pauses.length) found)
          (b.settled id (Text.utf8 (keptLabel label)) initial u found) ∧
      b.allocateAmong others.recorded id label initial limit (recording [] s) =
        .ok (b.answer (Text.utf8 (keptLabel label)) (0 + pauses.length) found)
          (recording pauses.reverse (b.settled id (Text.utf8 (keptLabel label)) initial u found)) := by
  unfold allocateAmong
  by_cases bad : id = 0 ∨ largestId < id
  · simp only [if_pos bad]
    exact .inl ⟨bad, rfl, rfl⟩
  · simp only [if_neg bad]
    refine .inr ⟨⟨fun zero => bad (.inl zero), UInt64.not_lt.1 fun large => bad (.inr large)⟩, ?_⟩
    obtain ⟨found, pauses, u, trail, run, run'⟩ := allocateFrom_trail others aligned id
      (length_keptLabel_le label) initial limit b.partition.slots 0 0 (Nat.zero_add _) [] s
    rw [List.append_nil] at run'
    exact ⟨found, pauses, u, trail, run, run'⟩

/-- An allocation never fails. When it is refused nothing changed but by the others; otherwise it takes
a slot that is free at that very moment, after it passed every slot before. -/
theorem allocateAmong_cases {others : Interference κ n} (within : Within R others) (label : String)
    (s : κ × Memory n) :
    (∃ refusal u, R s u ∧ b.allocateAmong others id label initial limit s = .ok (.error refusal) u) ∨
    ∃ k failures u, R s u ∧ id ≤ largestId ∧ k < b.partition.slots ∧
      SlotWord.isFree (b.slotWord u.2 k) = true ∧ (∀ j, j < k → b.Passed R s u j) ∧
      b.allocateAmong others id label initial limit s =
        .ok (.ok ⟨k, valueOffset k, (Text.utf8 (keptLabel label)).length, failures⟩)
          (u.1, b.taken u.2 k id (Text.utf8 (keptLabel label)) initial) := by
  rcases allocateAmong_trail others aligned id initial limit label s with
    ⟨-, run, -⟩ | ⟨⟨-, valid⟩, found, pauses, u, trail, run, -⟩
  · exact Or.inl ⟨_, s, within.refl s, run⟩
  · have takes := trail.takes id (Text.utf8 (keptLabel label)) initial 0
    generalize b.answer _ _ found = result at takes run
    generalize b.settled _ _ _ u found = finish at takes run
    cases takes with
    | full acted _ => exact Or.inl ⟨_, finish, acted.related within, run⟩
    | taken acted lt left passed =>
      exact Or.inr ⟨_, _, _, acted.related within, valid, lt, SlotWord.isFree_iff.2 left.free,
        fun j below => (passed j (Nat.zero_le j) below).related within, run⟩

end SharedCounters.Blocks
