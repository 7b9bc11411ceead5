import SharedCounters.Machine.Contention

/-! What the others did during an operation, pause by pause. Others whose doings are recorded act as they
would anyway, so the record tells where the operation paused and what it found afterwards. All that is
known of the others may be a relation between stages that their steps stay within. -/

namespace SharedCounters

variable {κ : Type} {n : Nat}

/-- At a slot the others were let in: all there was before and after. -/
structure Pause (κ : Type) (n : Nat) where
  slot : Nat
  before : κ × Memory n
  after : κ × Memory n

/-- A stage together with a record of the pauses so far, the latest first. -/
abbrev recording (pauses : List (Pause κ n)) (s : κ × Memory n) : (List (Pause κ n) × κ) × Memory n :=
  ((pauses, s.1), s.2)

def Interference.recorded (others : Interference κ n) : Interference (List (Pause κ n) × κ) n := fun slot s =>
  let before := (s.1.2, s.2)
  let after := others slot before
  recording (⟨slot, before, after⟩ :: s.1.1) after

theorem recorded_recording (others : Interference κ n) (slot : Nat) (pauses : List (Pause κ n))
    (s : κ × Memory n) : others.recorded slot (recording pauses s) =
      recording (⟨slot, s, others slot s⟩ :: pauses) (others slot s) := rfl

/-- Pauses one after the other, the oldest first, with nothing changed in between. -/
inductive Pauses (others : Interference κ n) : κ × Memory n → List (Pause κ n) → κ × Memory n → Prop
  | none (s : κ × Memory n) : Pauses others s [] s
  | pause {s u : κ × Memory n} {pauses : List (Pause κ n)} (slot : Nat)
    (later : Pauses others (others slot s) pauses u) :
    Pauses others s (⟨slot, s, others slot s⟩ :: pauses) u

/-- The steps of the others stay within a relation of stages. -/
structure Within (R : κ × Memory n → κ × Memory n → Prop) (others : Interference κ n) : Prop where
  refl : ∀ s, R s s
  trans : ∀ {s t u}, R s t → R t u → R s u
  step : ∀ slot s, R s (others slot s)

variable {others : Interference κ n} {R : κ × Memory n → κ × Memory n → Prop} {s t u : κ × Memory n}
  {pauses more : List (Pause κ n)}

namespace Pauses

theorem append (h : Pauses others s pauses t) (h' : Pauses others t more u) :
    Pauses others s (pauses ++ more) u := by
  induction h with
  | none s => exact h'
  | pause slot _ ih => exact .pause slot (ih h')

variable (h : Pauses others s pauses u) (within : Within R others)

include h within

theorem related : R s u := by
  induction h with
  | none s => exact within.refl s
  | pause slot _ ih => exact within.trans (within.step slot _) ih

theorem related_of_mem : ∀ p ∈ pauses, R s p.before ∧ R p.before p.after ∧ R p.after u := by
  induction h with
  | none s => exact fun _ hp => absurd hp List.not_mem_nil
  | pause slot later ih =>
    refine List.forall_mem_cons.2 ⟨⟨within.refl _, within.step slot _, later.related within⟩, fun p hp => ?_⟩
    obtain ⟨h1, h2, h3⟩ := ih p hp
    exact ⟨within.trans (within.step slot _) h1, h2, h3⟩

end Pauses

/-- The others lead from one stage to the other, in any number of pauses. -/
def Reaches (others : Interference κ n) (s u : κ × Memory n) : Prop := ∃ pauses, Pauses others s pauses u

theorem within_reaches (others : Interference κ n) : Within (Reaches others) others where
  refl _ := ⟨[], .none _⟩
  trans := fun ⟨_, h⟩ ⟨_, h'⟩ => ⟨_, h.append h'⟩
  step slot _ := ⟨_, .pause slot (.none _)⟩

/-- Nothing is known of the others that is not true of all that can be reached. -/
theorem Reaches.related (within : Within R others) (h : Reaches others s u) : R s u :=
  h.elim fun _ acted => acted.related within

end SharedCounters
