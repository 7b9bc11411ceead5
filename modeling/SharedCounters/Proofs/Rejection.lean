import Mathlib.Logic.Relation
import SharedCounters.Proofs.RoundTrip

/-! Statics that do not fit their block are not published. Storing them alone and publishing a region
with them refuse the same maps. A refused map leaves at most lengths, pid and start time in the header,
so a region that was not shown to readers is not shown to them by any number of refusals. -/

namespace SharedCounters.Blocks

open Relation

variable {n : Nat} (b : Blocks n)

/-- The block that a map needs is no longer than the one there is. -/
def HasRoom (statics : Statics) : Prop :=
  ∃ needed, statics.blockLen = .ok needed ∧ needed ≤ b.partition.staticsLen

/-- A call that refuses statics. -/
inductive Refused : Memory n → Memory n → Prop
  | store {statics : Statics} {cause : BadRequest} {m m' : Memory n}
    (run : b.storeStatics statics m = .ok (.error cause) m') : Refused m m'
  | publish {pid start : UInt64} {statics : Statics} {cause : BadRequest} {m m' : Memory n}
    (run : b.publish pid start statics m = .ok (.error cause) m') : Refused m m'

section Calls

variable {b} (aligned : b.Aligned)

include aligned

theorem storeStatics_answers (statics : Statics) (m : Memory n) : ∃ result m',
    b.storeStatics statics m = .ok result m' ∧ (result = .ok () ↔ b.HasRoom statics) ∧
    (result ≠ .ok () → m' = m) := by
  have decided : b.room statics = .ok () ↔ b.HasRoom statics := room_eq_ok_iff
  rw [storeStatics_eq aligned]
  cases room : b.room statics with
  | error cause => exact ⟨.error cause, m, rfl, room ▸ decided, fun _ => rfl⟩
  | ok _ => exact ⟨.ok (), _, rfl, room ▸ decided, fun refused => absurd rfl refused⟩

theorem publish_answers (pid start : UInt64) (statics : Statics) (m : Memory n) : ∃ result m',
    b.publish pid start statics m = .ok result m' ∧ (result = .ok () ↔ b.HasRoom statics) ∧
    (result ≠ .ok () → m.DiffersWithin m' (b.region.base + 4) (b.region.base + 32)) := by
  have decided : b.room statics = .ok () ↔ b.HasRoom statics := room_eq_ok_iff
  rw [publish_eq aligned]
  cases room : b.room statics with
  | error cause => exact ⟨.error cause, _, rfl, room ▸ decided, fun _ => withHeader_within pid start⟩
  | ok _ => exact ⟨.ok (), _, rfl, room ▸ decided, fun refused => absurd rfl refused⟩

theorem Refused.within {m m' : Memory n} (refused : b.Refused m m') :
    m.DiffersWithin m' (b.region.base + 4) (b.region.base + 32) := by
  cases refused with
  | @store statics _ _ _ run =>
    obtain ⟨result, m'', run', -, kept⟩ := storeStatics_answers aligned statics m
    cases run.symm.trans run'
    obtain rfl := kept (by simp)
    exact .refl _ _ _
  | @publish pid start statics _ _ _ run =>
    obtain ⟨result, m'', run', -, kept⟩ := publish_answers aligned pid start statics m
    cases run.symm.trans run'
    exact kept (by simp)

theorem refusals_within {m m' : Memory n} (refusals : ReflTransGen b.Refused m m') :
    m.DiffersWithin m' (b.region.base + 4) (b.region.base + 32) := by
  induction refusals with
  | refl => exact .refl m _ _
  | tail _ refused ih => exact ih.trans (refused.within aligned)

theorem refusals_hide {m m' : Memory n} (hidden : headerWord b.region m headerAt.version = 0)
    (refusals : ReflTransGen b.Refused m m') : accept b.region m' = .ok (.error .notInitialized) := by
  have kept : headerWord b.region m' headerAt.version = headerWord b.region m headerAt.version :=
    (refusals_within aligned refusals).wordAt_eq (.inl (Nat.le_refl _))
  rw [accept_eq_judge aligned m' b.header_len_le, judge, kept, hidden]
  rfl

end Calls

/-- Statics are stored or published if and only if their block has room for them. Otherwise storing
changes no byte and publishing only bytes of the header behind the version, and readers to whom the
region was not shown before still refuse it as not initialized. -/
theorem rejected_statics_are_not_published (b : Blocks n) (aligned : b.Aligned) :
    split b.region b.partition = .ok b ∧
    (∀ statics m, ∃ result m', b.storeStatics statics m = .ok result m' ∧
      (result = .ok () ↔ b.HasRoom statics) ∧ (result ≠ .ok () → m' = m)) ∧
    (∀ pid start statics m, ∃ result m', b.publish pid start statics m = .ok result m' ∧
      (result = .ok () ↔ b.HasRoom statics) ∧
      (result ≠ .ok () → m.DiffersWithin m' (b.region.base + 4) (b.region.base + 32))) ∧
    ∀ m m', headerWord b.region m headerAt.version = 0 → ReflTransGen b.Refused m m' →
      accept b.region m' = .ok (.error .notInitialized) :=
  ⟨b.split_region, storeStatics_answers aligned, publish_answers aligned,
    fun _ _ hidden refusals => refusals_hide aligned hidden refusals⟩

def spacious : Statics := .ofList [("a", String.ofList (List.replicate 200 'x'))]

/-- The second refusal finds the lengths that the first one left. -/
theorem refused_twice : oneSlot.Aligned ∧ headerWord oneSlot.region (Memory.zero 896) headerAt.version = 0 ∧
    ∃ m m', oneSlot.publish 7 9 spacious (Memory.zero 896) = .ok (.error (.staticsOverflow 256 128)) m ∧
      oneSlot.publish 8 10 spacious m = .ok (.error (.staticsOverflow 256 128)) m' ∧
      accept oneSlot.region m' = .ok (.error .notInitialized) := by
  have aligned : oneSlot.Aligned := rfl
  have hidden : headerWord oneSlot.region (Memory.zero 896) headerAt.version = 0 := by decide +kernel
  have full : oneSlot.room spacious = .error (.staticsOverflow 256 128) := by decide +kernel
  have first := publish_eq aligned 7 9 spacious (Memory.zero 896)
  have second := publish_eq aligned 8 10 spacious (oneSlot.withHeader (Memory.zero 896) 7 9)
  rw [full] at first second
  obtain ⟨-, -, -, hides⟩ := rejected_statics_are_not_published oneSlot aligned
  exact ⟨aligned, hidden, _, _, first, second, hides _ _ hidden ((ReflTransGen.single (.publish first)).tail
    (.publish second))⟩

end SharedCounters.Blocks
