import Mathlib.Data.List.Dedup
import Mathlib.Data.Nat.Find
import SharedCounters.Proofs.Fresh

/-! Calls made one after another. Whatever the calls, as long as no live id is given out again and only
live values are stored, the region answers as a register of its live counters does, and shows that
register after every call. A freed slot keeps its id, so several slots may carry the id of a counter; the
live one comes first because the lowest free slot is always taken. -/

namespace SharedCounters

namespace Register

theorem exists_vacant (r : Register) : ∃ slot, ∀ e ∈ r, e.slot ≠ slot := by
  have bounded : ∃ bound, ∀ e ∈ r, e.slot < bound := by
    induction r with
    | nil => exact ⟨0, fun _ he => absurd he List.not_mem_nil⟩
    | cons d rest ih =>
      obtain ⟨bound, hbound⟩ := ih
      refine ⟨bound + d.slot + 1, fun e he => ?_⟩
      rcases List.mem_cons.1 he with rfl | he
      · omega
      · have := hbound e he
        omega
  obtain ⟨bound, hbound⟩ := bounded
  exact ⟨bound, fun e he => Nat.ne_of_lt (hbound e he)⟩

/-- The lowest slot that holds no live counter. -/
def vacant (r : Register) : Nat := Nat.find r.exists_vacant

theorem vacant_not_mem {r : Register} {e : Entry} (he : e ∈ r) : e.slot ≠ r.vacant :=
  Nat.find_spec r.exists_vacant e he

theorem mem_of_lt_vacant {r : Register} {j : Nat} (h : j < r.vacant) : ∃ e ∈ r, e.slot = j := by
  have taken := Nat.find_min r.exists_vacant h
  push Not at taken
  exact taken

theorem vacant_le_length (r : Register) : r.vacant ≤ r.length := by
  have sub : List.range r.vacant ⊆ r.map Entry.slot := fun j hj => by
    obtain ⟨e, he, rfl⟩ := mem_of_lt_vacant (List.mem_range.1 hj)
    exact List.mem_map_of_mem he
  have := (List.subperm_of_subset List.nodup_range sub).length_le
  simpa using this

theorem InOrder.nodup_slots {r : Register} (h : InOrder r) : (r.map Entry.slot).Nodup :=
  List.pairwise_map.2 (h.imp Nat.ne_of_lt)

theorem InOrder.mem_of_full {r : Register} (h : InOrder r) {slots : Nat} (lt : ∀ e ∈ r, e.slot < slots)
    (full : slots ≤ r.length) {j : Nat} (hj : j < slots) : ∃ e ∈ r, e.slot = j := by
  by_contra none
  push Not at none
  have sub : r.map Entry.slot ⊆ (List.range slots).erase j := fun i hi => by
    obtain ⟨e, he, rfl⟩ := List.mem_map.1 hi
    exact (List.mem_erase_of_ne (none e he)).2 (List.mem_range.2 (lt e he))
  have := (List.subperm_of_subset h.nodup_slots sub).length_le
  rw [List.length_erase_of_mem (List.mem_range.2 hj), List.length_range, List.length_map] at this
  omega

end Register

/-- What a caller asks for. A value is stored through its offset in the values block. -/
inductive Call
  | allocate (id : UInt64) (label : String) (initial : Int64)
  | free (id : UInt64)
  | store (slot : Nat) (value : Int64) (how : StoreOrder)

inductive Answer
  | allocated (result : Except Refusal Placement)
  | freed (found : Bool)
  | stored

namespace Register

/-- Calls that respect what is live: an id that is given out is valid and not live, and only values of
live counters are stored. -/
def Admits (r : Register) : Call → Prop
  | .allocate id _ _ => ¬ (id = 0 ∨ largestId < id) ∧ ∀ e ∈ r, e.id ≠ id
  | .free _ => True
  | .store slot _ _ => ∃ e ∈ r, e.slot = slot

/-- The answer of a register of `slots` slots, and the register afterwards. -/
def answer (slots : Nat) (r : Register) : Call → Answer × Register
  | .allocate id label initial =>
    if r.length < slots then
      (.allocated (.ok ⟨r.vacant, Blocks.valueOffset r.vacant, (Text.utf8 (keptLabel label)).length, 0⟩),
        r.add ⟨r.vacant, id, keptLabel label, initial⟩)
    else (.allocated (.error (.capacityExceeded slots)), r)
  | .free id => (.freed (r.any fun e => e.id == id), r.drop id)
  | .store slot value _ => (.stored, r.set slot value)

def AdmitsAll (slots : Nat) : List Call → Register → Prop
  | [], _ => True
  | call :: rest, r => r.Admits call ∧ AdmitsAll slots rest (r.answer slots call).2

instance decidableAdmits (r : Register) : (call : Call) → Decidable (r.Admits call)
  | .allocate id _ _ => inferInstanceAs (Decidable (¬ (id = 0 ∨ largestId < id) ∧ ∀ e ∈ r, e.id ≠ id))
  | .free _ => isTrue trivial
  | .store slot _ _ => inferInstanceAs (Decidable (∃ e ∈ r, e.slot = slot))

instance decidableAdmitsAll (slots : Nat) : (calls : List Call) → (r : Register) →
    Decidable (AdmitsAll slots calls r)
  | [], _ => isTrue trivial
  | call :: rest, r =>
    have := decidableAdmitsAll slots rest (r.answer slots call).2
    inferInstanceAs (Decidable (r.Admits call ∧ AdmitsAll slots rest (r.answer slots call).2))

def lookup (r : Register) (id : UInt64) : Option Reading :=
  (r.find? fun e => e.id == id).map Entry.counter

end Register

namespace Blocks

variable {n : Nat} (b : Blocks n)

def perform : Call → Write n Answer
  | .allocate id label initial => return .allocated (← b.allocate id label initial)
  | .free id => return .freed (← b.free id)
  | .store slot value how => do
    b.values.store (valueOffset slot) value how.order
    return .stored

/-- Readers see exactly the register. -/
structure Shows (m : Memory n) (r : Register) : Prop where
  inOrder : r.InOrder
  once : (r.map Entry.id).Nodup
  listing : b.liveCounters m = .ok r.listing
  valueOf : ∀ id, b.valueOf id m = .ok ((r.lookup id).map Reading.value)
  labelOf : ∀ id, b.labelOf id m = .ok ((r.lookup id).map Reading.label)

/-- The calls are answered as the register answers them, and readers see the register before the first
call and after each. -/
def Follows : List Call → Memory n → Register → Prop
  | [], m, r => b.Shows m r
  | call :: rest, m, r => b.Shows m r ∧
    ∃ m', b.perform call m = .ok (r.answer b.partition.slots call).1 m' ∧
      Follows rest m' (r.answer b.partition.slots call).2

variable {b} {m : Memory n} {r : Register}

section Steps

variable (aligned : b.Aligned) (orderly : b.Orderly m) (mirrors : b.Mirrors m r)

include aligned orderly mirrors

theorem shows_register : b.Shows m r := by
  have found : ∀ id, (∃ e ∈ r, e.id = id ∧ r.lookup id = some e.counter) ∨
      (∀ e ∈ r, e.id ≠ id) ∧ r.lookup id = none := by
    intro id
    cases hf : r.find? fun e => e.id == id with
    | none =>
      refine Or.inr ⟨fun e he same => ?_, by rw [Register.lookup, hf]; rfl⟩
      exact List.find?_eq_none.1 hf e he (beq_iff_eq.2 same)
    | some e =>
      have hid : e.id = id := by simpa using List.find?_some hf
      exact Or.inl ⟨e, List.mem_of_find?_eq_some hf, hid, by rw [Register.lookup, hf]; rfl⟩
  refine ⟨mirrors.inOrder, mirrors.nodup_ids orderly, liveCounters_eq mirrors aligned orderly,
    fun id => ?_, fun id => ?_⟩
  · rcases found id with ⟨e, he, rfl, hl⟩ | ⟨absent, hl⟩
    · rw [hl, valueOf_mem aligned mirrors orderly he]
      rfl
    · rw [hl, valueOf_absent aligned mirrors absent]
      rfl
  · rcases found id with ⟨e, he, rfl, hl⟩ | ⟨absent, hl⟩
    · rw [hl, labelOf_mem aligned mirrors orderly he]
      rfl
    · rw [hl, labelOf_absent aligned mirrors absent]
      rfl

/-- Slots below the vacant one are live, so it is the first free slot, and none of the slots before it
carries an id that is not live. -/
theorem allocate_vacant {id : UInt64} (label : String) (initial : Int64)
    (room : r.length < b.partition.slots) (valid : ¬ (id = 0 ∨ largestId < id)) (absent : ∀ e ∈ r, e.id ≠ id) :
    ∃ m', b.allocate id label initial m =
        .ok (.ok ⟨r.vacant, valueOffset r.vacant, (Text.utf8 (keptLabel label)).length, 0⟩) m' ∧
      b.Orderly m' ∧ b.Mirrors m' (r.add ⟨r.vacant, id, keptLabel label, initial⟩) := by
  have hk : r.vacant < b.partition.slots := Nat.lt_of_le_of_lt r.vacant_le_length room
  have le : id ≤ largestId := UInt64.not_lt.1 fun h => valid (Or.inr h)
  have below : ∀ j, j < r.vacant → b.Live m j ∧ SlotWord.id (b.slotWord m j) ≠ id := by
    intro j hj
    obtain ⟨e, he, rfl⟩ := Register.mem_of_lt_vacant hj
    exact ⟨mirrors.live he, mirrors.id_eq he ▸ absent e he⟩
  have idle : ¬ b.Live m r.vacant := fun live =>
    Register.vacant_not_mem (mirrors.mem_of_live hk live) rfl
  have free : SlotWord.isFree (b.slotWord m r.vacant) = true := by
    rw [← Bool.not_eq_false, isFree_eq_false_iff (orderly.known _ hk)]
    exact idle
  have busy : ∀ j, j < r.vacant → SlotWord.isFree (b.slotWord m j) = false := fun j hj =>
    (isFree_eq_false_iff (orderly.known j (by omega))).2 (below j hj).1
  refine ⟨_, allocate_of_isFree aligned valid label initial hk free busy, ?_, ?_⟩
  · exact orderly.taken hk le (length_keptLabel_le label)
      (fun j hj => ⟨(below j hj).1.touched, (below j hj).2⟩)
      (fun j hj live => absent _ (mirrors.mem_of_live hj live))
  · exact mirrors.taken hk idle le label initial

theorem allocate_full {id : UInt64} (label : String) (initial : Int64) (full : b.partition.slots ≤ r.length)
    (valid : ¬ (id = 0 ∨ largestId < id)) :
    b.allocate id label initial m = .ok (.error (.capacityExceeded b.partition.slots)) m := by
  refine allocate_of_full aligned valid label initial fun j hj => ?_
  obtain ⟨e, he, rfl⟩ := mirrors.inOrder.mem_of_full (fun e he => mirrors.lt he) full hj
  exact (isFree_eq_false_iff (orderly.known _ hj)).2 (mirrors.live he)

theorem perform_eq_answer (call : Call) (admitted : r.Admits call) :
    ∃ m', b.perform call m = .ok (r.answer b.partition.slots call).1 m' ∧ b.Orderly m' ∧
      b.Mirrors m' (r.answer b.partition.slots call).2 := by
  cases call with
  | allocate id label initial =>
    obtain ⟨valid, absent⟩ := admitted
    simp only [perform, Register.answer, bind, EStateM.bind]
    split_ifs with room
    · obtain ⟨m', run, orderly', mirrors'⟩ :=
        allocate_vacant aligned orderly mirrors label initial room valid absent
      exact ⟨m', by rw [run]; rfl, orderly', mirrors'⟩
    · have run := allocate_full aligned orderly mirrors label initial (Nat.le_of_not_lt room) valid
      exact ⟨m, by rw [run]; rfl, orderly, mirrors⟩
  | free id =>
    simp only [perform, Register.answer, bind, EStateM.bind]
    by_cases present : ∃ e ∈ r, e.id = id
    · obtain ⟨e, he, rfl⟩ := present
      have any : (r.any fun d => d.id == e.id) = true :=
        List.any_eq_true.2 ⟨e, he, beq_self_eq_true _⟩
      rw [any, free_mem aligned mirrors orderly he]
      exact ⟨_, rfl, orderly.released (mirrors.lt he) (mirrors.live he), mirrors.released orderly he⟩
    · push Not at present
      have any : (r.any fun d => d.id == id) = false :=
        List.any_eq_false.2 fun e he => by simpa using present e he
      have same : r.drop id = r := List.filter_eq_self.2 fun e he => decide_eq_true (present e he)
      rw [any, same, free_absent aligned mirrors present]
      exact ⟨m, rfl, orderly, mirrors⟩
  | store slot value how =>
    obtain ⟨e, he, rfl⟩ := admitted
    have hk := mirrors.lt he
    simp only [perform, Register.answer, bind, EStateM.bind, storeValue_eq aligned hk m value how.admitted]
    exact ⟨_, rfl, orderly.withValue hk, mirrors.withValue hk⟩

end Steps

theorem follows_of_mirrors (aligned : b.Aligned) (calls : List Call) {m : Memory n} {r : Register}
    (orderly : b.Orderly m) (mirrors : b.Mirrors m r)
    (admitted : Register.AdmitsAll b.partition.slots calls r) : b.Follows calls m r := by
  induction calls generalizing m r with
  | nil => exact shows_register aligned orderly mirrors
  | cons call rest ih =>
    obtain ⟨first, later⟩ := admitted
    obtain ⟨m', run, orderly', mirrors'⟩ := perform_eq_answer aligned orderly mirrors call first
    exact ⟨shows_register aligned orderly mirrors, m', run, ih orderly' mirrors' later⟩

/-- A region with unused slots behaves as a register that is empty at first. -/
theorem sequential_refinement (unused : b.Unused m) (calls : List Call)
    (admitted : Register.AdmitsAll b.partition.slots calls []) : b.Follows calls m [] :=
  follows_of_mirrors unused.aligned calls unused.orderly unused.mirrors admitted

/-- The only slot is taken again after it was freed, by the same id. -/
def reusing : List Call :=
  [.allocate 1 "a" 5, .allocate 2 "b" 6, .store 0 7 .release, .free 1, .allocate 1 "c" 8, .free 9]

theorem sequential_refinement_reusing :
    oneSlot.Unused (Memory.zero _) ∧ Register.AdmitsAll oneSlot.partition.slots reusing [] ∧
      oneSlot.Follows reusing (Memory.zero _) [] := by
  have unused : oneSlot.Unused (Memory.zero _) := unused_zero rfl
  have admitted : Register.AdmitsAll oneSlot.partition.slots reusing [] := by decide +kernel
  exact ⟨unused, admitted, sequential_refinement unused reusing admitted⟩

end Blocks

end SharedCounters
