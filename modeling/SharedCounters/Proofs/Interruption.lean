import SharedCounters.Proofs.Claiming
import SharedCounters.Proofs.History

/-! An interrupted allocation, and with it every run. When an allocation goes on, the slots it passed are
used and stay so, and its own id is on none of them, since every other allocation that ended asked for
an id of its own. So what the others did in the meantime need not be known. -/

namespace SharedCounters.Blocks

variable {n : Nat} {b : Blocks n} {s u : Stage n} {id : UInt64} {label : String} {initial : Int64} {k : Nat}

theorem touched_of_passed {j : Nat} (hj : j < b.partition.slots) (passed : b.Passed b.Later s u j)
    (proper : Log.Proper u.1.log) (sound : b.Sound s) : b.Touched u.2 j := by
  obtain ⟨t, t', ht, ht', hu, busy⟩ := passed
  have proper' := proper.earlier hu.continues.suffix
  obtain ⟨sound, -⟩ := ht.sound (proper'.earlier ht'.continues.suffix) sound
  obtain ⟨sound, keeps⟩ := ht'.sound proper' sound
  obtain ⟨-, keeps'⟩ := hu.sound proper sound
  refine keeps'.touched hj ?_
  rcases busy with nonfree | changed
  · refine keeps.touched hj fun unused => ?_
    have free : SlotWord.isFree (b.slotWord t.2 j) = true := SlotWord.isFree_iff.2 (Or.inl unused)
    rw [free] at nonfree
    cases nonfree
  · by_contra unused
    exact changed (keeps.unused j hj unused)

theorem Consistent.taken {t : Moment n} (h : b.Consistent t) (label : String) (initial : Int64)
    (valid : id ≤ largestId) (hk : k < b.partition.slots)
    (free : SlotWord.isFree (b.slotWord t.memory k) = true) (before : ∀ j, j < k → b.Touched t.memory j)
    (asked : .asked id ∈ t.log) (fresh : id ∉ t.log.settled) :
    b.Consistent ⟨.allocated k ⟨id, keptLabel label, initial⟩ :: t.log,
      b.taken t.memory k id (Text.utf8 (keptLabel label)) initial⟩ := by
  obtain ⟨orderly, mirrors, tidy, issued⟩ := h
  have room := length_keptLabel_le label
  have vacant : ¬ b.Live t.memory k := by
    intro live
    rw [(isFree_eq_false_iff (orderly.known k hk)).2 live] at free
    cases free
  have other : ∀ j, j < b.partition.slots → b.Touched t.memory j →
      SlotWord.id (b.slotWord t.memory j) ≠ id := by
    rintro j hj used rfl
    obtain ⟨counter, mem, same⟩ := issued j hj used
    rw [← same] at fresh
    exact fresh (Log.mem_settled_of_allocated mem)
  refine ⟨?_, mirrors.taken hk vacant valid label initial, tidy.allocate asked fresh, ?_⟩
  · exact orderly.taken hk valid room (fun j h => ⟨before j h, other j (by omega) (before j h)⟩)
      fun j hj live => other j hj live.touched
  · intro j hj used
    rw [id_taken hk valid room hj]
    split_ifs with same
    · subst same
      exact ⟨_, List.mem_cons_self, rfl⟩
    · have used := ((touched_taken hk room hj).1 used).resolve_left same
      obtain ⟨counter, mem, same⟩ := issued j hj used
      exact ⟨counter, List.mem_cons_of_mem _ mem, same⟩

theorem later_taken (during : b.Later (note (.asked id) s) u) (valid : id ≤ largestId)
    (hk : k < b.partition.slots) (free : SlotWord.isFree (b.slotWord u.2 k) = true)
    (passed : ∀ j, j < k → b.Passed b.Later (note (.asked id) s) u j) :
    b.Later s (note (.allocated k ⟨id, keptLabel label, initial⟩)
      (u.1, b.taken u.2 k id (Text.utf8 (keptLabel label)) initial)) := by
  refine ⟨Log.Continues.settle rfl during.continues, fun proper sound => ?_⟩
  have room := length_keptLabel_le label
  have proper : Log.Proper u.1.log := (Log.proper_cons.1 proper).2
  obtain ⟨asked, keeps⟩ := (Later.ask s id).sound (proper.earlier during.continues.suffix) sound
  obtain ⟨sound', keeps'⟩ := during.sound proper asked
  have consistent := sound'.current.taken label initial valid hk free
    (fun j h => touched_of_passed (by omega) (passed j h) proper asked) during.continues.mem_asked
    (sound.current.tidy.not_settled during.continues proper)
  have keeps'' : b.Keeps (now u) (now (note (.allocated k ⟨id, keptLabel label, initial⟩)
      (u.1, b.taken u.2 k id (Text.utf8 (keptLabel label)) initial))) := by
    refine Keeps.event rfl (Or.inl not_false) fun j hj unused => ?_
    have apart : j ≠ k := fun h => unused ((touched_taken hk room hj).2 (Or.inl h))
    exact (slotWord_taken hk u.2 id room initial hj).trans (if_neg apart)
  exact ⟨sound'.step rfl consistent keeps'', (keeps.trans keeps').trans keeps''⟩

theorem later_refused (during : b.Later (note (.asked id) s) u) : b.Later s (note (.refused id) u) := by
  refine ⟨Log.Continues.settle rfl during.continues, fun proper sound => ?_⟩
  have proper : Log.Proper u.1.log := (Log.proper_cons.1 proper).2
  obtain ⟨sound', keeps'⟩ := (Later.ask s id).trans during |>.sound proper sound
  obtain ⟨orderly, mirrors, tidy, -⟩ := sound'.current
  have keeps : b.Keeps (now u) (now (note (.refused id) u)) :=
    Keeps.event rfl (Or.inr rfl) fun _ _ _ => rfl
  have fresh := sound.current.tidy.not_settled during.continues proper
  exact ⟨sound'.step rfl ⟨orderly, mirrors, tidy.refuse during.continues.mem_asked fresh,
    sound'.current.issued_after rfl fun _ _ used => ⟨used, rfl⟩⟩ keeps, keeps'.trans keeps⟩

theorem later_allocate (aligned : b.Aligned) (limit : RetryLimit) {plan : Nat → Stage n → List (Action n)}
    (others : ∀ slot s, b.Later s (b.actAll (plan slot s) (look s))) (s : Stage n) :
    b.Later s (b.act (.allocate id label initial limit plan) s) := by
  have within : Within b.Later fun slot s => b.actAll (plan slot s) (look s) :=
    ⟨Later.refl, Later.trans, others⟩
  rw [act]
  rcases allocateAmong_cases aligned id initial limit within label (note (.asked id) s) with
    ⟨refusal, u, during, run⟩ | ⟨k, failures, u, during, valid, hk, free, passed, run⟩
  · rw [run]
    exact later_refused during
  · rw [run]
    exact later_taken during valid hk free passed

mutual

/-- Every action leads to a later stage: by induction on how deep it is interrupted. -/
theorem later_act (aligned : b.Aligned) : (action : Action n) → (s : Stage n) → b.Later s (b.act action s)
  | .allocate _ _ _ limit plan, s =>
    later_allocate aligned limit (fun slot s =>
      (Later.looked s).trans (later_actAll aligned (plan slot s) (look s))) s
  | .free id, s => later_free aligned id s
  | .store slot value how, s => later_store aligned slot value how s

theorem later_actAll (aligned : b.Aligned) : (actions : List (Action n)) → (s : Stage n) →
    b.Later s (b.actAll actions s)
  | [], s => by
    rw [actAll]
    exact Later.refl s
  | action :: rest, s => by
    rw [actAll]
    exact (later_act aligned action s).trans
      ((Later.looked _).trans (later_actAll aligned rest (look (b.act action s))))

end

theorem sound_opening {m : Memory n} (unused : b.Unused m) : b.Sound (opening m) := by
  have consistent : b.Consistent ⟨[], m⟩ := by
    refine ⟨unused.orderly, unused.mirrors, ⟨?_, List.nodup_nil, ?_, ?_⟩, ?_⟩
    · exact fun _ h => absurd h List.not_mem_nil
    · exact fun _ h => absurd h List.not_mem_nil
    · exact fun _ => List.not_mem_nil
    · exact fun j hj used => absurd used (unused.notUsed j hj)
  have start : b.Sound ((⟨[], []⟩, m) : Stage n) :=
    ⟨fun t ht => List.mem_singleton.1 ht ▸ consistent, List.pairwise_singleton _ _⟩
  exact start.looked

/-- In a proper run from a region that was never used all is well. -/
theorem sound_actAll {m : Memory n} (unused : b.Unused m) (actions : List (Action n))
    (proper : Log.Proper (b.actAll actions (opening m)).1.log) : b.Sound (b.actAll actions (opening m)) :=
  ((later_actAll unused.aligned actions (opening m)).sound proper (sound_opening unused)).1

/-- An allocation that loses the only slot to another one, which is freed afterwards. -/
def contested (n : Nat) : List (Action n) :=
  [.allocate 1 "a" 5 ⟨0⟩ fun _ _ => [.allocate 2 "b" 6 ⟨0⟩ fun _ _ => [], .store 0 7 .release],
    .free 2]

theorem proper_contested : Log.Proper (oneSlot.actAll (contested _) (opening (Memory.zero _))).1.log := by
  decide +kernel

end SharedCounters.Blocks
