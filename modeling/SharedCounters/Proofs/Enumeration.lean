import SharedCounters.Proofs.Passes

/-! What a listing is worth while others act. Every counter in it was live when its slot was read and
stayed so until the others had acted, and every counter that is live all the while is in it, once. The
word of a slot tells all: with one id for each allocation, the same word means the same counter. -/

namespace SharedCounters

/-- The counter of an entry is live from one point of a log to a later one, and stays in its slot. -/
def Entry.Stays (e : Entry) (past recent : Log) : Prop :=
  ∀ log, past <:+ log → log <:+ recent →
    ∃ value, ⟨e.slot, { e.counter with value := value }⟩ ∈ Register.ofLog log

namespace Blocks

variable {n : Nat} (b : Blocks n)

/-- What a pass that starts and finishes at two stages reports. -/
structure Enumerates (plan : Nat → Stage n → List (Action n)) (start finish : Stage n)
    (visits : List (SlotVisit n)) (readings : List Reading) : Prop where
  visited : ∀ v ∈ visits, start.1.log <:+ v.before.1.log ∧ v.after.1.log <:+ finish.1.log ∧
    v.after = b.actAll (plan v.slot v.before) (look v.before)
  reported : ∃ entries : Register, entries.InOrder ∧ readings = entries.listing ∧
    ∀ e ∈ entries, ∃ v ∈ visits, v.slot = e.slot ∧ e ∈ Register.ofLog v.before.1.log ∧
      e.Stays v.before.1.log v.after.1.log ∧
      ∃ initial, .allocated e.slot { e.counter with value := initial } ∈ v.before.1.log
  once : (readings.map Reading.id).Nodup
  complete : ∀ e ∈ Register.ofLog start.1.log, (∃ d ∈ Register.ofLog finish.1.log, d.id = e.id) →
    (readings.map Reading.id).count e.id = 1
  gone : ∀ id, .freed id ∈ start.1.log → ∀ reading ∈ readings, reading.id ≠ id

variable {b} {plan : Nat → Stage n → List (Action n)} {s u : Stage n} {slot : Nat}
  {visits : List (SlotVisit n)}

/-- No id is given out again, so a counter that is live at two stages is live in between. -/
theorem stays_of_live (later : b.Consistent (now u)) {e d : Entry} (he : e ∈ Register.ofLog s.1.log)
    (hd : d ∈ Register.ofLog u.1.log) (same : d.id = e.id) : e.Stays s.1.log u.1.log := by
  intro log before after
  obtain ⟨initial, mem⟩ := Register.allocated_of_mem he
  obtain ⟨value, kept⟩ := Register.mem_of_allocated (before.subset mem) fun freed =>
    (later.tidy.gone e.id (after.subset freed)).2 d hd same
  exact ⟨value, kept⟩

/-- A live slot whose word did not change holds the same counter, which is still live. -/
theorem stays_of_unchanged (earlier : b.Consistent (now s)) (later : b.Consistent (now u))
    (hj : slot < b.partition.slots) (live : b.Live s.2 slot)
    (same : b.slotWord u.2 slot = b.slotWord s.2 slot) :
    Entry.Stays ⟨slot, b.slotReading s.2 slot⟩ s.1.log u.1.log := by
  have live' : b.Live u.2 slot := by
    unfold Live
    rw [same]
    exact live
  exact stays_of_live later (earlier.mirrors.mem_of_live hj live) (later.mirrors.mem_of_live hj live')
    (congrArg SlotWord.id same)

theorem unchanged_of_stays (earlier : b.Consistent (now s)) (later : b.Consistent (now u)) {e : Entry}
    (stays : e.Stays s.1.log u.1.log) (le : s.1.log <:+ u.1.log) :
    b.slotWord u.2 e.slot = b.slotWord s.2 e.slot := by
  have word : ∀ t : Stage n, b.Consistent (now t) → s.1.log <:+ t.1.log → t.1.log <:+ u.1.log →
      b.slotWord t.2 e.slot = SlotWord.pack e.id .allocated := by
    intro t consistent before after
    obtain ⟨value, mem⟩ := stays _ before after
    have packed := consistent.mirrors.word mem
    exact packed
  rw [word u later le (List.suffix_refl _), word s earlier (List.suffix_refl _) le]

theorem mem_reported {e : Entry} : e ∈ b.reported visits ↔ ∃ v ∈ visits,
    b.slotWord v.after.2 v.slot = b.slotWord v.before.2 v.slot ∧
      ⟨v.slot, b.slotReading v.before.2 v.slot⟩ = e := by
  simp only [reported, List.mem_map, List.mem_filter, unchanged, beq_iff_eq, and_assoc]

namespace Passes

variable (passes : b.Passes plan slot s visits u) (proper : Log.Proper u.1.log) (sound : b.Sound s)

include passes

theorem inOrder_reported : (b.reported visits).InOrder :=
  List.pairwise_map.2 (passes.inOrder.filter _)

include proper sound

theorem sound_before {v : SlotVisit n} (hv : v ∈ visits) : b.Sound v.before := by
  obtain ⟨h1, h2, h3⟩ := passes.stages v hv
  exact (h1.sound (proper.earlier (h2.trans h3).continues.suffix) sound).1

theorem sound_after {v : SlotVisit n} (hv : v ∈ visits) : b.Sound v.after := by
  obtain ⟨h1, h2, h3⟩ := passes.stages v hv
  exact ((h1.trans h2).sound (proper.earlier h3.continues.suffix) sound).1

theorem of_mem_reported {e : Entry} (he : e ∈ b.reported visits) : ∃ v ∈ visits, v.slot = e.slot ∧
    e ∈ Register.ofLog v.before.1.log ∧ e.Stays v.before.1.log v.after.1.log := by
  obtain ⟨v, hv, same, rfl⟩ := mem_reported.1 he
  have before := (passes.sound_before proper sound hv).current
  have after := (passes.sound_after proper sound hv).current
  have bound := (passes.bounds v hv).2
  exact ⟨v, hv, rfl, before.mirrors.mem_of_live bound (passes.live v hv),
    stays_of_unchanged before after bound (passes.live v hv) same⟩

theorem allocated_of_reported {e : Entry} (he : e ∈ b.reported visits) :
    ∃ initial, .allocated e.slot { e.counter with value := initial } ∈ u.1.log := by
  obtain ⟨v, hv, -, mem, -⟩ := passes.of_mem_reported proper sound he
  obtain ⟨-, h2, h3⟩ := passes.stages v hv
  obtain ⟨initial, allocated⟩ := Register.allocated_of_mem mem
  exact ⟨initial, (h2.trans h3).continues.suffix.subset allocated⟩

/-- An id was allocated once, in one slot, and a pass comes to each slot once. -/
theorem nodup_reported : ((b.reported visits).map Entry.id).Nodup := by
  refine List.pairwise_map.2 (passes.inOrder_reported.imp_of_mem fun {d e} hd he before same => ?_)
  obtain ⟨initial, mem⟩ := passes.allocated_of_reported proper sound hd
  obtain ⟨initial', mem'⟩ := passes.allocated_of_reported proper sound he
  have finish := (passes.later.sound proper sound).1.current
  have slots := (finish.tidy.eq_of_id mem mem' same).1
  exact absurd slots (Nat.ne_of_lt before)

theorem mem_of_stays {e : Entry} (le : slot ≤ e.slot) (stays : e.Stays s.1.log u.1.log) :
    ∃ d ∈ b.reported visits, d.id = e.id := by
  obtain ⟨value, mem⟩ := stays _ (List.suffix_refl _) passes.later.continues.suffix
  have bound := sound.current.mirrors.lt mem
  rcases passes.missed e.slot le bound with ⟨v, hv, same⟩ | ⟨t, ht, hu, absent⟩
  · -- its slot was visited while it was live, and the word was the same afterwards
    obtain ⟨h1, h2, h3⟩ := passes.stages v hv
    have before := (passes.sound_before proper sound hv).current
    have after := (passes.sound_after proper sound hv).current
    have during : e.Stays v.before.1.log v.after.1.log := fun log hs hu =>
      stays log (h1.continues.suffix.trans hs) (hu.trans h3.continues.suffix)
    have unchanged := unchanged_of_stays before after during h2.continues.suffix
    obtain ⟨value, mem⟩ := during _ (List.suffix_refl _) h2.continues.suffix
    have id := before.mirrors.id_eq mem
    refine ⟨_, mem_reported.2 ⟨v, hv, by rw [same, unchanged], rfl⟩, ?_⟩
    rw [same]
    exact id
  · -- at some stage the pass took its slot for one that is not live
    have between := (ht.sound (proper.earlier hu.continues.suffix) sound).1.current
    obtain ⟨value, mem⟩ := stays _ ht.continues.suffix hu.continues.suffix
    have live := between.mirrors.live mem
    rcases absent with idle | ⟨i, hi, unused⟩
    · exact absurd live idle
    · rcases Nat.lt_or_eq_of_le hi with hlt | rfl
      · exact absurd (between.orderly.filled i e.slot hlt bound live.touched) unused
      · exact absurd live.touched unused

end Passes

theorem Passes.enumerates (passes : b.Passes plan 0 s visits u) (proper : Log.Proper u.1.log)
    (sound : b.Sound s) : b.Enumerates plan s u visits.reverse (b.reported visits).listing := by
  have ids : ((b.reported visits).listing.map Reading.id) = (b.reported visits).map Entry.id :=
    List.map_map
  have nodup := passes.nodup_reported proper sound
  rw [← ids] at nodup
  refine ⟨fun v hv => ?_, ⟨_, passes.inOrder_reported, rfl, fun e he => ?_⟩, nodup, ?_, ?_⟩
  · rw [List.mem_reverse] at hv
    obtain ⟨h1, -, h3⟩ := passes.stages v hv
    exact ⟨h1.continues.suffix, h3.continues.suffix, passes.acted v hv⟩
  · obtain ⟨v, hv, same, mem, stays⟩ := passes.of_mem_reported proper sound he
    exact ⟨v, List.mem_reverse.2 hv, same, mem, stays, Register.allocated_of_mem mem⟩
  · rintro e he ⟨d, hd, same⟩
    have finish := (passes.later.sound proper sound).1.current
    obtain ⟨x, hx, hid⟩ := passes.mem_of_stays proper sound (Nat.zero_le _)
      (stays_of_live finish he hd same)
    refine List.count_eq_one_of_mem nodup ?_
    rw [ids, ← hid]
    exact List.mem_map_of_mem hx
  · intro id freed reading mem same
    obtain ⟨e, he, rfl⟩ := List.mem_map.1 mem
    obtain ⟨v, hv, -, hmem, -⟩ := passes.of_mem_reported proper sound he
    obtain ⟨h1, -, -⟩ := passes.stages v hv
    have before := (passes.sound_before proper sound hv).current
    exact (before.tidy.gone id (h1.continues.suffix.subset freed)).2 e hmem same

/-- A pass over the slots never fails, and what it reports is right whatever the others do. -/
theorem enumeration_under_contention {m : Memory n} (unused : b.Unused m) (actions : List (Action n))
    (plan : Nat → Stage n → List (Action n)) :
    ∃ readings visits finish,
      b.liveAmong (b.watched plan) (([], (b.actAll actions (opening m)).1),
          (b.actAll actions (opening m)).2) = .ok readings ((visits, finish.1), finish.2) ∧
        (Log.Proper finish.1.log →
          b.Enumerates plan (b.actAll actions (opening m)) finish visits readings) := by
  obtain ⟨visits, finish, passes, run⟩ := liveFrom_watched unused.aligned plan b.partition.slots 0
    (Nat.zero_add _) [] (b.actAll actions (opening m))
  rw [List.append_nil] at run
  refine ⟨_, visits.reverse, finish, run, fun proper => passes.enumerates proper ?_⟩
  exact sound_actAll unused actions (proper.earlier passes.later.continues.suffix)

def started : Stage 896 := oneSlot.actAll [.allocate 1 "a" 5 ⟨0⟩ fun _ _ => []] (opening (Memory.zero _))

def storing (slot : Nat) (_ : Stage 896) : List (Action 896) := [.store slot 7 .release]

def endsProperly : EStateM.Result Fault ((List (SlotVisit n) × History n) × Memory n) (List Reading) → Bool
  | .ok _ t => Log.Proper t.1.2.log
  | .error _ _ => false

theorem endsProperly_storing : endsProperly
    (oneSlot.liveAmong (oneSlot.watched storing) (([], started.1), started.2)) = true := by
  decide +kernel

theorem enumeration_while_storing :
    oneSlot.Unused (Memory.zero _) ∧ ∃ readings visits finish,
      oneSlot.liveAmong (oneSlot.watched storing) (([], started.1), started.2) =
        .ok readings ((visits, finish.1), finish.2) ∧ Log.Proper finish.1.log ∧
      oneSlot.Enumerates storing started finish visits readings := by
  have unused : oneSlot.Unused (Memory.zero _) := unused_zero rfl
  obtain ⟨readings, visits, finish, run, enumerates⟩ := enumeration_under_contention unused
    [.allocate 1 "a" 5 ⟨0⟩ fun _ _ => []] storing
  have ends := endsProperly_storing
  rw [show oneSlot.liveAmong (oneSlot.watched storing) (([], started.1), started.2) =
    .ok readings ((visits, finish.1), finish.2) from run] at ends
  have proper : Log.Proper finish.1.log := of_decide_eq_true ends
  exact ⟨unused, readings, visits, finish, run, proper, enumerates proper⟩

end Blocks

end SharedCounters
