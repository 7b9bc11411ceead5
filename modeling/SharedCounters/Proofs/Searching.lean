import SharedCounters.Proofs.Pauses
import SharedCounters.Proofs.Enumeration

/-! Looking for a counter while others act. As a loop the search looks again at a slot that changed while
it was read, and never twice: one word alone stands for the counter, and it was just seen to be another
one. So the search ends whatever the others write. What it finds was read from one slot at one moment,
and a counter that nobody frees in the meantime is found. -/

namespace SharedCounters

/-- Where a search stands: about to look at a slot, or at its end. -/
inductive Quest
  | looking (slot : Nat)
  | over (found : Option Held)

namespace Blocks

variable {κ : Type} {n : Nat} (b : Blocks n)

/-- One turn of the search. A slot that changed while it was read is looked at again. -/
def turn (others : Interference κ n) (id : UInt64) : Quest → Contended κ n Quest
  | .over found => return .over found
  | .looking slot =>
    if slot < b.partition.slots then do
      let seen ← b.word slot
      match SlotWord.verdict id seen with
      | .stop => return .over none
      | .next => return .looking (slot + 1)
      | .here =>
        let held ← b.held slot
        Contended.yield others slot
        let now ← b.word slot
        return if now = seen then .over (some held) else .looking slot
    else return .over none

def turns (others : Interference κ n) (id : UInt64) : Nat → Quest → Contended κ n Quest
  | 0, quest => return quest
  | count + 1, quest => do turns others id count (← b.turn others id quest)

section Turns

variable {b} (aligned : b.Aligned) (others : Interference κ n) (id : UInt64)

theorem turns_over (count : Nat) (found : Option Held) (s : κ × Memory n) :
    b.turns others id count (.over found) s = .ok (.over found) s := by
  induction count with
  | zero => rfl
  | succ count ih => exact ih

theorem turns_succ (count : Nat) {quest quest' : Quest} {s t : κ × Memory n}
    (h : b.turn others id quest s = .ok quest' t) :
    b.turns others id (count + 1) quest s = b.turns others id count quest' t := by
  simp only [turns, bind, EStateM.bind, h]

theorem turn_beyond {slot : Nat} (h : ¬ slot < b.partition.slots) (s : κ × Memory n) :
    b.turn others id (.looking slot) s = .ok (.over none) s := by
  rw [turn, if_neg h]
  rfl

include aligned

theorem turn_looking {slot : Nat} (h : slot < b.partition.slots) (s : κ × Memory n) :
    b.turn others id (.looking slot) s =
      match SlotWord.verdict id (b.slotWord s.2 slot) with
      | .stop => .ok (.over none) s
      | .next => .ok (.looking (slot + 1)) s
      | .here =>
        .ok (if b.slotWord (others slot s).2 slot = b.slotWord s.2 slot then
          .over (some (b.slotHeld s.2 slot)) else .looking slot) (others slot s) := by
  rw [turn, if_pos h]
  simp only [bind, EStateM.bind, Contended.lift_read (word_eq aligned h s.2)]
  cases SlotWord.verdict id (b.slotWord s.2 slot) with
  | stop => rfl
  | next => rfl
  | here =>
    simp only [EStateM.bind, Contended.lift_read (held_eq aligned h s.2), Contended.yield,
      Contended.lift_read (word_eq aligned h (others slot s).2)]
    rfl

omit aligned in
theorem verdict_ne_here {seen now : SlotWord} (here : SlotWord.verdict id seen = .here)
    (changed : now ≠ seen) : SlotWord.verdict id now ≠ .here := fun again =>
  changed ((SlotWord.verdict_eq_here again).trans (SlotWord.verdict_eq_here here).symm)

/-- Two turns for each slot, and one more, are enough. -/
theorem turns_eq_searchFrom (rest slot : Nat) (all : slot + rest = b.partition.slots) (count : Nat)
    (enough : 2 * rest < count) (s : κ × Memory n) {found : Option Held} {u : κ × Memory n}
    (run : b.searchFrom others id rest slot s = .ok found u) :
    b.turns others id count (.looking slot) s = .ok (.over found) u := by
  induction rest generalizing slot count s with
  | zero =>
    obtain ⟨count, rfl⟩ : ∃ more, count = more + 1 := ⟨count - 1, by omega⟩
    have ended := turn_beyond others id (show ¬ slot < b.partition.slots by omega) s
    cases run
    rw [turns_succ others id _ ended]
    exact turns_over others id _ none _
  | succ rest ih =>
    have h : slot < b.partition.slots := by omega
    obtain ⟨count, rfl⟩ : ∃ more, count = more + 2 := ⟨count - 2, by omega⟩
    have first := turn_looking aligned others id h s
    rw [searchFrom_succ aligned others h] at run
    cases here : SlotWord.verdict id (b.slotWord s.2 slot) with
    | stop =>
      rw [here] at run first
      cases run
      rw [turns_succ others id _ first]
      exact turns_over others id _ none _
    | next =>
      rw [here] at run first
      rw [turns_succ others id _ first]
      exact ih (slot + 1) (by omega) (count + 1) (by omega) s run
    | here =>
      rw [here] at run first
      dsimp only at run first
      rw [turns_succ others id _ first]
      by_cases same : b.slotWord (others slot s).2 slot = b.slotWord s.2 slot
      · rw [if_pos same] at run ⊢
        cases run
        exact turns_over others id _ _ _
      · -- the second look at the slot, which cannot be a match
        have away := verdict_ne_here id here same
        have again := turn_looking aligned others id h (others slot s)
        rw [if_neg same] at run ⊢
        cases now : SlotWord.verdict id (b.slotWord (others slot s).2 slot) with
        | stop =>
          rw [now] at run again
          cases run
          rw [turns_succ others id _ again]
          exact turns_over others id _ none _
        | next =>
          rw [now] at run again
          rw [turns_succ others id _ again]
          exact ih (slot + 1) (by omega) count (by omega) (others slot s) run
        | here => exact absurd now away

end Turns

/-- A search from a slot on that ended, and its pauses. -/
structure Searched (others : Interference κ n) (id : UInt64) (slot : Nat) (s : κ × Memory n)
    (found : Option Held) (pauses : List (Pause κ n)) (u : κ × Memory n) : Prop where
  acted : Pauses others s pauses u
  inOrder : pauses.Pairwise fun p q => p.slot < q.slot
  bounds : ∀ p ∈ pauses, slot ≤ p.slot ∧ p.slot < b.partition.slots
  whole : ∀ held, found = some held → ∃ p ∈ pauses, b.Live p.before.2 p.slot ∧
    SlotWord.id (b.slotWord p.before.2 p.slot) = id ∧
    b.slotWord p.after.2 p.slot = b.slotWord p.before.2 p.slot ∧ held = b.slotHeld p.before.2 p.slot

variable {b} {others : Interference κ n} {id : UInt64} {slot : Nat} {s u : κ × Memory n}
  {found : Option Held} {pauses : List (Pause κ n)}

theorem Searched.missed (s : κ × Memory n) : b.Searched others id slot s none [] s where
  acted := .none s
  inOrder := List.Pairwise.nil
  bounds _ h := absurd h List.not_mem_nil
  whole _ h := nomatch h

theorem Searched.passed (rest : b.Searched others id (slot + 1) s found pauses u) :
    b.Searched others id slot s found pauses u :=
  { rest with bounds := fun p hp => ⟨Nat.le_of_succ_le (rest.bounds p hp).1, (rest.bounds p hp).2⟩ }

theorem Searched.paused (h : slot < b.partition.slots)
    (rest : b.Searched others id (slot + 1) (others slot s) found pauses u) :
    b.Searched others id slot s found (⟨slot, s, others slot s⟩ :: pauses) u where
  acted := .pause slot rest.acted
  inOrder := List.pairwise_cons.2 ⟨fun p hp => (rest.bounds p hp).1, rest.inOrder⟩
  bounds := List.forall_mem_cons.2 ⟨⟨Nat.le_refl slot, h⟩, rest.passed.bounds⟩
  whole held e := by
    obtain ⟨p, hp, facts⟩ := rest.whole held e
    exact ⟨p, List.mem_cons_of_mem _ hp, facts⟩

theorem Searched.hit (h : slot < b.partition.slots)
    (here : SlotWord.verdict id (b.slotWord s.2 slot) = .here)
    (same : b.slotWord (others slot s).2 slot = b.slotWord s.2 slot) :
    b.Searched others id slot s (some (b.slotHeld s.2 slot)) [⟨slot, s, others slot s⟩] (others slot s) :=
  have visit : b.Searched others id slot s none [⟨slot, s, others slot s⟩] (others slot s) :=
    .paused h (.missed _)
  { visit with
    whole := fun held e => by
      obtain ⟨live, own⟩ := verdict_eq_here_iff.1 here
      cases e
      exact ⟨_, List.mem_singleton_self _, live, own, same, rfl⟩ }

theorem searchFrom_recorded (aligned : b.Aligned) (others : Interference κ n) (id : UInt64)
    (rest slot : Nat) (all : slot + rest = b.partition.slots) (earlier : List (Pause κ n))
    (s : κ × Memory n) : ∃ found pauses u, b.Searched others id slot s found pauses u ∧
      b.searchFrom others id rest slot s = .ok found u ∧
      b.searchFrom others.recorded id rest slot (recording earlier s) =
        .ok found (recording (pauses.reverse ++ earlier) u) := by
  induction rest generalizing slot earlier s with
  | zero => exact ⟨none, [], s, .missed s, rfl, rfl⟩
  | succ rest ih =>
    have h : slot < b.partition.slots := by omega
    rw [searchFrom_succ aligned others h, searchFrom_succ aligned others.recorded h,
      recorded_recording]
    cases here : SlotWord.verdict id (b.slotWord s.2 slot) with
    | stop => exact ⟨none, [], s, .missed s, rfl, rfl⟩
    | next =>
      obtain ⟨found, pauses, u, searched, run, run'⟩ := ih (slot + 1) (by omega) earlier s
      exact ⟨found, pauses, u, searched.passed, run, run'⟩
    | here =>
      by_cases same : b.slotWord (others slot s).2 slot = b.slotWord s.2 slot
      · simp only [if_pos same]
        exact ⟨_, [⟨slot, s, others slot s⟩], _, .hit h here same, rfl, rfl⟩
      · simp only [if_neg same]
        by_cases next : SlotWord.verdict id (b.slotWord (others slot s).2 slot) = .next
        · obtain ⟨found, pauses, u, searched, run, run'⟩ :=
            ih (slot + 1) (by omega) (⟨slot, s, others slot s⟩ :: earlier) (others slot s)
          simp only [if_pos next]
          refine ⟨found, ⟨slot, s, others slot s⟩ :: pauses, u, searched.paused h, run, ?_⟩
          rw [run', List.reverse_cons, List.append_assoc]
          rfl
        · simp only [if_neg next]
          exact ⟨none, [⟨slot, s, others slot s⟩], _, .paused h (.missed _), rfl, rfl⟩

theorem Searched.length_le (searched : b.Searched others id slot s found pauses u) :
    pauses.length ≤ b.partition.slots := by
  have nodup : (pauses.map Pause.slot).Nodup := List.pairwise_map.2 (searched.inOrder.imp Nat.ne_of_lt)
  have within : pauses.map Pause.slot ⊆ List.range b.partition.slots := fun j hj => by
    obtain ⟨p, hp, rfl⟩ := List.mem_map.1 hj
    exact List.mem_range.2 (searched.bounds p hp).2
  have few := (List.subperm_of_subset nodup within).length_le
  rwa [List.length_map, List.length_range] at few

section Acting

/-- Others who act by a plan each time they are let in. -/
def acting (b : Blocks n) (plan : Nat → Stage n → List (Action n)) : Interference (History n) n :=
  fun slot s => b.actAll (plan slot s) (look s)

/-- What a search that starts and finishes at two stages says about the counter of an id. -/
structure Answers (b : Blocks n) (id : UInt64) (start finish : Stage n) (found : Option Held) : Prop where
  present : ∀ e ∈ Register.ofLog start.1.log, e.id = id →
    (∃ d ∈ Register.ofLog finish.1.log, d.id = id) → ∃ held log, found = some held ∧
      start.1.log <:+ log ∧ log <:+ finish.1.log ∧ Text.lossy held.label = e.counter.label ∧
      ⟨e.slot, { e.counter with value := held.value }⟩ ∈ Register.ofLog log
  absent : (∀ log, start.1.log <:+ log → log <:+ finish.1.log → ∀ e ∈ Register.ofLog log, e.id ≠ id) →
    found = none

variable (aligned : b.Aligned) (plan : Nat → Stage n → List (Action n)) {s u : Stage n} {id : UInt64}
  {found : Option Held} {pauses : List (Pause (History n) n)}

include aligned

theorem within_acting : Within b.Later (b.acting plan) :=
  ⟨Later.refl, Later.trans, fun _ s => (Later.looked s).trans (later_actAll aligned _ _)⟩

theorem later_of_searchFrom {rest slot : Nat} (all : slot + rest = b.partition.slots)
    (run : b.searchFrom (b.acting plan) id rest slot s = .ok found u) : b.Later s u := by
  obtain ⟨found', pauses, u', searched, run', -⟩ :=
    searchFrom_recorded aligned (b.acting plan) id rest slot all [] s
  rw [run] at run'
  cases run'
  exact searched.acted.related (within_acting aligned plan)

/-- The slots before a live counter send the search on, and its own slot keeps its word. -/
theorem exists_found_of_stays (proper : Log.Proper u.1.log) (sound : b.Sound s) {e : Entry}
    (he : e ∈ Register.ofLog s.1.log) (stays : e.Stays s.1.log u.1.log) (rest slot : Nat)
    (all : slot + rest = b.partition.slots) (from_le : slot ≤ e.slot)
    (run : b.searchFrom (b.acting plan) e.id rest slot s = .ok found u) : ∃ held, found = some held := by
  have current := sound.current
  induction rest generalizing slot with
  | zero =>
    have := current.mirrors.lt he
    omega
  | succ rest ih =>
    rw [searchFrom_succ aligned _ (by omega)] at run
    rcases Nat.lt_or_eq_of_le from_le with before | rfl
    · have next : SlotWord.verdict e.id (b.slotWord s.2 slot) = .next :=
        current.mirrors.next current.orderly he before
      rw [next] at run
      exact ih (slot + 1) (by omega) before run
    · have here : SlotWord.verdict e.id (b.slotWord s.2 e.slot) = .here := current.mirrors.here he
      rw [here] at run
      dsimp only at run
      have step := (within_acting aligned plan).step e.slot s
      have unchanged : b.Later (b.acting plan e.slot s) u →
          b.slotWord (b.acting plan e.slot s).2 e.slot = b.slotWord s.2 e.slot := fun later => by
        have after := (step.sound (proper.earlier later.continues.suffix) sound).1
        exact unchanged_of_stays current after.current
          (fun log h1 h2 => stays log h1 (h2.trans later.continues.suffix)) step.continues.suffix
      split_ifs at run with same next
      · cases run
        exact ⟨_, rfl⟩
      · exact absurd (unchanged (later_of_searchFrom aligned plan (by omega) run)) same
      · cases run
        exact absurd (unchanged (Later.refl _)) same

theorem Searched.answers (searched : b.Searched (b.acting plan) id 0 s found pauses u)
    (run : b.searchAmong (b.acting plan) id s = .ok found u) (proper : Log.Proper u.1.log)
    (sound : b.Sound s) : b.Answers id s u found := by
  have within := within_acting aligned plan
  -- whatever was found was live when it was read
  have origin : ∀ held, found = some held → ∃ log slot, s.1.log <:+ log ∧ log <:+ u.1.log ∧
      ∃ t : Stage n, t.1.log = log ∧ b.Consistent (now t) ∧
        ⟨slot, id, Text.lossy held.label, held.value⟩ ∈ Register.ofLog log := by
    intro held e
    obtain ⟨p, hp, live, rfl, -, rfl⟩ := searched.whole held e
    obtain ⟨h1, h2, h3⟩ := searched.acted.related_of_mem within p hp
    have before := (h1.sound (proper.earlier (h2.trans h3).continues.suffix) sound).1.current
    exact ⟨p.before.1.log, p.slot, h1.continues.suffix, (h2.trans h3).continues.suffix, p.before, rfl, before,
      before.mirrors.mem_of_live (searched.bounds p hp).2 live⟩
  constructor
  case absent =>
    intro never
    cases found with
    | none => rfl
    | some held =>
      obtain ⟨log, slot, h1, h2, -, -, -, mem⟩ := origin held rfl
      exact absurd rfl (never log h1 h2 _ mem)
  case present =>
    rintro e he rfl ⟨d, hd, same⟩
    have later := searched.acted.related within
    have stays := stays_of_live (later.sound proper sound).1.current he hd same
    obtain ⟨held, rfl⟩ := exists_found_of_stays aligned plan proper sound he stays _ 0 (Nat.zero_add _)
      (Nat.zero_le _) run
    obtain ⟨_, slot, h1, h2, t, rfl, between, mem⟩ := origin held rfl
    obtain ⟨value, kept⟩ := stays _ h1 h2
    obtain ⟨rfl, counter⟩ := Entry.mk.inj (between.mirrors.eq_of_id between.orderly mem kept rfl)
    refine ⟨held, _, rfl, h1, h2, congrArg Reading.label counter, ?_⟩
    rw [show held.value = value from congrArg Reading.value counter]
    exact kept

end Acting

/-- A search ends whatever the others write, after few turns, and pauses at most once at each slot; what
it finds was in one slot at one moment. Where the others allocate, free and store it says whether the
counter is live. -/
theorem search_under_interference (aligned : b.Aligned) (id : UInt64) :
    (∀ (κ : Type) (others : Interference κ n) (s : κ × Memory n), ∃ found pauses u,
      b.searchAmong others id s = .ok found u ∧
      b.searchAmong others.recorded id (recording [] s) = .ok found (recording pauses.reverse u) ∧
      b.turns others id (2 * b.partition.slots + 1) (.looking 0) s = .ok (.over found) u ∧
      pauses.length ≤ b.partition.slots ∧ b.Searched others id 0 s found pauses u) ∧
    ∀ m, b.Unused m → ∀ (actions : List (Action n)) (plan : Nat → Stage n → List (Action n)),
      ∃ found finish,
        b.searchAmong (b.acting plan) id (b.actAll actions (opening m)) = .ok found finish ∧
        (Log.Proper finish.1.log → b.Answers id (b.actAll actions (opening m)) finish found) := by
  constructor
  · intro κ others s
    obtain ⟨found, pauses, u, searched, run, run'⟩ :=
      searchFrom_recorded aligned others id b.partition.slots 0 (Nat.zero_add _) [] s
    rw [List.append_nil] at run'
    exact ⟨found, pauses, u, run, run', turns_eq_searchFrom aligned others id _ 0 (Nat.zero_add _) _
      (Nat.lt_succ_self _) s run, searched.length_le, searched⟩
  · intro m unused actions plan
    obtain ⟨found, pauses, finish, searched, run, -⟩ := searchFrom_recorded aligned (b.acting plan) id
      b.partition.slots 0 (Nat.zero_add _) [] (b.actAll actions (opening m))
    refine ⟨found, finish, run, fun proper => searched.answers aligned plan run proper ?_⟩
    have later := searched.acted.related (within_acting aligned plan)
    exact sound_actAll unused actions (proper.earlier later.continues.suffix)

def endsLive (id : UInt64) : EStateM.Result Fault (Stage n) (Option Held) → Bool
  | .ok _ t => Log.Proper t.1.log && (Register.ofLog t.1.log).any fun e => e.id == id
  | .error _ _ => false

theorem endsLive_storing : endsLive 1 (oneSlot.searchAmong (oneSlot.acting storing) 1 started) = true := by
  decide +kernel

theorem searching_while_storing :
    oneSlot.Aligned ∧ oneSlot.Unused (Memory.zero _) ∧ ∃ held finish,
      oneSlot.searchAmong (oneSlot.acting storing) 1 started = .ok (some held) finish ∧
      Log.Proper finish.1.log ∧ Text.lossy held.label = "a" := by
  have unused : oneSlot.Unused (Memory.zero _) := unused_zero rfl
  obtain ⟨found, finish, run, answers⟩ := (search_under_interference unused.aligned 1).2 (Memory.zero _)
    unused [.allocate 1 "a" 5 ⟨0⟩ fun _ _ => []] storing
  have ends := endsLive_storing
  rw [show oneSlot.searchAmong (oneSlot.acting storing) 1 started = .ok found finish from run] at ends
  obtain ⟨isProper, live⟩ := Bool.and_eq_true_iff.1 ends
  have proper : Log.Proper finish.1.log := of_decide_eq_true isProper
  obtain ⟨d, hd, same⟩ := List.any_eq_true.1 live
  have member : (⟨0, 1, "a", 5⟩ : Entry) ∈ Register.ofLog started.1.log := by decide +kernel
  obtain ⟨held, -, rfl, -, -, label, -⟩ :=
    (answers proper).present _ member rfl ⟨d, hd, beq_iff_eq.1 same⟩
  exact ⟨unused.aligned, unused, held, finish, run, proper, label⟩

end Blocks

end SharedCounters
