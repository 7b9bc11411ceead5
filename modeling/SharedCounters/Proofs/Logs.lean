import SharedCounters.Proofs.Register
import SharedCounters.Machine.Access

/-! Logs of what happened, the latest event first. A log tells when an allocation was asked for and how
it ended, what was freed and what was stored, and with that which counters are live. No id is asked for
twice in a proper run, so an allocation under way shares its id with none that ended. -/

namespace SharedCounters

inductive Event
  | asked (id : UInt64)
  | allocated (slot : Nat) (counter : Reading)
  | refused (id : UInt64)
  | freed (id : UInt64)
  | stored (slot : Nat) (value : Int64)
  | crashed (fault : Fault)
  deriving DecidableEq, Repr

namespace Event

def settles : Event → Option UInt64
  | .allocated _ counter => some counter.id
  | .refused id => some id
  | _ => none

/-- An allocation that starts or is refused. -/
def Silent : Event → Prop
  | .asked _ => True
  | .refused _ => True
  | _ => False

end Event

abbrev Log := List Event

/-- The counters that were allocated and not freed since, with the values last stored. -/
def Register.ofLog : Log → Register
  | [] => []
  | .allocated slot counter :: past => (ofLog past).add ⟨slot, counter⟩
  | .freed id :: past => (ofLog past).drop id
  | .stored slot value :: past => (ofLog past).set slot value
  | _ :: past => ofLog past

namespace Log

/-- No id is asked for twice, and only values of live counters are stored. -/
def Admits (past : Log) : Event → Prop
  | .asked id => .asked id ∉ past
  | .stored slot _ => ∃ e ∈ Register.ofLog past, e.slot = slot
  | _ => True

inductive Proper : Log → Prop
  | start : Proper []
  | step {event : Event} {past : Log} (admitted : Admits past event) (earlier : Proper past) :
    Proper (event :: past)

instance decidableAdmits (past : Log) : (event : Event) → Decidable (Admits past event)
  | .asked id => inferInstanceAs (Decidable (.asked id ∉ past))
  | .stored slot _ => inferInstanceAs (Decidable (∃ e ∈ Register.ofLog past, e.slot = slot))
  | .allocated _ _ | .refused _ | .freed _ | .crashed _ => isTrue trivial

theorem proper_cons {event : Event} {past : Log} :
    Proper (event :: past) ↔ Admits past event ∧ Proper past :=
  ⟨fun | .step admitted earlier => ⟨admitted, earlier⟩, fun h => .step h.1 h.2⟩

instance decidableProper : (log : Log) → Decidable (Proper log)
  | [] => isTrue .start
  | event :: past =>
    have := decidableProper past
    decidable_of_iff (Admits past event ∧ Proper past) proper_cons.symm

def lastStored (slot : Nat) (initial : Int64) : Log → Int64
  | [] => initial
  | .stored slot' value :: past => if slot = slot' then value else lastStored slot initial past
  | _ :: past => lastStored slot initial past

theorem Proper.of_append {more past : Log} (h : Proper (more ++ past)) : Proper past := by
  induction more with
  | nil => exact h
  | cons event more ih => exact ih (proper_cons.1 h).2

theorem Proper.asked_once {more past : Log} {id : UInt64} (h : Proper (more ++ .asked id :: past)) :
    .asked id ∉ more ∧ .asked id ∉ past := by
  induction more with
  | nil => exact ⟨List.not_mem_nil, (proper_cons.1 h).1⟩
  | cons event more ih =>
    obtain ⟨admitted, earlier⟩ := proper_cons.1 h
    obtain ⟨h1, h2⟩ := ih earlier
    refine ⟨fun mem => ?_, h2⟩
    rcases List.mem_cons.1 mem with rfl | mem
    · exact admitted (List.mem_append_right _ List.mem_cons_self)
    · exact h1 mem

end Log

namespace Register

variable {log : Log}

theorem origin_of_mem {e : Entry} (he : e ∈ ofLog log) : ∃ since before initial,
    log = since ++ .allocated e.slot { e.counter with value := initial } :: before ∧
      e.counter.value = Log.lastStored e.slot initial since := by
  induction log generalizing e with
  | nil => exact absurd he List.not_mem_nil
  | cons event past ih =>
    cases event with
    | allocated slot counter =>
      rcases mem_add.1 he with rfl | he
      · exact ⟨[], past, counter.value, rfl, rfl⟩
      · obtain ⟨since, before, initial, rfl, value⟩ := ih he
        exact ⟨_ :: since, before, initial, rfl, value⟩
    | freed id =>
      obtain ⟨since, before, initial, rfl, value⟩ := ih (mem_drop.1 he).1
      exact ⟨_ :: since, before, initial, rfl, value⟩
    | stored slot value =>
      obtain ⟨d, hd, hs, hc⟩ := mem_set.1 he
      obtain ⟨since, before, initial, rfl, last⟩ := ih hd
      refine ⟨.stored slot value :: since, before, initial, ?_, ?_⟩
      · rw [hs, hc]
        split_ifs <;> rfl
      · rw [hs, hc, Log.lastStored, ← last]
        split_ifs <;> rfl
    | asked _ | refused _ | crashed _ =>
      obtain ⟨since, before, initial, rfl, value⟩ := ih he
      exact ⟨_ :: since, before, initial, rfl, value⟩

theorem allocated_of_mem {e : Entry} (he : e ∈ ofLog log) :
    ∃ initial, .allocated e.slot { e.counter with value := initial } ∈ log := by
  obtain ⟨since, before, initial, rfl, -⟩ := origin_of_mem he
  exact ⟨initial, List.mem_append_right _ List.mem_cons_self⟩

theorem mem_of_allocated {slot : Nat} {counter : Reading} (mem : .allocated slot counter ∈ log)
    (kept : .freed counter.id ∉ log) : ∃ value, ⟨slot, { counter with value := value }⟩ ∈ ofLog log := by
  induction log with
  | nil => exact absurd mem List.not_mem_nil
  | cons event past ih =>
    have earlier : .allocated slot counter ∈ past →
        ∃ value, ⟨slot, { counter with value := value }⟩ ∈ ofLog past := fun mem =>
      ih mem fun h => kept (List.mem_cons_of_mem _ h)
    cases event with
    | allocated slot' counter' =>
      rcases List.mem_cons.1 mem with same | mem
      · obtain ⟨rfl, rfl⟩ := Event.allocated.inj same
        exact ⟨counter.value, mem_add.2 (Or.inl rfl)⟩
      · obtain ⟨value, h⟩ := earlier mem
        exact ⟨value, mem_add.2 (Or.inr h)⟩
    | freed id =>
      obtain ⟨value, h⟩ := earlier (by simpa using mem)
      refine ⟨value, mem_drop.2 ⟨h, fun same => kept ?_⟩⟩
      rw [show counter.id = id from same]
      exact List.mem_cons_self
    | stored slot' value' =>
      obtain ⟨value, h⟩ := earlier (by simpa using mem)
      refine ⟨if slot = slot' then value' else value, mem_set.2 ⟨_, h, rfl, ?_⟩⟩
      split_ifs <;> rfl
    | asked _ | refused _ | crashed _ => exact earlier (by simpa using mem)

end Register

namespace Log

def settled (log : Log) : List UInt64 := log.filterMap Event.settles

/-- What the log of a proper run looks like. -/
structure Tidy (log : Log) : Prop where
  asked : ∀ id ∈ log.settled, .asked id ∈ log
  once : log.settled.Nodup
  gone : ∀ id, .freed id ∈ log → (∃ slot counter, .allocated slot counter ∈ log ∧ counter.id = id) ∧
    ∀ e ∈ Register.ofLog log, e.id ≠ id
  calm : ∀ fault, .crashed fault ∉ log

/-- The log goes on, and allocations that end now were asked for now. -/
def Continues (past log : Log) : Prop :=
  ∃ more, log = more ++ past ∧ ∀ id ∈ settled more, .asked id ∈ more

variable {log past : Log} {id : UInt64} {slot : Nat} {counter : Reading}

theorem mem_settled_of_allocated (mem : .allocated slot counter ∈ log) : counter.id ∈ log.settled :=
  List.mem_filterMap.2 ⟨_, mem, rfl⟩

theorem Continues.refl (log : Log) : Continues log log :=
  ⟨[], rfl, fun _ h => absurd h List.not_mem_nil⟩

theorem Continues.trans {between : Log} (h1 : Continues past between) (h2 : Continues between log) :
    Continues past log := by
  obtain ⟨more, rfl, settle⟩ := h1
  obtain ⟨more', rfl, settle'⟩ := h2
  refine ⟨more' ++ more, (List.append_assoc ..).symm, fun id h => ?_⟩
  rw [settled, List.filterMap_append, List.mem_append] at h
  exact List.mem_append.2 (h.imp (settle' id) (settle id))

theorem Continues.event (event : Event) (h : event.settles = none) : Continues past (event :: past) := by
  refine ⟨[event], rfl, fun id mem => ?_⟩
  rw [settled, List.filterMap_cons_none h] at mem
  exact absurd mem List.not_mem_nil

/-- The end of an allocation continues the log from before it was asked for. -/
theorem Continues.settle {event : Event} (h : event.settles = some id)
    (during : Continues (.asked id :: past) log) : Continues past (event :: log) := by
  obtain ⟨more, rfl, settle⟩ := during
  refine ⟨event :: more ++ [.asked id], by simp, fun other mem => ?_⟩
  simp only [settled, List.filterMap_append, List.filterMap_cons_some h, List.mem_append,
    List.mem_cons] at mem
  rcases mem with (rfl | mem) | mem
  · simp
  · simp [settle other mem]
  · simp [Event.settles] at mem

theorem Continues.suffix (h : Continues past log) : past <:+ log := by
  obtain ⟨more, rfl, -⟩ := h
  exact List.suffix_append more past

theorem Proper.earlier (h : Proper log) (suffix : past <:+ log) : Proper past := by
  obtain ⟨more, rfl⟩ := suffix
  exact h.of_append

/-- While an allocation is under way its id is on no other allocation that ended. -/
theorem Tidy.not_settled (tidy : Tidy past) (during : Continues (.asked id :: past) log)
    (proper : Proper log) : id ∉ log.settled := by
  obtain ⟨more, rfl, settle⟩ := during
  obtain ⟨h1, h2⟩ := proper.asked_once
  rw [settled, List.filterMap_append, List.mem_append, List.filterMap_cons_none rfl]
  rintro (h | h)
  · exact h1 (settle id h)
  · exact h2 (tidy.asked id h)

theorem Continues.mem_asked (during : Continues (.asked id :: past) log) : .asked id ∈ log :=
  during.suffix.subset List.mem_cons_self

section Events

variable (tidy : Tidy log)

include tidy

theorem Tidy.eq_of_settles {event event' : Event} (mem : event ∈ log) (mem' : event' ∈ log)
    (h : event.settles = some id) (h' : event'.settles = some id) : event = event' := by
  have pairs := List.pairwise_filterMap.1 tidy.once
  refine List.Pairwise.forall_of_forall_of_flip
    (R := fun d d' => d.settles = some id → d'.settles = some id → d = d') (fun _ _ _ _ => rfl)
    (pairs.imp ?_) (pairs.imp ?_) mem mem' h h'
  · intro d d' apart hd hd'
    exact absurd rfl (apart id hd id hd')
  · intro d d' apart hd' hd
    exact absurd rfl (apart id hd id hd')

theorem Tidy.eq_of_id {slot' : Nat} {counter' : Reading} (mem : .allocated slot counter ∈ log)
    (mem' : .allocated slot' counter' ∈ log) (same : counter.id = counter'.id) :
    slot = slot' ∧ counter = counter' := by
  have h := tidy.eq_of_settles mem mem' rfl (congrArg some same.symm)
  exact Event.allocated.inj h

/-- An event keeps a log tidy if it ends an allocation that was asked for and had not ended, if it lets
no freed counter come back, and if it frees a live counter only. -/
theorem Tidy.cons {event : Event}
    (settles : ∀ id, event.settles = some id → .asked id ∈ log ∧ id ∉ log.settled)
    (frees : ∀ id, event = .freed id → ∃ e ∈ Register.ofLog log, e.id = id)
    (gone : ∀ id, event = .freed id ∨ .freed id ∈ log →
      ∀ e ∈ Register.ofLog (event :: log), e.id ≠ id)
    (calm : ∀ fault, event ≠ .crashed fault) : Tidy (event :: log) where
  asked id h := by
    refine List.mem_cons_of_mem _ ?_
    obtain ⟨other, mem, same⟩ := List.mem_filterMap.1 h
    rcases List.mem_cons.1 mem with rfl | mem
    · exact (settles id same).1
    · exact tidy.asked id (List.mem_filterMap.2 ⟨other, mem, same⟩)
  once := by
    unfold settled
    cases hs : event.settles with
    | none =>
      rw [List.filterMap_cons_none hs]
      exact tidy.once
    | some id =>
      rw [List.filterMap_cons_some hs]
      exact List.nodup_cons.2 ⟨(settles id hs).2, tidy.once⟩
  gone id h := by
    rcases List.mem_cons.1 h with same | h
    · obtain ⟨e, he, rfl⟩ := frees id same.symm
      obtain ⟨initial, mem⟩ := Register.allocated_of_mem he
      exact ⟨⟨_, _, List.mem_cons_of_mem _ mem, rfl⟩, gone e.id (Or.inl same.symm)⟩
    · obtain ⟨⟨slot, counter, mem, same⟩, -⟩ := tidy.gone id h
      exact ⟨⟨slot, counter, List.mem_cons_of_mem _ mem, same⟩, gone id (Or.inr h)⟩
  calm fault h := by
    rcases List.mem_cons.1 h with same | h
    · exact calm fault same.symm
    · exact tidy.calm fault h

theorem Tidy.absent {other : UInt64} (freed : .freed other ∈ log) {e : Entry}
    (he : e ∈ Register.ofLog log) : e.id ≠ other := (tidy.gone other freed).2 e he

theorem Tidy.ask : Tidy (.asked id :: log) := by
  refine tidy.cons (fun _ h => ?_) (fun _ h => ?_) (fun other h e he => ?_) (fun _ h => ?_)
  · cases h
  · cases h
  · exact tidy.absent (h.resolve_left (by simp)) he
  · cases h

theorem Tidy.refuse (asked : .asked id ∈ log) (fresh : id ∉ log.settled) : Tidy (.refused id :: log) := by
  refine tidy.cons (fun _ h => ?_) (fun _ h => ?_) (fun other h e he => ?_) (fun _ h => ?_)
  · cases h
    exact ⟨asked, fresh⟩
  · cases h
  · exact tidy.absent (h.resolve_left (by simp)) he
  · cases h

theorem Tidy.allocate (asked : .asked counter.id ∈ log) (fresh : counter.id ∉ log.settled) :
    Tidy (.allocated slot counter :: log) := by
  refine tidy.cons (fun _ h => ?_) (fun _ h => ?_) (fun other h e he => ?_) (fun _ h => ?_)
  · cases h
    exact ⟨asked, fresh⟩
  · cases h
  · have freed := h.resolve_left (by simp)
    rcases Register.mem_add.1 he with rfl | he
    · -- what was freed had been allocated, and so settled, before
      intro again
      obtain ⟨slot', counter', mem, same⟩ := (tidy.gone other freed).1
      have settled := mem_settled_of_allocated mem
      rw [show counter'.id = counter.id from same.trans again.symm] at settled
      exact fresh settled
    · exact tidy.absent freed he
  · cases h

theorem Tidy.free {e : Entry} (he : e ∈ Register.ofLog log) : Tidy (.freed e.id :: log) := by
  refine tidy.cons (fun _ h => ?_) (fun _ h => ?_) (fun other h d hd => ?_) (fun _ h => ?_)
  · cases h
  · cases h
    exact ⟨e, he, rfl⟩
  · obtain ⟨hd, ne⟩ := Register.mem_drop.1 hd
    rcases h with h | freed
    · cases h
      exact ne
    · exact tidy.absent freed hd
  · cases h

theorem Tidy.store {value : Int64} : Tidy (.stored slot value :: log) := by
  refine tidy.cons (fun _ h => ?_) (fun _ h => ?_) (fun other h e he => ?_) (fun _ h => ?_)
  · cases h
  · cases h
  · obtain ⟨d, hd, -, hc⟩ := Register.mem_set.1 he
    have ids : e.id = d.id := by
      rw [Entry.id, hc, Entry.id]
      split_ifs <;> rfl
    rw [ids]
    exact tidy.absent (h.resolve_left (by simp)) hd
  · cases h

end Events

end Log

end SharedCounters
