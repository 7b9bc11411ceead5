import SharedCounters.Proofs.Sessions

/-! A ledger that is borne out by the file of its writer: the region mirrors a register with an entry for
each account whose counter was not freed. It stays so whatever is done with the writer, its handles and
its views, and everything that its users rely on follows from it. -/

namespace SharedCounters

attribute [ext] Entry

namespace Account

def slot (a : Account) : Nat := a.handle.offset / valueAt.len

def entry (a : Account) : Entry := ⟨a.slot, a.reading⟩

theorem allocated_of_held {a : Account} (held : a.fate = .held) (store : Nat) : a.Allocated store :=
  fun answer given => by rw [held] at given; cases given

end Account

namespace Ledger

structure Backed (l : Ledger) (store : Nat) (fs : FileSystem) : Prop where
  lastId : l.writer.lastId.toNat = l.attempts
  once : (l.accounts.map Account.attempt).Nodup
  known : ∀ a ∈ l.accounts, a.attempt ≤ l.attempts
  ids : ∀ a ∈ l.accounts, a.handle.id.toNat = a.attempt
  handles : ∀ a ∈ l.accounts, ∃ closed,
    a.handle = l.writer.handle a.handle.id (keptLabel a.label) a.slot closed
  gains : ∀ a ∈ l.accounts, a.gains = (Use.reference a.uses a.initial).1
  answers : ∀ a ∈ l.accounts, ∀ keeper answer, a.fate = .given keeper answer →
    answer = decide (keeper = store)
  views : ∀ view ∈ l.views, ∃ number, view = l.writer.reader number
  holds : ∃ r, l.writer.Holds fs r ∧
    ∀ e, e ∈ r ↔ ∃ a ∈ l.accounts, a.Allocated store ∧ e = a.entry

variable {l : Ledger} {store : Nat} {fs fs' : FileSystem} {r r' : Register} {a b : Account}

theorem mem_change {attempt : Nat} {f : Account → Account} :
    b ∈ (l.change attempt f).accounts ↔
      ∃ a ∈ l.accounts, (if a.attempt = attempt then f a else a) = b := by
  rw [change, List.mem_map]

theorem mem_of_held {attempt : Nat} (h : l.held attempt = some a) :
    a ∈ l.accounts ∧ a.attempt = attempt ∧ a.fate = .held := by
  have found := List.find?_some h
  rw [decide_eq_true_eq] at found
  exact ⟨List.mem_of_find?_eq_some h, found⟩

theorem shownBy_reader (holds : l.writer.Holds fs r)
    (mem : ∀ e, e ∈ r ↔ ∃ a ∈ l.accounts, a.Allocated store ∧ e = a.entry) (number : Nat) :
    l.ShownBy store fs (l.writer.reader number) := by
  refine ⟨r.listing, holds.liveCounters_eq number, ?_, fun reading => ?_⟩
  · rw [Register.listing, List.map_map]
    exact holds.mirrors.nodup_ids holds.orderly
  · rw [Register.listing, List.mem_map]
    constructor
    · rintro ⟨e, he, rfl⟩
      obtain ⟨a, ha, allocated, rfl⟩ := (mem e).1 he
      exact ⟨a, ha, allocated, rfl⟩
    · rintro ⟨a, ha, allocated, rfl⟩
      exact ⟨a.entry, (mem _).2 ⟨a, ha, allocated, rfl⟩, rfl⟩

namespace Backed

variable (h : l.Backed store fs)

include h

theorem eq_of_attempt (ha : a ∈ l.accounts) (hb : b ∈ l.accounts) (same : a.attempt = b.attempt) : a = b :=
  List.inj_on_of_nodup_map h.once ha hb same

theorem eq_of_id (ha : a ∈ l.accounts) (hb : b ∈ l.accounts) (same : a.handle.id = b.handle.id) : a = b :=
  h.eq_of_attempt ha hb ((h.ids a ha).symm.trans ((congrArg UInt64.toNat same).trans (h.ids b hb)))

theorem mapping_handle (ha : a ∈ l.accounts) : a.handle.mapping = l.writer.mapping := by
  obtain ⟨closed, e⟩ := h.handles a ha
  exact congrArg Handle.mapping e

theorem free_handle (ha : a ∈ l.accounts) :
    a.handle.free = l.writer.mapping.write (l.writer.blocks.free a.handle.id) := by
  obtain ⟨closed, e⟩ := h.handles a ha
  rw [e]
  rfl

theorem keeps {kept : Nat → Prop} (keeps : fs.Keeps kept fs') (safe : kept l.writer.mapping.file) :
    l.Backed store fs' := by
  obtain ⟨r, holds, mem⟩ := h.holds
  exact { h with holds := ⟨r, holds.keeps keeps safe, mem⟩ }

theorem joined {slot : Nat} {label : String} {initial : Int64}
    (mem : ∀ e, e ∈ r ↔ ∃ a ∈ l.accounts, a.Allocated store ∧ e = a.entry)
    (next : (l.writer.lastId + 1).toNat = l.attempts + 1)
    (holds' : l.writer.Holds fs' (r.add ⟨slot, l.writer.lastId + 1, keptLabel label, initial⟩)) :
    (l.add { l.writer with lastId := l.writer.lastId + 1 } label initial
      (.ok (l.writer.handle (l.writer.lastId + 1) (keptLabel label) slot false))).Backed store fs' := by
  let new : Account :=
    ⟨l.attempts + 1, label, initial, l.writer.handle (l.writer.lastId + 1) (keptLabel label) slot false,
      [], .held⟩
  have each : ∀ {p : Account → Prop}, (∀ a ∈ l.accounts, p a) → p new →
      ∀ a ∈ l.accounts ++ [new], p a := fun old this a ha => by
    rcases List.mem_append.1 ha with ha | ha
    · exact old a ha
    · exact List.mem_singleton.1 ha ▸ this
  have place : new.slot = slot := by
    simp only [Account.slot, new, Writer.handle, Blocks.valueOffset, valueAt]
    omega
  have entry : new.entry = ⟨slot, l.writer.lastId + 1, keptLabel label, initial⟩ := by
    rw [Account.entry, place]
    rfl
  have handle : new.handle = l.writer.handle new.handle.id (keptLabel label) new.slot false := by
    rw [place]
    rfl
  refine ⟨next, ?_, each (fun a ha => Nat.le_succ_of_le (h.known a ha)) (Nat.le_refl _), each h.ids next,
    each h.handles ⟨false, handle⟩, each h.gains rfl,
    each h.answers (fun keeper answer given => by cases given), h.views,
    ⟨_, holds'.renumbered _, fun e => ?_⟩⟩
  · show ((l.accounts ++ [new]).map Account.attempt).Nodup
    rw [List.map_append, List.nodup_append]
    refine ⟨h.once, List.nodup_singleton _, fun attempt ha other hb => ?_⟩
    obtain ⟨b, hb', rfl⟩ := List.mem_map.1 ha
    have le := h.known b hb'
    have e : other = l.attempts + 1 := List.mem_singleton.1 hb
    omega
  · rw [Register.mem_add, mem, ← entry]
    constructor
    · rintro (rfl | ⟨a, ha, rest⟩)
      · exact ⟨new, List.mem_append_right _ (List.mem_singleton_self _),
          Account.allocated_of_held rfl store, rfl⟩
      · exact ⟨a, List.mem_append_left _ ha, rest⟩
    · rintro ⟨a, ha, rest⟩
      rcases List.mem_append.1 ha with ha | ha
      · exact Or.inr ⟨a, ha, rest⟩
      · obtain rfl := List.mem_singleton.1 ha
        exact Or.inl rest.2

/-- Asking for a counter: the attempt counts, and there is a new account if a slot was left. -/
theorem added (label : String) (initial : Int64) (few : l.attempts + 1 < 2 ^ 56) :
    ∃ writer result fs', l.writer.add label initial fs = .ok (writer, result) fs' ∧
      fs.Keeps (· ≠ l.writer.mapping.file) fs' ∧ writer.mapping = l.writer.mapping ∧
      (l.add writer label initial result).Backed store fs' := by
  obtain ⟨r, holds, mem⟩ := h.holds
  rw [← h.lastId] at few
  have next : (l.writer.lastId + 1).toNat = l.attempts + 1 :=
    (Writer.toNat_next few).trans (congrArg (· + 1) h.lastId)
  have used : ∀ e ∈ r, e.id.toNat ≤ l.writer.lastId.toNat := fun e he => by
    obtain ⟨a, ha, -, rfl⟩ := (mem e).1 he
    rw [h.lastId]
    exact Nat.le_trans (Nat.le_of_eq (h.ids a ha)) (h.known a ha)
  obtain ⟨result, fs', run, keeps, outcome⟩ := holds.add label initial few used
  refine ⟨_, result, fs', run, keeps, rfl, ?_⟩
  rcases outcome with ⟨rfl, holds'⟩ | ⟨slot, rfl, holds'⟩
  · exact { h with
      lastId := next
      known := fun a ha => Nat.le_succ_of_le (h.known a ha)
      holds := ⟨r, holds'.renumbered _, mem⟩ }
  · exact h.joined mem next holds'

/-- Something was done with a handle: only its account changes, and in the register only its entry. -/
theorem changed (ha : a ∈ l.accounts) (holds' : l.writer.Holds fs' r')
    (mem : ∀ e, e ∈ r ↔ ∃ a ∈ l.accounts, a.Allocated store ∧ e = a.entry) {f : Account → Account}
    (attempts : ∀ b, (f b).attempt = b.attempt) (label : (f a).label = a.label)
    (handle : ∃ closed, (f a).handle = { a.handle with closed := closed })
    (gains : (f a).gains = (Use.reference (f a).uses (f a).initial).1)
    (answers : ∀ keeper answer, (f a).fate = .given keeper answer → answer = decide (keeper = store))
    (mem' : ∀ e, e ∈ r' ↔ ((f a).Allocated store ∧ e = (f a).entry) ∨ (e ∈ r ∧ e.id ≠ a.handle.id)) :
    (l.change a.attempt f).Backed store fs' := by
  obtain ⟨closed, handle⟩ := handle
  have each : ∀ {p : Account → Prop}, (∀ b ∈ l.accounts, p b) → p (f a) →
      ∀ b ∈ (l.change a.attempt f).accounts, p b := fun old this b hb => by
    obtain ⟨c, hc, rfl⟩ := mem_change.1 hb
    split_ifs with same
    · rwa [h.eq_of_attempt hc ha same]
    · exact old c hc
  have slot : (f a).slot = a.slot := by rw [Account.slot, handle]; rfl
  refine ⟨h.lastId, ?_, each h.known ?_, each h.ids ?_, each h.handles ?_, each h.gains gains,
    each h.answers answers, h.views, ⟨r', holds', fun e => ?_⟩⟩
  · have same : (l.change a.attempt f).accounts.map Account.attempt = l.accounts.map Account.attempt := by
      rw [change, List.map_map]
      refine List.map_congr_left fun b _ => ?_
      simp only [Function.comp]
      split_ifs
      · exact attempts b
      · rfl
    rw [same]
    exact h.once
  · rw [attempts]
    exact h.known a ha
  · rw [attempts, handle]
    exact h.ids a ha
  · obtain ⟨before, e⟩ := h.handles a ha
    exact ⟨closed, by rw [slot, label, handle, e]; rfl⟩
  · rw [mem']
    constructor
    · rintro (⟨allocated, rfl⟩ | ⟨he, other⟩)
      · exact ⟨f a, mem_change.2 ⟨a, ha, if_pos rfl⟩, allocated, rfl⟩
      · obtain ⟨b, hb, allocated, rfl⟩ := (mem e).1 he
        have ne : b.attempt ≠ a.attempt := fun same =>
          other (congrArg (Handle.id ∘ Account.handle) (h.eq_of_attempt hb ha same))
        exact ⟨b, mem_change.2 ⟨b, hb, if_neg ne⟩, allocated, rfl⟩
    · rintro ⟨b', hb', allocated, rfl⟩
      obtain ⟨b, hb, rfl⟩ := mem_change.1 hb'
      split_ifs at allocated ⊢ with same
      · obtain rfl := h.eq_of_attempt hb ha same
        exact Or.inl ⟨allocated, rfl⟩
      · exact Or.inr ⟨(mem _).2 ⟨b, hb, allocated, rfl⟩, fun e =>
          same (congrArg Account.attempt (h.eq_of_id hb ha e))⟩

section Held

variable (ha : a ∈ l.accounts) (held : a.fate = .held)

include ha held

/-- Nothing is done to the counter of a handle that is closed, lost, or given to another store. -/
theorem noted {f : Account → Account} (attempts : ∀ b, (f b).attempt = b.attempt)
    (label : (f a).label = a.label) (handle : ∃ closed, (f a).handle = { a.handle with closed := closed })
    (initial : (f a).initial = a.initial) (past : (f a).past = a.past)
    (answers : ∀ keeper answer, (f a).fate = .given keeper answer → keeper ≠ store ∧ answer = false) :
    (l.change a.attempt f).Backed store fs := by
  obtain ⟨r, holds, mem⟩ := h.holds
  have there : a.entry ∈ r := (mem _).2 ⟨a, ha, Account.allocated_of_held held store, rfl⟩
  have allocated : (f a).Allocated store := fun answer given => (answers store answer given).1 rfl
  have entry : (f a).entry = a.entry := by
    obtain ⟨closed, handle⟩ := handle
    simp only [Account.entry, Account.slot, Account.reading, Account.value, Account.uses, label, handle,
      initial, past]
  refine h.changed ha holds mem attempts label handle ?_ (fun keeper answer given => ?_) fun e => ?_
  · rw [Account.gains, Account.uses, past, initial]
    exact h.gains a ha
  · obtain ⟨other, refused⟩ := answers keeper answer given
    rw [refused, decide_eq_false other]
  · constructor
    · intro he
      by_cases same : e.id = a.handle.id
      · exact Or.inl ⟨allocated, (holds.mirrors.eq_of_id holds.orderly he there same).trans entry.symm⟩
      · exact Or.inr ⟨he, same⟩
    · rintro (⟨-, rfl⟩ | ⟨he, -⟩)
      · rwa [entry]
      · exact he

/-- A use gives back what the value that its account leads to decides. -/
theorem used (use : Use) : ∃ gain fs', use.through a.handle fs = .ok gain fs' ∧
    fs.Keeps (· ≠ l.writer.mapping.file) fs' ∧
    (l.change a.attempt (Account.record use gain)).Backed store fs' := by
  obtain ⟨r, holds, mem⟩ := h.holds
  have there : a.entry ∈ r := (mem _).2 ⟨a, ha, Account.allocated_of_held held store, rfl⟩
  obtain ⟨closed, handle⟩ := h.handles a ha
  obtain ⟨fs', run, keeps, holds'⟩ := holds.through there a.handle.id (keptLabel a.label) closed use
  have run : use.through a.handle fs = .ok (use.alone a.value).1 fs' := by rwa [handle]
  have allocated : (a.record use (use.alone a.value).1).Allocated store :=
    Account.allocated_of_held held store
  have uses : (a.record use (use.alone a.value).1).uses = a.uses ++ [use] := List.map_append
  have gains : (a.record use (use.alone a.value).1).gains = a.gains ++ [(use.alone a.value).1] :=
    List.map_append
  have value : (a.record use (use.alone a.value).1).value = (use.alone a.value).2 := by
    rw [Account.value, uses]
    exact congrArg Prod.snd (Use.reference_append_one a.uses use a.initial)
  refine ⟨_, fs', run, keeps, h.changed ha holds' mem (fun _ => rfl) rfl ⟨a.handle.closed, rfl⟩ ?_
    (fun keeper answer given => ?_) fun e => ?_⟩
  · rw [uses, gains, h.gains a ha]
    exact (congrArg Prod.fst (Use.reference_append_one a.uses use a.initial)).symm
  · exact h.answers a ha keeper answer given
  · have entry : (a.record use (use.alone a.value).1).entry =
        ⟨a.slot, { a.reading with value := (use.alone a.value).2 }⟩ := by
      rw [Account.entry, Account.reading, value]
      rfl
    rw [Register.mem_set, entry]
    constructor
    · rintro ⟨d, hd, slot, counter⟩
      by_cases same : d.slot = a.entry.slot
      · obtain rfl := holds.mirrors.eq_of_slot hd there same
        rw [if_pos rfl] at counter
        exact Or.inl ⟨allocated, Entry.ext slot counter⟩
      · rw [if_neg same] at counter
        obtain rfl := Entry.ext slot counter
        refine Or.inr ⟨hd, fun e => same ?_⟩
        exact congrArg Entry.slot (holds.mirrors.eq_of_id holds.orderly hd there e)
    · rintro (⟨-, rfl⟩ | ⟨he, other⟩)
      · exact ⟨a.entry, there, rfl, (if_pos rfl).symm⟩
      · refine ⟨e, he, rfl, (if_neg fun same => other ?_).symm⟩
        exact congrArg Entry.id (holds.mirrors.eq_of_slot he there same)

theorem freed : ∃ fs', l.writer.mapping.write (l.writer.blocks.free a.handle.id) fs = .ok true fs' ∧
    fs.Keeps (· ≠ l.writer.mapping.file) fs' ∧
    (l.change a.attempt (Account.give store true)).Backed store fs' := by
  obtain ⟨r, holds, mem⟩ := h.holds
  have there : a.entry ∈ r := (mem _).2 ⟨a, ha, Account.allocated_of_held held store, rfl⟩
  obtain ⟨fs', run, keeps, holds'⟩ := holds.free_eq there
  refine ⟨fs', run, keeps, h.changed ha holds' mem (fun _ => rfl) rfl ⟨a.handle.closed, rfl⟩
    (h.gains a ha) (fun keeper answer given => ?_) fun e => ?_⟩
  · cases given
    exact (decide_eq_true rfl).symm
  · have gone : ¬ (a.give store true).Allocated store := fun allocated => allocated true rfl
    rw [Register.mem_drop, or_iff_right fun both => gone both.1]
    rfl

end Held

theorem view_eq {source : Source} (leads : source.leadsTo fs = some l.writer.mapping.file) :
    source.view fs = .ok (l.writer.reader fs.mappings) { fs with mappings := fs.mappings + 1 } := by
  obtain ⟨r, holds, -⟩ := h.holds
  have opened := holds.opened
  cases source with
  | file number =>
    cases leads
    exact opened
  | path p =>
    rw [Source.leadsTo] at leads
    split at leads
    · next spot number found =>
      cases leads
      have mapped : Mapping.ofPath p fs = Mapping.ofOpen l.writer.mapping.file false fs := by
        simp only [Mapping.ofPath, bind, EStateM.bind, Host.ask, found]
      simp only [Source.view, Reader.ofPath, bind, EStateM.bind, mapped] at opened ⊢
      exact opened
    · cases leads

theorem sound : l.Sound store fs := by
  obtain ⟨r, holds, mem⟩ := h.holds
  refine ⟨h.lastId, h.ids, fun a ha => ?_, ?_, h.gains, fun view hview => ?_, fun source leads => ?_,
    h.answers⟩
  · obtain ⟨closed, e⟩ := h.handles a ha
    exact congrArg Handle.label e
  · refine (List.pairwise_map.1 h.once).imp_of_mem fun {a b} ha hb other allocated allocated' same => other ?_
    have entry := (mem _).2 ⟨a, ha, allocated, rfl⟩
    have entry' := (mem _).2 ⟨b, hb, allocated', rfl⟩
    have slot : a.entry.slot = b.entry.slot := congrArg (· / valueAt.len) same
    have id := congrArg Entry.id (holds.mirrors.eq_of_slot entry entry' slot)
    exact congrArg Account.attempt (h.eq_of_id ha hb id)
  · obtain ⟨number, rfl⟩ := h.views view hview
    exact shownBy_reader holds mem number
  · have counted : fs.Keeps (fun _ => True) { fs with mappings := fs.mappings + 1 } :=
      .of_contents rfl (Nat.le_succ _)
    exact ⟨_, _, h.view_eq leads, shownBy_reader (holds.keeps counted trivial) mem _⟩

end Backed

end Ledger

end SharedCounters
