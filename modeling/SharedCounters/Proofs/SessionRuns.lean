import SharedCounters.Proofs.Ledgers

/-! Runs of a session. No two writers share a file or a mapping, so what is done with one of them leaves
the regions of the others alone; every ledger stays borne out by its file, and users of any number of
writers can rely on each of them at every moment. -/

namespace SharedCounters

theorem Reader.ofMapping_ensures (p : Mapping) (fs : FileSystem) :
    Ensures (Reader.ofMapping p) fs (fun view fs' => view.mapping = p ∧ fs' = fs) (· = fs) := by
  simp only [Ensures, Reader.ofMapping, bind, EStateM.bind, Mapping.read]
  cases Blocks.accept p.window (fs.image p.file p.len) with
  | error fault => rfl
  | ok answer =>
    cases answer with
    | error cause => rfl
    | ok b => exact ⟨rfl, rfl⟩

namespace Source

theorem ofOpen_ensures (number : Nat) (fs : FileSystem) (kept : Nat → Prop) :
    Ensures (do Reader.ofMapping (← Mapping.ofOpen number false) : Host Reader) fs
      (fun view fs' => view.mapping.file = number ∧ fs.Keeps kept fs') (fs.Keeps kept) := by
  have counted : fs.Keeps kept { fs with mappings := fs.mappings + 1 } :=
    .of_contents rfl (Nat.le_succ _)
  refine Ensures.bind (fun p fs' => p.file = number ∧ fs.Keeps kept fs') ⟨rfl, counted⟩ ?_
  rintro p between ⟨rfl, keeps⟩
  refine (Reader.ofMapping_ensures p between).mono ?_ fun fs' same => same ▸ keeps
  rintro view fs' ⟨rfl, rfl⟩
  exact ⟨rfl, keeps⟩

theorem view_ensures (source : Source) (fs : FileSystem) (kept : Nat → Prop) :
    Ensures source.view fs (fun view fs' => source.leadsTo fs = some view.mapping.file ∧ fs.Keeps kept fs')
      (fs.Keeps kept) := by
  cases source with
  | file number =>
    exact (ofOpen_ensures number fs kept).mono
      (fun view fs' opened => ⟨congrArg some opened.1.symm, opened.2⟩) fun fs' keeps => keeps
  | path p =>
    simp only [Ensures, view, Reader.ofPath, Mapping.ofPath, bind, EStateM.bind, Host.ask, leadsTo]
    cases found : fs.find p with
    | error cause => exact .refl fs
    | ok entry =>
      obtain ⟨spot, node⟩ := entry
      cases node with
      | directory => exact .refl fs
      | file number =>
        exact (ofOpen_ensures number fs kept).mono
          (fun view fs' opened => ⟨congrArg some opened.1.symm, opened.2⟩) fun fs' keeps => keeps

end Source

namespace Session

structure Backed (s : Session) : Prop where
  ledgers : ∀ store (l : Ledger), s.ledgers[store]? = some l → l.Backed store s.fs
  apart : ∀ (j k : Nat) (l l' : Ledger), s.ledgers[j]? = some l → s.ledgers[k]? = some l' →
    l.writer.mapping.file = l'.writer.mapping.file ∨
      l.writer.mapping.number = l'.writer.mapping.number → j = k

variable {s : Session} {fs' : FileSystem} {store : Nat} {l l' : Ledger}

theorem owns_of_getElem? (hl : s.ledgers[store]? = some l) : s.Owns l.writer.mapping.file :=
  ⟨l, List.mem_of_getElem? hl, rfl⟩

theorem backed_start (fs : FileSystem) : (start fs).Backed where
  ledgers _ _ hl := by simp [start] at hl
  apart _ _ _ _ hl := by simp [start] at hl

namespace Backed

variable (h : s.Backed)

include h

theorem elsewhere (keeps : s.fs.Keeps s.Owns fs') : Backed { s with fs := fs' } :=
  ⟨fun store l hl => (h.ledgers store l hl).keeps keeps (owns_of_getElem? hl), h.apart⟩

theorem changed (hl : s.ledgers[store]? = some l) (keeps : s.fs.Keeps (· ≠ l.writer.mapping.file) fs')
    (same : l'.writer.mapping = l.writer.mapping) (backed : l'.Backed store fs') :
    Backed ⟨fs', s.ledgers.set store l'⟩ := by
  have inside : store < s.ledgers.length := (List.getElem?_eq_some_iff.1 hl).1
  have before : ∀ j (x : Ledger), (s.ledgers.set store l')[j]? = some x →
      ∃ y : Ledger, s.ledgers[j]? = some y ∧ x.writer.mapping = y.writer.mapping := fun j x hx => by
    rw [List.getElem?_set] at hx
    split_ifs at hx with here
    · cases hx
      exact ⟨l, here ▸ hl, same⟩
    · exact ⟨x, hx, rfl⟩
  refine ⟨fun j x hx => ?_, fun j k x y hx hy e => ?_⟩
  · rw [List.getElem?_set] at hx
    split_ifs at hx with here
    · cases hx
      exact here ▸ backed
    · exact (h.ledgers j x hx).keeps keeps fun e => here (h.apart store j l x hl hx (Or.inl e.symm))
  · obtain ⟨x', hx', ex⟩ := before j x hx
    obtain ⟨y', hy', ey⟩ := before k y hy
    rw [ex, ey] at e
    exact h.apart j k x' y' hx' hy' e

/-- A new writer joins with a file and a mapping that none of the others has. -/
theorem created {w : Writer} (made : w.Made s.Owns s.fs fs') :
    Backed ⟨fs', s.ledgers ++ [⟨w, 0, [], []⟩]⟩ := by
  have position : ∀ j (x : Ledger), (s.ledgers ++ [⟨w, 0, [], []⟩])[j]? = some x →
      s.ledgers[j]? = some x ∨ j = s.ledgers.length ∧ x = ⟨w, 0, [], []⟩ := fun j x hx => by
    rw [List.getElem?_append] at hx
    split_ifs at hx with old
    · exact Or.inl hx
    · obtain ⟨first, e⟩ := List.getElem?_eq_some_iff.1 hx
      rw [List.length_singleton] at first
      rw [List.getElem_singleton] at e
      exact Or.inr ⟨by omega, e.symm⟩
  have new : ∀ j (x : Ledger), s.ledgers[j]? = some x → ¬ (x.writer.mapping.file = w.mapping.file ∨
      x.writer.mapping.number = w.mapping.number) := fun j x hx e => by
    obtain ⟨r, holds, -⟩ := (h.ledgers j x hx).holds
    have numbered := holds.numbered
    have later := made.new
    rcases e with e | e
    · exact made.own _ holds.there (owns_of_getElem? hx) e
    · omega
  refine ⟨fun j x hx => ?_, fun j k x y hx hy e => ?_⟩
  · rcases position j x hx with hx | ⟨rfl, rfl⟩
    · exact (h.ledgers j x hx).keeps made.keeps (owns_of_getElem? hx)
    · exact {
        lastId := congrArg UInt64.toNat made.lastId
        once := List.nodup_nil
        known := List.forall_mem_nil _
        ids := List.forall_mem_nil _
        handles := List.forall_mem_nil _
        gains := List.forall_mem_nil _
        answers := List.forall_mem_nil _
        views := List.forall_mem_nil _
        holds := ⟨[], made.holds, by simp⟩ }
  · rcases position j x hx with hx | ⟨rfl, rfl⟩ <;> rcases position k y hy with hy | ⟨rfl, rfl⟩
    · exact h.apart j k x y hx hy e
    · exact absurd e (new j x hx)
    · exact absurd (e.imp Eq.symm Eq.symm) (new k y hy)
    · rfl

theorem withHandle {store attempt : Nat} {act : Handle → Host (Account → Account)}
    (acts : ∀ (l : Ledger) a, s.ledgers[store]? = some l → a ∈ l.accounts → a.fate = .held →
      ∃ f fs', act a.handle s.fs = .ok f fs' ∧ s.fs.Keeps (· ≠ l.writer.mapping.file) fs' ∧
        (l.change a.attempt f).Backed store fs') :
    ∃ s', s.withHandle store attempt act = .ok s' ∧ s'.Backed := by
  rw [Session.withHandle]
  cases hl : s.ledgers[store]? with
  | none => exact ⟨s, rfl, h⟩
  | some l =>
    cases hheld : l.held attempt with
    | none => exact ⟨s, by simp only [hheld], h⟩
    | some a =>
      obtain ⟨ha, rfl, held⟩ := Ledger.mem_of_held hheld
      obtain ⟨f, fs', run, keeps, backed⟩ := acts l a hl ha held
      exact ⟨⟨fs', s.ledgers.set store (l.change a.attempt f)⟩, by simp only [hheld, run],
        h.changed hl keeps rfl backed⟩

omit h in
theorem make_ensures {place : Place} {statics : Statics} {slots : Nat} {settings : Settings}
    {origin : Origin} (admitted : s.Admits (.create place statics slots settings origin)) :
    Ensures (place.make statics slots settings origin) s.fs (Writer.Made s.Owns s.fs)
      (s.fs.Keeps s.Owns) := by
  cases place with
  | path p =>
    exact (Writer.make_ensures statics slots settings origin p s.Owns).mono (fun w fs' made => made.1)
      fun fs' failed => failed.1
  | name p =>
    exact (Writer.makeByName_ensures statics slots settings origin p s.Owns).mono (fun w fs' made => made.1)
      fun fs' failed => failed
  | file number =>
    obtain ⟨there, free⟩ := admitted
    have spared : ∀ file, s.Owns file → file ≠ number := fun file owns e => free (e ▸ owns)
    exact (Writer.remake_ensures statics slots settings origin there).mono
      (fun w fs' made => made.1.mono spared) fun fs' failed => failed.1.keeps.mono spared

theorem view_step (source : Source) : ∃ s', s.step (.view source) = .ok s' ∧ s'.Backed := by
  have opened := source.view_ensures s.fs s.Owns
  rw [step]
  cases run : source.view s.fs with
  | error failure fs' =>
    rw [Ensures, run] at opened
    exact ⟨_, rfl, h.elsewhere opened⟩
  | ok view fs' =>
    rw [Ensures, run] at opened
    obtain ⟨leads, keeps⟩ := opened
    have writer : ∀ l : Ledger, (l.noticed view).writer = l.writer := fun l => by
      rw [Ledger.noticed]
      split_ifs <;> rfl
    refine ⟨_, rfl, fun store x hx => ?_, fun j k x y hx hy e => ?_⟩
    · rw [List.getElem?_map, Option.map_eq_some_iff] at hx
      obtain ⟨l, hl, rfl⟩ := hx
      have backed := h.ledgers store l hl
      rw [Ledger.noticed]
      split_ifs with own
      · -- the view is of this writer's region
        have same := backed.view_eq (leads.trans (congrArg some own.symm))
        cases run.symm.trans same
        refine { backed.keeps keeps (owns_of_getElem? hl) with views := fun v hv => ?_ }
        rcases List.mem_cons.1 hv with rfl | hv
        · exact ⟨_, rfl⟩
        · exact backed.views v hv
      · exact backed.keeps keeps (owns_of_getElem? hl)
    · rw [List.getElem?_map, Option.map_eq_some_iff] at hx hy
      obtain ⟨l, hl, rfl⟩ := hx
      obtain ⟨l', hl', rfl⟩ := hy
      rw [writer, writer] at e
      exact h.apart j k l l' hl hl' e

theorem add_step (store : Nat) (label : String) (initial : Int64)
    (few : ∀ l ∈ s.ledgers[store]?, l.attempts + 1 < 2 ^ 56) :
    ∃ s', s.step (.add store label initial) = .ok s' ∧ s'.Backed := by
  rw [step]
  cases hl : s.ledgers[store]? with
  | none => exact ⟨s, rfl, h⟩
  | some l =>
    obtain ⟨writer, result, fs', run, keeps, same, backed⟩ :=
      (h.ledgers store l hl).added label initial (few l hl)
    exact ⟨_, by simp only [run], h.changed hl keeps same backed⟩

/-- A handle is given to a writer: the one it belongs to frees its counter, another one does nothing. -/
theorem freeBy_step (keeper store attempt : Nat) :
    ∃ s', s.step (.freeBy keeper store attempt) = .ok s' ∧ s'.Backed := by
  rw [step]
  cases hk : s.ledgers[keeper]? with
  | none => exact ⟨s, rfl, h⟩
  | some k =>
    refine h.withHandle fun l a hl ha held => ?_
    have backed := h.ledgers store l hl
    have number := congrArg Mapping.number (backed.mapping_handle ha)
    by_cases own : keeper = store
    · subst own
      obtain rfl : k = l := Option.some.inj (hk.symm.trans hl)
      obtain ⟨fs', run, keeps, freed⟩ := backed.freed ha held
      have asked : k.writer.free a.handle s.fs = .ok true fs' := by rw [Writer.free, if_pos number, run]
      exact ⟨_, fs', Host.return_eq_ok asked (Account.give keeper), keeps, freed⟩
    · have foreign : ¬ a.handle.mapping.number = k.writer.mapping.number := fun e =>
        own (h.apart keeper store k l hk hl (Or.inr (e.symm.trans number)))
      have asked : k.writer.free a.handle s.fs = .ok false s.fs := by
        rw [Writer.free, if_neg foreign]
        rfl
      refine ⟨_, s.fs, Host.return_eq_ok asked (Account.give keeper), .refl _, ?_⟩
      refine backed.noted ha held (fun _ => rfl) rfl ⟨a.handle.closed, rfl⟩ rfl rfl ?_
      intro other answer given
      cases given
      exact ⟨own, rfl⟩

/-- One request: nothing fails that should not, and every ledger is still borne out by its file. -/
theorem step {request : Request} (admitted : s.Admits request) :
    ∃ s', s.step request = .ok s' ∧ s'.Backed := by
  cases request with
  | create place statics slots settings origin =>
    have made := make_ensures admitted
    rw [Session.step]
    cases run : place.make statics slots settings origin s.fs with
    | ok w fs' =>
      rw [Ensures, run] at made
      exact ⟨_, rfl, h.created made⟩
    | error failure fs' =>
      rw [Ensures, run] at made
      exact ⟨_, rfl, h.elsewhere made⟩
  | add store label initial => exact h.add_step store label initial admitted
  | use store attempt use =>
    rw [Session.step]
    refine h.withHandle fun l a hl ha held => ?_
    obtain ⟨gain, fs', run, keeps, backed⟩ := (h.ledgers store l hl).used ha held use
    exact ⟨_, fs', Host.return_eq_ok run (Account.record use), keeps, backed⟩
  | close store attempt =>
    rw [Session.step]
    refine h.withHandle fun l a hl ha held => ⟨Account.close, s.fs, rfl, .refl _, ?_⟩
    refine (h.ledgers store l hl).noted ha held (fun _ => rfl) rfl ⟨true, rfl⟩ rfl rfl ?_
    intro keeper answer given
    cases held.symm.trans given
  | drop store attempt =>
    rw [Session.step]
    refine h.withHandle fun l a hl ha held => ⟨Account.drop, s.fs, rfl, .refl _, ?_⟩
    refine (h.ledgers store l hl).noted ha held (fun _ => rfl) rfl ⟨a.handle.closed, rfl⟩ rfl rfl ?_
    intro keeper answer given
    cases given
  | free store attempt =>
    rw [Session.step]
    refine h.withHandle fun l a hl ha held => ?_
    have backed := h.ledgers store l hl
    obtain ⟨fs', run, keeps, freed⟩ := backed.freed ha held
    rw [← backed.free_handle ha] at run
    exact ⟨_, fs', Host.return_eq_ok run (Account.give store), keeps, freed⟩
  | freeBy keeper store attempt => exact h.freeBy_step keeper store attempt
  | view source => exact h.view_step source
  | elsewhere fs => exact ⟨_, rfl, h.elsewhere admitted⟩

theorem sound : s.Sound := fun store l hl => (h.ledgers store l hl).sound

end Backed

theorem run_backed (requests : List Request) (h : s.Backed) (admitted : AdmitsAll requests s) :
    ∃ s', run requests s = .ok s' ∧ s'.Backed := by
  induction requests generalizing s with
  | nil => exact ⟨s, rfl, h⟩
  | cons request rest ih =>
    obtain ⟨first, later⟩ := admitted
    obtain ⟨between, step, backed⟩ := h.step first
    obtain ⟨s', rest, backed'⟩ := ih backed (later between step)
    exact ⟨s', by rw [run, step, ← rest], backed'⟩

theorem AdmitsAll.earlier {past requests : List Request} (part : past <+: requests)
    (admitted : AdmitsAll requests s) : AdmitsAll past s := by
  induction past generalizing s requests with
  | nil => trivial
  | cons request past ih =>
    obtain ⟨rest, rfl, shorter⟩ := List.cons_prefix_iff.1 part
    exact ⟨admitted.1, fun s' step => ih shorter (admitted.2 s' step)⟩

/-- At no moment of a session does anything fail that should not, and at every moment the users can
rely on each of the writers. -/
theorem sound_throughout (fs : FileSystem) (requests : List Request)
    (admitted : AdmitsAll requests (start fs)) :
    ∀ past, past <+: requests → ∃ s, run past (start fs) = .ok s ∧ s.Sound := by
  intro past part
  obtain ⟨s, ran, backed⟩ := run_backed past (backed_start fs) (admitted.earlier part)
  exact ⟨s, ran, backed.sound⟩

/-- Two writers with a slot each and the same ids. A counter is refused, one writer is handed the
counter of the other, and a slot is taken again after it was freed. -/
def twoWriters : List Request :=
  [.create (.path (.ofString "a")) .empty 1 ⟨⟨[]⟩, 128⟩ ⟨7, 9⟩,
    .create (.path (.ofString "b")) .empty 1 ⟨⟨[]⟩, 128⟩ ⟨7, 9⟩,
    .add 0 "x" 5, .add 1 "y" 6, .view (.file 0), .add 0 "z" 1, .use 0 1 (.increment 3), .freeBy 1 0 1,
    .free 1 1, .add 1 "w" 2, .close 1 2, .use 1 2 (.swap 4)]

theorem sound_with_two_writers :
    AdmitsAll twoWriters (start (.ofDirectories [] [])) ∧
      ∃ s, run twoWriters (start (.ofDirectories [] [])) = .ok s ∧ s.Sound ∧
        s.ledgers.map (fun l => (l.attempts, l.accounts.map Account.reading)) =
          [(2, [⟨1, "x", 8⟩]), (2, [⟨1, "y", 6⟩, ⟨2, "w", 4⟩])] := by
  have admitted : AdmitsAll twoWriters (start (.ofDirectories [] [])) := by decide +kernel
  have accounts : (run twoWriters (start (.ofDirectories [] []))).toOption.map
      (fun s => s.ledgers.map fun l => (l.attempts, l.accounts.map Account.reading)) =
        some [(2, [⟨1, "x", 8⟩]), (2, [⟨1, "y", 6⟩, ⟨2, "w", 4⟩])] := by decide +kernel
  obtain ⟨s, ran, sound⟩ := sound_throughout _ twoWriters admitted twoWriters (List.prefix_refl _)
  rw [ran] at accounts
  exact ⟨admitted, s, ran, sound, Option.some.inj accounts⟩

end Session

end SharedCounters
