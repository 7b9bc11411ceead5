import SharedCounters.Proofs.Acceptance
import SharedCounters.Proofs.Steps

/-! Reading never goes wrong. Whatever the bytes of an aligned region are, deciding about it ends with an
answer; and once it was accepted, everything a reader asks of its blocks is answered, whatever was
written to it since and whatever others write meanwhile. No access is out of bounds or misaligned. -/

namespace SharedCounters.Blocks

variable {n : Nat}

/-- Everything a reader can ask of the blocks is answered, also while others act, and no more of a slot
is taken for its label than the slot has room for. -/
structure Legible (b : Blocks n) (m : Memory n) : Prop where
  version : ∃ version, b.version m = .ok version
  pid : ∃ pid, b.pid m = .ok pid
  start : ∃ start, b.start m = .ok start
  statics : ∃ pairs, b.staticPairs m = .ok pairs
  static : ∀ label, ∃ value, b.staticFor label m = .ok value
  listing : ∃ readings, b.liveCounters m = .ok readings
  value : ∀ id, ∃ value, b.valueOf id m = .ok value
  label : ∀ id, ∃ label, b.labelOf id m = .ok label
  contended : ∀ {κ : Type} (others : Interference κ n) (k : κ),
    (∃ readings t, b.liveAmong others (k, m) = .ok readings t) ∧
      ∀ id, ∃ found t, b.searchAmong others id (k, m) = .ok found t
  room : ∀ slot held, b.held slot m = .ok held → held.label.length ≤ 380

section Header

variable {b : Blocks n} (aligned : b.Aligned) (m : Memory n)

include aligned

theorem headerWord_eq {α : Type} [Word α] {offset : Nat} (fits : offset + Word.size α ≤ 128)
    (whole : Word.size α ∣ offset) (size : Word.size α ∣ 8) :
    (b.header.load offset .acquire : Read n α) m = .ok (Window.wordAt m (b.region.base + offset)) := by
  have len : b.header.len = 128 := rfl
  have start : Word.size α ∣ b.region.base := Nat.dvd_trans size (Nat.dvd_of_mod_eq_zero aligned)
  exact b.header.load_eq (by omega) (Nat.mod_eq_zero_of_dvd (Nat.dvd_add start whole)) rfl m

theorem version_eq : b.version m = .ok (headerWord b.region m headerAt.version) :=
  headerWord_eq aligned m (by decide) (by decide) (by decide)

theorem pid_eq : b.pid m = .ok (Window.wordAt m (b.region.base + headerAt.pid)) :=
  headerWord_eq aligned m (by decide) (by decide) (by decide)

theorem start_eq : b.start m = .ok (Window.wordAt m (b.region.base + headerAt.start)) :=
  headerWord_eq aligned m (by decide) (by decide) (by decide)

end Header

section Scans

variable {κ : Type} {b : Blocks n} (aligned : b.Aligned) (others : Interference κ n)

include aligned

theorem exists_liveFrom (rest slot : Nat) (all : slot + rest = b.partition.slots) (s : κ × Memory n) :
    ∃ readings t, b.liveFrom others rest slot s = .ok readings t := by
  induction rest generalizing slot s with
  | zero => exact ⟨[], s, rfl⟩
  | succ rest ih =>
    rw [liveFrom_succ aligned others (by omega)]
    split
    · exact ⟨_, _, rfl⟩
    · obtain ⟨later, t, run⟩ := ih (slot + 1) (by omega) (others slot s)
      rw [run]
      exact ⟨_, _, rfl⟩
    · exact ih (slot + 1) (by omega) s

theorem exists_searchFrom (id : UInt64) (rest slot : Nat) (all : slot + rest = b.partition.slots)
    (s : κ × Memory n) : ∃ found t, b.searchFrom others id rest slot s = .ok found t := by
  induction rest generalizing slot s with
  | zero => exact ⟨none, s, rfl⟩
  | succ rest ih =>
    rw [searchFrom_succ aligned others (by omega)]
    split
    · exact ⟨_, _, rfl⟩
    · exact ih (slot + 1) (by omega) s
    · split_ifs
      · exact ⟨_, _, rfl⟩
      · exact ih (slot + 1) (by omega) (others slot s)
      · exact ⟨_, _, rfl⟩

end Scans

theorem exists_quietRead {α : Type} {operation : Contended Unit n α} {m : Memory n}
    (h : ∃ a t, operation ((), m) = .ok a t) : ∃ a, Contended.quietRead operation m = .ok a := by
  obtain ⟨a, t, run⟩ := h
  exact ⟨a, by simp only [Contended.quietRead, run]⟩

theorem length_loadBytes {w : Window n} {offset len : Nat} {m : Memory n} {bytes : List UInt8}
    (h : w.loadBytes offset len m = .ok bytes) : bytes.length = len := by
  rw [Window.loadBytes] at h
  split_ifs at h
  cases h
  exact m.length_read ..

theorem length_held_le {b : Blocks n} {slot : Nat} {m : Memory n} {found : Held}
    (h : b.held slot m = .ok found) : found.label.length ≤ 380 := by
  simp only [held, bind, ReaderT.bind, Except.bind] at h
  split at h
  · cases h
  · split at h
    · cases h
    · next label hlabel =>
      split at h
      · cases h
      · cases h
        rw [length_loadBytes hlabel]
        exact Nat.min_le_right ..

theorem legible (b : Blocks n) (aligned : b.Aligned) (m : Memory n) : b.Legible m := by
  have scan : ∀ {κ : Type} (others : Interference κ n) (s : κ × Memory n),
      ∃ readings t, b.liveAmong others s = .ok readings t := fun others s =>
    exists_liveFrom aligned others b.partition.slots 0 (Nat.zero_add _) s
  have search : ∀ {κ : Type} (others : Interference κ n) (id : UInt64) (s : κ × Memory n),
      ∃ found t, b.searchAmong others id s = .ok found t := fun others id s =>
    exists_searchFrom aligned others id b.partition.slots 0 (Nat.zero_add _) s
  have quiet : ∀ id, ∃ found, b.search id m = .ok found := fun id =>
    exists_quietRead (search alone id ((), m))
  constructor
  case version => exact ⟨_, version_eq aligned m⟩
  case pid => exact ⟨_, pid_eq aligned m⟩
  case start => exact ⟨_, start_eq aligned m⟩
  case statics => exact ⟨_, staticPairs_eq aligned m⟩
  case static => exact fun label => ⟨_, staticFor_eq aligned m label⟩
  case listing => exact exists_quietRead (scan alone ((), m))
  case value =>
    intro id
    obtain ⟨found, run⟩ := quiet id
    exact ⟨found.map Held.value, by simp only [valueOf, bind, ReaderT.bind, Except.bind, run]; rfl⟩
  case label =>
    intro id
    obtain ⟨found, run⟩ := quiet id
    exact ⟨found.map fun held => Text.lossy held.label,
      by simp only [labelOf, bind, ReaderT.bind, Except.bind, run]; rfl⟩
  case contended => exact fun others k => ⟨scan others (k, m), fun id => search others id (k, m)⟩
  case room => exact fun slot found h => length_held_le h

theorem split_region (b : Blocks n) : split b.region b.partition = .ok b := by
  have covers : ∀ {offset len : Nat}, offset + len ≤ b.region.len →
      b.region.covers offset len = .ok () := fun fits => if_pos fits
  simp only [split, bind, Except.bind, covers b.header_le, covers b.statics_le, covers b.metadata_le,
    dif_pos b.fits]
  rfl

theorem exists_accept {region : Window n} (aligned : region.base % 8 = 0) (m : Memory n) :
    ∃ answer, accept region m = .ok answer := by
  rcases Nat.lt_or_ge region.len 128 with short | header
  · exact ⟨_, accept_short m short⟩
  · exact ⟨_, accept_eq_judge aligned m header⟩

/-- Deciding about a region never goes wrong, and neither does anything that is read from the blocks it
was accepted with, whatever its contents are then. -/
theorem reading_never_faults {region : Window n} (aligned : region.base % 8 = 0) :
    (∀ m, ∃ answer, accept region m = .ok answer) ∧
    ∀ before b, accept region before = .ok (.ok b) →
      b.region = region ∧ split region b.partition = .ok b ∧ ∀ m, b.Legible m := by
  refine ⟨exists_accept aligned, fun before b accepted => ?_⟩
  obtain rfl := region_of_accept aligned before accepted
  exact ⟨rfl, b.split_region, b.legible aligned⟩

/-- Of a region that was accepted every byte may change. -/
theorem reading_overwritten_never_faults : later.base % 8 = 0 ∧
    ∃ b, accept later twoRecords = .ok (.ok b) ∧ b.Legible (Memory.zero _) := by
  obtain ⟨b, accepted, -⟩ := accept_of_holds rfl holds_twoRecords
  exact ⟨rfl, b, accepted, ((reading_never_faults rfl).2 twoRecords b accepted).2.2 _⟩

end SharedCounters.Blocks
