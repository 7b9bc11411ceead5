import SharedCounters.Proofs.Claiming
import SharedCounters.Proofs.Footprints
import SharedCounters.Proofs.RoundTrip
import SharedCounters.Proofs.Scans

/-! What the operations of a writer leave alone. Each of them is answered for all arguments, without an
access out of bounds or misaligned, and changes no byte but those it is for: these lie within the blocks,
and those of a slot within the records of that slot. -/

namespace SharedCounters

namespace Memory

variable {n : Nat} {m m' m'' : Memory n} {place place' : Nat → Prop}

/-- The second memory differs from the first at these places at most. -/
structure ChangesOnly (m m' : Memory n) (place : Nat → Prop) : Prop where
  byte_eq : ∀ i, ¬ place i → m'.byte i = m.byte i

theorem ChangesOnly.refl (m : Memory n) (place : Nat → Prop) : m.ChangesOnly m place :=
  ⟨fun _ _ => rfl⟩

theorem ChangesOnly.trans (h : m.ChangesOnly m' place) (h' : m'.ChangesOnly m'' place) :
    m.ChangesOnly m'' place :=
  ⟨fun i outside => (h'.byte_eq i outside).trans (h.byte_eq i outside)⟩

theorem ChangesOnly.mono (h : m.ChangesOnly m' place) (wider : ∀ i, place i → place' i) :
    m.ChangesOnly m' place' :=
  ⟨fun i outside => h.byte_eq i fun inside => outside (wider i inside)⟩

theorem DiffersWithin.changesOnly {first stop : Nat} (h : m.DiffersWithin m' first stop)
    (inside : ∀ i, first ≤ i → i < stop → place i) : m.ChangesOnly m' place where
  byte_eq i outside := by
    apply h.byte_eq i
    by_contra between
    exact outside (inside i (by omega) (by omega))

theorem byte_eq_getD_read (m : Memory n) (address : Nat) {len i : Nat} (h : i < len) :
    m.byte (address + i) = (m.read address len).getD i 0 := by
  rw [List.getD_eq_getElem?_getD, List.getElem?_eq_getElem (by simpa using h), getElem_read,
    Option.getD_some]

end Memory

theorem Window.bytes_wordAt {n : Nat} {α : Type} [Word α] (m : Memory n) (address : Nat) :
    Word.bytes (Window.wordAt m address : α) = m.read address (Word.size α) :=
  Word.bytes_ofBytes _ (m.length_read ..)

theorem SlotWord.bytes_pack (id : UInt64) (status : Status) :
    Word.bytes (pack id status) = status.toByte :: littleEndian 7 (id.toNat * 256 % 2 ^ 64 / 256) := by
  have small := status.toByte.toNat_lt
  have low : UInt8.ofNat (pack id status).toNat = status.toByte := by
    apply UInt8.toNat_inj.1
    rw [UInt8.toNat_ofNat', toNat_pack]
    omega
  have high : (pack id status).toNat / 256 = id.toNat * 256 % 2 ^ 64 / 256 := by
    rw [toNat_pack]
    omega
  show UInt8.ofNat (pack id status).toNat :: littleEndian 7 ((pack id status).toNat / 256) = _
  rw [low, high]

namespace Blocks

variable {n : Nat} (b : Blocks n)

/-- The part of the statics block that a map needs, if it has room there. -/
def StaticsPart (statics : Statics) (i : Nat) : Prop :=
  ∃ needed, statics.blockLen = .ok needed ∧ needed ≤ b.partition.staticsLen ∧ Lies i b.statics.base needed

def statusAt (slot : Nat) : Nat := b.metadata.base + wordOffset slot

/-- The bytes of the two records of a slot. -/
def RecordByte (slot i : Nat) : Prop :=
  Lies i (b.metadata.base + slot * 512) 512 ∨ Lies i (b.values.base + slot * 128) 128

/-- Each operation of a writer is answered and changes nothing but what it is for. What the others change
during an allocation is up to them. -/
structure Confined (m : Memory n) : Prop where
  publish : ∀ pid start statics, ∃ result m', b.publish pid start statics m = .ok result m' ∧
    m.ChangesOnly m' fun i => Lies i b.region.base 32 ∨ b.StaticsPart statics i
  announce : ∀ version, ∃ m', b.announce version m = .ok () m' ∧
    m.ChangesOnly m' fun i => Lies i b.region.base 4
  storeStatics : ∀ statics, ∃ result m', b.storeStatics statics m = .ok result m' ∧
    m.ChangesOnly m' fun i => b.StaticsPart statics i
  allocateAmong : ∀ {κ : Type} (others : Interference κ n) (k : κ) id label initial limit,
    ∃ result pauses t m', b.allocateAmong others id label initial limit (k, m) = .ok result (t.1, m') ∧
      b.allocateAmong others.recorded id label initial limit (recording [] (k, m)) =
        .ok result (recording pauses.reverse (t.1, m')) ∧
      Pauses others (k, m) pauses t ∧
      ∃ slot, t.2.ChangesOnly m' fun i =>
        slot < b.partition.slots ∧ b.TakenUp slot (Text.utf8 (keptLabel label)).length i
  allocate : ∀ id label initial, ∃ result m', b.allocate id label initial m = .ok result m' ∧
    ∃ slot, m.ChangesOnly m' fun i =>
      slot < b.partition.slots ∧ b.TakenUp slot (Text.utf8 (keptLabel label)).length i
  free : ∀ id, ∃ found m', b.free id m = .ok found m' ∧
    ∃ slot, m.ChangesOnly m' fun i => slot < b.partition.slots ∧ i = b.statusAt slot

/-- What the operations are for lies within the blocks, and what concerns a slot within its own records. -/
structure Separate : Prop where
  statics : ∀ statics i, b.StaticsPart statics i → b.region.base + 128 ≤ i ∧ i < b.metadata.base
  status : ∀ slot, b.RecordByte slot (b.statusAt slot)
  taken : ∀ slot label i, b.TakenUp slot (Text.utf8 (keptLabel label)).length i → b.RecordByte slot i
  records : ∀ slot i, slot < b.partition.slots → b.RecordByte slot i →
    b.metadata.base ≤ i ∧ i < b.region.base + b.partition.extent
  apart : ∀ j k i, j < b.partition.slots → k < b.partition.slots → b.RecordByte j i → b.RecordByte k i → j = k

variable {b} {m : Memory n}

section Publishing

variable {statics : Statics} (room : b.room statics = .ok ())

include room

theorem withStatics_changes : m.ChangesOnly (b.withStatics m statics) fun i => b.StaticsPart statics i := by
  obtain ⟨needed, len, le⟩ := room_eq_ok_iff.1 room
  have exact := le_roundUp (4 + Statics.recordsLen statics.pairs) (show 0 < 128 by decide)
  rw [← (Statics.blockLen_eq_ok len).1] at exact
  refine (withStatics_differs room).changesOnly fun i first last => ⟨needed, len, le, first, ?_⟩
  simp only [staticsAt] at last
  omega

theorem published_changes (pid start : UInt64) : m.ChangesOnly (b.published m pid start statics) fun i =>
    Lies i b.region.base 32 ∨ b.StaticsPart statics i := by
  have stop := b.region.fits
  have len := b.header_len_le
  have version : (Word.bytes formatVersion).length = 4 := rfl
  have header : m.ChangesOnly (b.withHeader m pid start) fun i => Lies i b.region.base 32 :=
    (withHeader_within pid start).changesOnly fun i first last => ⟨by omega, last⟩
  have records := withStatics_changes (m := b.withHeader m pid start) room
  have announced : (b.withStatics (b.withHeader m pid start) statics).ChangesOnly
      (b.published m pid start statics) fun i => Lies i b.region.base 32 := by
    refine Memory.DiffersWithin.changesOnly (Memory.differsWithin_write _ ?_ (Nat.le_refl _) (Nat.le_refl _))
      fun i first last => ?_
    all_goals simp only [headerAt, Lies] at *; omega
  exact ((header.mono fun i => .inl).trans (records.mono fun i => .inr)).trans (announced.mono fun i => .inl)

end Publishing

theorem bytes_slotWord (b : Blocks n) (m : Memory n) (slot : Nat) :
    Word.bytes (b.slotWord m slot) = m.read (b.statusAt slot) 8 :=
  Window.bytes_wordAt m _

theorem withWord_status {slot : Nat} (h : slot < b.partition.slots) {id : UInt64} {before after : Status}
    (found : b.slotWord m slot = SlotWord.pack id before) :
    m.ChangesOnly (b.withWord m slot (SlotWord.pack id after)) fun i => i = b.statusAt slot := by
  have within := withWord_within h m (SlotWord.pack id after)
  have stored := b.bytes_slotWord m slot
  have stored' := b.bytes_slotWord (b.withWord m slot (SlotWord.pack id after)) slot
  rw [found] at stored
  rw [slotWord_withWord b h h, if_pos rfl] at stored'
  constructor
  intro i other
  by_cases inside : b.statusAt slot ≤ i ∧ i < b.statusAt slot + 8
  · -- a byte of the id
    obtain ⟨k, rfl⟩ : ∃ k, i = b.statusAt slot + (k + 1) := ⟨i - b.statusAt slot - 1, by omega⟩
    rw [Memory.byte_eq_getD_read _ _ (show k + 1 < 8 by omega), ← stored',
      Memory.byte_eq_getD_read _ _ (show k + 1 < 8 by omega), ← stored, SlotWord.bytes_pack,
      SlotWord.bytes_pack, List.getD_cons_succ, List.getD_cons_succ]
  · refine within.byte_eq i ?_
    show i < b.statusAt slot ∨ b.statusAt slot + 8 ≤ i
    omega

section Answers

variable (aligned : b.Aligned)

include aligned

theorem free_changes (id : UInt64) (m : Memory n) : ∃ found m', b.free id m = .ok found m' ∧
    ∃ slot, m.ChangesOnly m' fun i => slot < b.partition.slots ∧ i = b.statusAt slot := by
  refine ⟨_, _, free_eq aligned, ?_⟩
  rw [freed]
  cases found : b.holder m id with
  | none => exact ⟨0, .refl _ _⟩
  | some k =>
    obtain ⟨lt, live, -⟩ := mem_shown.1 (holder_eq_some_iff.1 found).1
    exact ⟨k, (withWord_status lt (SlotWord.eq_pack_of_status live)).mono fun i status => ⟨lt, status⟩⟩

theorem allocateAmong_changes {κ : Type} (others : Interference κ n) (id : UInt64) (label : String)
    (initial : Int64) (limit : RetryLimit) (s : κ × Memory n) :
    ∃ result pauses t m', b.allocateAmong others id label initial limit s = .ok result (t.1, m') ∧
      b.allocateAmong others.recorded id label initial limit (recording [] s) =
        .ok result (recording pauses.reverse (t.1, m')) ∧
      Pauses others s pauses t ∧
      ∃ slot, t.2.ChangesOnly m' fun i =>
        slot < b.partition.slots ∧ b.TakenUp slot (Text.utf8 (keptLabel label)).length i := by
  rcases allocateAmong_trail others aligned id initial limit label s with
    ⟨-, run, run'⟩ | ⟨-, found, pauses, u, trail, run, run'⟩
  · exact ⟨_, [], s, s.2, run, run', .none s, 0, .refl _ _⟩
  · have acted := trail.acted
    cases found with
    | none => exact ⟨_, pauses, u, u.2, run, run', acted, 0, .refl _ _⟩
    | some slot =>
      have lt := trail.lt_of_found rfl
      refine ⟨_, pauses, u, _, run, run', acted, slot, ⟨fun i outside => ?_⟩⟩
      exact (filled_taken lt u.2 id (length_keptLabel_le label) initial).rest i fun taken =>
        outside ⟨lt, taken⟩

theorem confined (m : Memory n) : b.Confined m := by
  constructor
  case publish =>
    intro pid start statics
    rw [publish_eq aligned]
    cases room : b.room statics with
    | error cause =>
      exact ⟨_, _, rfl, (withHeader_within pid start).changesOnly fun i first last => .inl ⟨by omega, last⟩⟩
    | ok _ => exact ⟨_, _, rfl, published_changes room pid start⟩
  case announce =>
    intro version
    have run := storeHeader_eq aligned headerAt.version (by decide) (by decide) (by decide) version .release
      rfl m
    refine ⟨_, run, (Memory.differsWithin_write m ?_ (Nat.le_refl _) (Nat.le_refl _)).changesOnly
      fun i first last => ⟨first, last⟩⟩
    have stop := b.region.fits
    have len := b.header_len_le
    rw [Word.length_bytes]
    simp only [headerAt, Word.size]
    omega
  case storeStatics =>
    intro statics
    rw [storeStatics_eq aligned]
    cases room : b.room statics with
    | error cause => exact ⟨_, _, rfl, .refl _ _⟩
    | ok _ => exact ⟨_, _, rfl, withStatics_changes room⟩
  case allocateAmong =>
    exact fun others k id label initial limit =>
      allocateAmong_changes aligned others id label initial limit (k, m)
  case allocate =>
    intro id label initial
    obtain ⟨result, pauses, t, m', run, -, acted, slot, changes⟩ :=
      allocateAmong_changes aligned alone id label initial .standard ((), m)
    have same : t = ((), m) := by
      refine acted.related (R := fun s u => u = s) ⟨fun _ => rfl, ?_, fun _ _ => rfl⟩
      intro s t u h h'
      exact h'.trans h
    subst same
    exact ⟨result, m', by simp only [Blocks.allocate, Contended.quietWrite, run], slot, changes⟩
  case free => exact fun id => free_changes aligned id m

end Answers

theorem TakenUp.recordByte {slot len i : Nat} (room : len ≤ metadataAt.labelCapacity)
    (taken : b.TakenUp slot len i) : b.RecordByte slot i := by
  simp only [TakenUp, Lies, wordOffset, labelLenOffset, labelOffset, valueOffset, metadataAt, valueAt]
    at taken room
  rcases taken with word | labelLen | label | value
  · exact .inl ⟨by omega, by omega⟩
  · exact .inl ⟨by omega, by omega⟩
  · exact .inl ⟨by omega, by omega⟩
  · exact .inr ⟨by omega, by omega⟩

theorem RecordByte.bounds {slot i : Nat} (h : slot < b.partition.slots) (inside : b.RecordByte slot i) :
    b.metadata.base ≤ i ∧ i < b.region.base + b.partition.extent := by
  have base := b.values_base
  have start : b.values.base = b.region.base + b.partition.valuesStart := rfl
  have extent : b.partition.extent = b.partition.valuesStart + b.partition.slots * 128 := rfl
  simp only [RecordByte, Lies] at inside
  omega

theorem separate (b : Blocks n) : b.Separate := by
  constructor
  case statics =>
    rintro map i ⟨needed, -, le, first, last⟩
    have metadata : b.metadata.base = b.region.base + (128 + b.partition.staticsLen) := rfl
    have statics := b.statics_base
    omega
  case status =>
    intro slot
    left
    simp only [Lies, statusAt, wordOffset, metadataAt]
    omega
  case taken => exact fun slot label i taken => taken.recordByte (length_keptLabel_le label)
  case records => exact fun slot i h inside => inside.bounds h
  case apart =>
    intro j k i hj hk first second
    have base := b.values_base
    simp only [RecordByte, Lies] at first second
    omega

/-- In an aligned region no operation of a writer goes wrong or changes more than its own bytes: fields of
the header, the part of the statics that a map needs, one slot, or one status. -/
theorem writing_stays_in_place (b : Blocks n) (aligned : b.Aligned) :
    split b.region b.partition = .ok b ∧ b.Separate ∧ ∀ m, b.Confined m :=
  ⟨b.split_region, b.separate, fun m => confined aligned m⟩

/-- A region in the middle of a memory, longer than its blocks. -/
def between : Blocks 928 where
  region := ⟨8, 912, by decide⟩
  partition := oneSlot.partition
  fits := by decide

theorem allocating_in_between : between.Aligned ∧ ∃ result m',
    between.allocate 7 "abc" 5 (Memory.zero 928) = .ok result m' ∧
    ∀ i, i < 264 ∨ 904 ≤ i → m'.byte i = 0 := by
  have aligned : between.Aligned := rfl
  obtain ⟨-, separate, confined⟩ := writing_stays_in_place between aligned
  obtain ⟨result, m', run, slot, changes⟩ := (confined (Memory.zero 928)).allocate 7 "abc" 5
  refine ⟨aligned, result, m', run, fun i outside => ?_⟩
  rw [changes.byte_eq i, Memory.byte_zero]
  rintro ⟨lt, taken⟩
  obtain ⟨first, last⟩ := separate.records slot i lt (separate.taken slot "abc" i taken)
  have first : 264 ≤ i := first
  have last : i < 904 := last
  omega

end Blocks

end SharedCounters
