import SharedCounters.Proofs.FileImages
import SharedCounters.Proofs.RoundTrip
import SharedCounters.Proofs.Uses
import SharedCounters.Reader

/-! A writer whose file holds its region. While the slots are in order and mirror a register, adding,
using and freeing do to the register what they should, through the file, and a reader that is opened on
the file lists the register. No other file is touched. -/

namespace SharedCounters

theorem Host.return_eq_ok {α β : Type} {operation : Host α} {fs fs' : FileSystem} {a : α}
    (h : operation fs = .ok a fs') (f : α → β) : (do return f (← operation) : Host β) fs = .ok (f a) fs' := by
  simp only [bind, EStateM.bind, h]
  rfl

namespace Mapping

variable {α : Type} {p : Mapping} {fs : FileSystem}

theorem read_eq_ok {operation : Read p.len α} {a : α} (h : operation (fs.image p.file p.len) = .ok a) :
    p.read operation fs = .ok a fs := by
  rw [read, h]

theorem write_eq_ok {operation : Write p.len α} {a : α} {m : Memory p.len}
    (h : operation (fs.image p.file p.len) = .ok a m) :
    p.write operation fs = .ok a (fs.setImage p.file m) := by
  rw [write, h]

end Mapping

theorem Blocks.Mirrors.set_value {n : Nat} {b : Blocks n} {m : Memory n} {r : Register} {e : Entry}
    (mirrors : b.Mirrors m r) (he : e ∈ r) : r.set e.slot e.counter.value = r := by
  refine (List.map_congr_left fun d hd => ?_).trans (List.map_id r)
  split_ifs with same
  · rw [mirrors.eq_of_slot hd he same]
    rfl
  · rfl

namespace Writer

def memory (w : Writer) (fs : FileSystem) : Memory w.mapping.len := fs.image w.mapping.file w.mapping.len

def withValue (w : Writer) (fs : FileSystem) (slot : Nat) (value : Int64) : FileSystem :=
  fs.setImage w.mapping.file (w.blocks.withValue (w.memory fs) slot value)

def handle (w : Writer) (id : UInt64) (label : String) (slot : Nat) (closed : Bool) : Handle :=
  ⟨w.mapping, w.blocks, id, label, Blocks.valueOffset slot, closed⟩

def reader (w : Writer) (number : Nat) : Reader where
  mapping := { w.mapping with number := number, writable := false }
  blocks := w.blocks

/-- The file of a writer is its region, with the counters of the register. -/
structure Holds (w : Writer) (fs : FileSystem) (r : Register) : Prop where
  whole : w.blocks.region = w.mapping.window
  there : w.mapping.file < fs.contents.size
  size : (fs.bytes w.mapping.file).size = w.mapping.len
  numbered : w.mapping.number < fs.mappings
  inscribed : w.blocks.Inscribed (w.memory fs)
  orderly : w.blocks.Orderly (w.memory fs)
  mirrors : w.blocks.Mirrors (w.memory fs) r

theorem toNat_next {id : UInt64} (few : id.toNat + 1 < 2 ^ 56) : (id + 1).toNat = id.toNat + 1 := by
  rw [UInt64.toNat_add]
  exact Nat.mod_eq_of_lt (by simp only [UInt64.toNat_one]; omega)

namespace Holds

variable {w : Writer} {fs fs' : FileSystem} {r r' : Register} (h : w.Holds fs r)

include h

theorem aligned : w.blocks.Aligned := by
  unfold Blocks.Aligned
  rw [h.whole]
  rfl

theorem renumbered (id : UInt64) : ({ w with lastId := id } : Writer).Holds fs r :=
  ⟨h.whole, h.there, h.size, h.numbered, h.inscribed, h.orderly, h.mirrors⟩

theorem keeps {kept : Nat → Prop} (keeps : fs.Keeps kept fs') (safe : kept w.mapping.file) :
    w.Holds fs' r := by
  have bytes := keeps.bytes_eq w.mapping.file h.there safe
  have memory : w.memory fs' = w.memory fs := by
    rw [Writer.memory, Writer.memory, FileSystem.image, FileSystem.image, bytes]
  exact ⟨h.whole, Nat.lt_of_lt_of_le h.there keeps.files, bytes ▸ h.size,
    Nat.lt_of_lt_of_le h.numbered keeps.mappings, memory ▸ h.inscribed, memory ▸ h.orderly,
    memory ▸ h.mirrors⟩

theorem stored {m : Memory w.mapping.len}
    (differs : (w.memory fs).DiffersWithin m w.blocks.metadata.base w.mapping.len)
    (orderly : w.blocks.Orderly m) (mirrors : w.blocks.Mirrors m r') :
    w.Holds (fs.setImage w.mapping.file m) r' := by
  have memory : w.memory (fs.setImage w.mapping.file m) = m := FileSystem.image_setImage h.size m h.there
  refine ⟨h.whole, ?_, FileSystem.size_setImage h.size m h.there, ?_, ?_, ?_, ?_⟩
  · rw [FileSystem.setImage_eq h.size, FileSystem.size_setBytes]
    exact h.there
  · rw [FileSystem.setImage_eq h.size]
    exact h.numbered
  · rw [memory]
    exact h.inscribed.of_differsWithin differs
  · rwa [memory]
  · rwa [memory]

/-- The next id is taken in any case; a slot is taken if there is one left. -/
theorem add (label : String) (initial : Int64) (few : w.lastId.toNat + 1 < 2 ^ 56)
    (used : ∀ e ∈ r, e.id.toNat ≤ w.lastId.toNat) :
    ∃ result fs', w.add label initial fs = .ok ({ w with lastId := w.lastId + 1 }, result) fs' ∧
      fs.Keeps (· ≠ w.mapping.file) fs' ∧
      ((result = .error (.capacityExceeded w.slots) ∧ w.Holds fs' r) ∨
        ∃ slot, result = .ok (w.handle (w.lastId + 1) (keptLabel label) slot false) ∧
          w.Holds fs' (r.add ⟨slot, w.lastId + 1, keptLabel label, initial⟩)) := by
  have next := toNat_next few
  have valid : ¬ (w.lastId + 1 = 0 ∨ largestId < w.lastId + 1) := by
    have zero : (0 : UInt64).toNat = 0 := rfl
    have largest : largestId.toNat = 2 ^ 56 - 1 := rfl
    rw [← UInt64.toNat_inj, UInt64.lt_iff_toNat_lt]
    omega
  have absent : ∀ e ∈ r, e.id ≠ w.lastId + 1 := fun e he same => by
    have := used e he
    rw [same] at this
    omega
  by_cases room : r.length < w.blocks.partition.slots
  · obtain ⟨m, run, orderly, mirrors⟩ :=
      Blocks.allocate_vacant h.aligned h.orderly h.mirrors label initial room valid absent
    refine ⟨_, _, ?_, FileSystem.keeps_setImage h.size m, Or.inr ⟨r.vacant, rfl,
      h.stored (Blocks.allocate_differs h.aligned valid run) orderly mirrors⟩⟩
    simp only [Writer.add, bind, EStateM.bind, Mapping.write_eq_ok run]
    rfl
  · have run := Blocks.allocate_full h.aligned h.orderly h.mirrors label initial (Nat.le_of_not_lt room) valid
    refine ⟨_, _, ?_, FileSystem.keeps_setImage h.size _, Or.inl ⟨rfl, h.stored
      (Blocks.allocate_differs h.aligned valid run) h.orderly h.mirrors⟩⟩
    simp only [Writer.add, bind, EStateM.bind, Mapping.write_eq_ok run]
    rfl

theorem free_eq {e : Entry} (he : e ∈ r) : ∃ fs',
    w.mapping.write (w.blocks.free e.id) fs = .ok true fs' ∧ fs.Keeps (· ≠ w.mapping.file) fs' ∧
      w.Holds fs' (r.drop e.id) := by
  have hk := h.mirrors.lt he
  have run := Blocks.free_mem h.aligned h.mirrors h.orderly he
  exact ⟨_, Mapping.write_eq_ok run, FileSystem.keeps_setImage h.size _,
    h.stored (Blocks.withWord_differs hk _) (h.orderly.released hk (h.mirrors.live he))
      (h.mirrors.released h.orderly he)⟩

section Values

variable {e : Entry} (he : e ∈ r)

include he

theorem value_eq : (w.blocks.slotHeld (w.memory fs) e.slot).value = e.counter.value := by
  rw [← h.mirrors.reading he]
  rfl

theorem withValue (value : Int64) : w.Holds (w.withValue fs e.slot value) (r.set e.slot value) :=
  have hk := h.mirrors.lt he
  h.stored (Blocks.withValue_differs hk value) (h.orderly.withValue hk) (h.mirrors.withValue hk)

theorem load_eq {order : Order} (admitted : order.loadClash = none) :
    w.mapping.read (w.blocks.values.load (Blocks.valueOffset e.slot) order) fs = .ok e.counter.value fs := by
  have run := Blocks.loadValue_eq h.aligned (h.mirrors.lt he) admitted (w.memory fs)
  rw [h.value_eq he] at run
  exact Mapping.read_eq_ok run

theorem store_eq (value : Int64) {order : Order} (admitted : order.storeClash = none) :
    w.mapping.write (w.blocks.values.store (Blocks.valueOffset e.slot) value order) fs =
      .ok () (w.withValue fs e.slot value) :=
  Mapping.write_eq_ok (Blocks.storeValue_eq h.aligned (h.mirrors.lt he) (w.memory fs) value admitted)

theorem update_eq (next : Int64 → Int64) :
    w.mapping.write (w.blocks.values.update (Blocks.valueOffset e.slot) next) fs =
      .ok e.counter.value (w.withValue fs e.slot (next e.counter.value)) := by
  have run := Blocks.updateValue_eq h.aligned (h.mirrors.lt he) next (w.memory fs)
  rw [h.value_eq he] at run
  exact Mapping.write_eq_ok run

theorem exchange_eq (current new : Int64) :
    w.mapping.write (w.blocks.values.compareExchange (Blocks.valueOffset e.slot) current new) fs =
      if e.counter.value = current then .ok (.swapped e.counter.value) (w.withValue fs e.slot new)
      else .ok (.found e.counter.value) (fs.setImage w.mapping.file (w.memory fs)) := by
  have run := Blocks.exchangeValue_eq h.aligned (h.mirrors.lt he) current new (w.memory fs)
  rw [h.value_eq he] at run
  split_ifs at run ⊢
  · exact Mapping.write_eq_ok run
  · exact Mapping.write_eq_ok run

/-- Using the handle of a counter gives back what its value alone decides, and leaves the other counters
as they were. -/
theorem through (id : UInt64) (label : String) (closed : Bool) (use : Use) :
    ∃ fs', use.through (w.handle id label e.slot closed) fs = .ok (use.alone e.counter.value).1 fs' ∧
      fs.Keeps (· ≠ w.mapping.file) fs' ∧
      w.Holds fs' (r.set e.slot (use.alone e.counter.value).2) := by
  have same : r.set e.slot e.counter.value = r := h.mirrors.set_value he
  have keeps : ∀ value, fs.Keeps (· ≠ w.mapping.file) (w.withValue fs e.slot value) := fun value =>
    FileSystem.keeps_setImage h.size _
  cases use with
  | get => exact ⟨fs, Host.return_eq_ok (h.load_eq he rfl) Gain.value, .refl fs, same.symm ▸ h⟩
  | getRelaxed => exact ⟨fs, Host.return_eq_ok (h.load_eq he rfl) Gain.value, .refl fs, same.symm ▸ h⟩
  | set value =>
    exact ⟨_, Host.return_eq_ok (h.store_eq he value rfl) fun _ => Gain.nothing, keeps value,
      h.withValue he value⟩
  | setRelaxed value =>
    exact ⟨_, Host.return_eq_ok (h.store_eq he value rfl) fun _ => Gain.nothing, keeps value,
      h.withValue he value⟩
  | increment delta =>
    exact ⟨_, Host.return_eq_ok (Host.return_eq_ok (h.update_eq he (· + delta)) (· + delta)) Gain.value,
      keeps _, h.withValue he _⟩
  | fetchAdd delta =>
    exact ⟨_, Host.return_eq_ok (h.update_eq he (· + delta)) Gain.value, keeps _, h.withValue he _⟩
  | swap value =>
    exact ⟨_, Host.return_eq_ok (h.update_eq he fun _ => value) Gain.value, keeps _, h.withValue he _⟩
  | compareExchange current new =>
    have run := h.exchange_eq he current new
    simp only [Use.alone]
    split_ifs at run ⊢ with expected
    · exact ⟨_, Host.return_eq_ok run Gain.exchange, keeps new, h.withValue he new⟩
    · refine ⟨_, Host.return_eq_ok run Gain.exchange, FileSystem.keeps_setImage h.size _, ?_⟩
      rw [same]
      exact h.stored (.refl _ _ _) h.orderly h.mirrors

end Values

theorem opened : (do Reader.ofMapping (← Mapping.ofOpen w.mapping.file false) : Host Reader) fs =
    .ok (w.reader fs.mappings) { fs with mappings := fs.mappings + 1 } := by
  have accepted := h.inscribed.accept_eq h.aligned
  rw [h.whole] at accepted
  have mapped : Mapping.ofOpen w.mapping.file false fs =
      .ok (w.reader fs.mappings).mapping { fs with mappings := fs.mappings + 1 } := by
    show EStateM.Result.ok (⟨fs.mappings, _, (fs.bytes w.mapping.file).size, false⟩ : Mapping) _ =
      .ok ⟨fs.mappings, _, w.mapping.len, false⟩ _
    rw [h.size]
  have read : (w.reader fs.mappings).mapping.read
      (Blocks.accept (w.reader fs.mappings).mapping.window) { fs with mappings := fs.mappings + 1 } =
      .ok (.ok w.blocks) { fs with mappings := fs.mappings + 1 } := Mapping.read_eq_ok accepted
  simp only [bind, EStateM.bind, mapped, Reader.ofMapping, read]
  rfl

theorem liveCounters_eq (number : Nat) : (w.reader number).liveCounters fs = .ok r.listing fs :=
  Mapping.read_eq_ok (Blocks.liveCounters_eq h.mirrors h.aligned h.orderly)

end Holds

end Writer

end SharedCounters
