import SharedCounters.Proofs.Footprints
import SharedCounters.Proofs.Sessions

/-! New regions carry nothing over. Filling in a region writes the fields of its header, the count and the
fields of the records, and no other byte; so what a file of zeros becomes is decided by the arguments, but
for the process and the time, whatever the file held before it was emptied. -/

namespace SharedCounters

namespace Blocks

variable {n : Nat} (b : Blocks n)

/-- The bytes that are written when a region is filled in. Neither padding nor slots are. -/
def Inked (statics : Statics) (i : Nat) : Prop :=
  Lies i b.region.base 32 ∨ Lies i b.statics.base 4 ∨
    ∃ record ∈ StaticRecord.ofPairs staticsAt.records statics.pairs,
      Lies i (b.statics.base + record.offset) (8 + record.label.length + record.value.length)

variable {b} {m m' : Memory n} {offset : Nat} {pairs : List (String × String)} {place : Nat → Prop}

section Bytes

theorem byte_withRecords (fits : offset + Statics.recordsLen pairs ≤ b.statics.len) {i : Nat}
    (outside : ∀ record ∈ StaticRecord.ofPairs offset pairs,
      ¬ Lies i (b.statics.base + record.offset) (8 + record.label.length + record.value.length)) :
    (b.withRecords m offset pairs).byte i = m.byte i := by
  induction pairs generalizing m offset with
  | nil => rfl
  | cons p rest ih =>
    obtain ⟨first, later⟩ := List.forall_mem_cons.1 outside
    rw [Statics.recordsLen_cons] at fits
    simp only [Lies, Text.length_utf8] at first
    have same := (withRecord_differs (m := m) (show offset + Statics.pairLen p ≤ b.statics.len by omega)).byte_eq
      i (by omega)
    exact (ih (by omega) later).trans same

variable {statics : Statics} (room : b.room statics = .ok ())

include room

theorem byte_published (pid start : UInt64) {i : Nat} (outside : ¬ b.Inked statics i) :
    (b.published m pid start statics).byte i = m.byte i := by
  have base := b.statics_base
  have len := b.statics_len
  have stop := b.statics_end
  have fits := records_fit room
  simp only [Inked, Lies, not_or, not_exists, not_and] at outside
  obtain ⟨header, count, records⟩ := outside
  have countWord : (Word.bytes (UInt32.ofNat statics.pairs.length)).length = 4 := Word.length_bytes _
  have versionWord : (Word.bytes formatVersion).length = 4 := Word.length_bytes _
  have announced : (b.withStatics (b.withHeader m pid start) statics).DiffersWithin
      (b.published m pid start statics) b.region.base (b.region.base + 32) :=
    Memory.differsWithin_write _ (by simp only [headerAt]; omega) (Nat.le_add_right _ _)
      (by simp only [headerAt]; omega)
  have counted : (b.withRecords (b.withHeader m pid start) staticsAt.records statics.pairs).DiffersWithin
      (b.withStatics (b.withHeader m pid start) statics) b.statics.base (b.statics.base + 4) :=
    Memory.differsWithin_write _ (by simp only [staticsAt] at fits ⊢; omega) (Nat.le_add_right _ _)
      (by simp only [staticsAt]; omega)
  calc (b.published m pid start statics).byte i
    _ = (b.withStatics (b.withHeader m pid start) statics).byte i := announced.byte_eq i (by omega)
    _ = (b.withRecords (b.withHeader m pid start) staticsAt.records statics.pairs).byte i :=
      counted.byte_eq i (by omega)
    _ = (b.withHeader m pid start).byte i := byte_withRecords fits fun record mem lies =>
      records record mem lies.1 lies.2
    _ = m.byte i := (withHeader_within pid start).byte_eq i (by omega)

omit room in
theorem withRecords_agrees (agrees : m.AgreesOn m' place)
    (fits : offset + Statics.recordsLen pairs ≤ b.statics.len) :
    (b.withRecords m offset pairs).AgreesOn (b.withRecords m' offset pairs) place := by
  induction pairs generalizing m m' offset with
  | nil => exact agrees
  | cons p rest ih =>
    have whole := Statics.le_pairLen p
    have stop := b.statics_end
    have label := Text.length_utf8 p.1
    have value := Text.length_utf8 p.2
    have labelWord : (Word.bytes (UInt32.ofNat p.1.utf8ByteSize)).length = 4 := Word.length_bytes _
    have valueWord : (Word.bytes (UInt32.ofNat p.2.utf8ByteSize)).length = 4 := Word.length_bytes _
    rw [Statics.recordsLen_cons] at fits
    refine ih ?_ (by omega)
    refine (((agrees.write ?_).write ?_).write ?_).write ?_
    all_goals simp only [staticsAt]; omega

/-- Only the process and the time tell two regions apart that were filled in with the same statics. -/
theorem published_agrees (pid start pid' start' : UInt64) :
    (b.published m pid start statics).AgreesOn (b.published m pid' start' statics)
      fun i => ¬ Lies i (b.region.base + 16) 16 := by
  have base := b.statics_base
  have header := b.header_len_le
  have stop := b.statics_end
  have whole := b.region.fits
  have fits := records_fit room
  have countWord : (Word.bytes (UInt32.ofNat statics.pairs.length)).length = 4 := Word.length_bytes _
  have versionWord : (Word.bytes formatVersion).length = 4 := Word.length_bytes _
  set sized := ((m.write (b.region.base + headerAt.staticsLen)
    (Word.bytes (UInt32.ofNat b.partition.staticsLen))).write (b.region.base + headerAt.metadataLen)
    (Word.bytes (UInt32.ofNat b.partition.metadataLen))).write (b.region.base + headerAt.valuesLen)
    (Word.bytes (UInt32.ofNat b.partition.valuesLen))
  have stamped : ∀ pid start, sized.DiffersWithin (b.withHeader m pid start) (b.region.base + 16)
      (b.region.base + 16 + 16) := fun pid start => by
    have pidWord : (Word.bytes pid).length = 8 := Word.length_bytes _
    have startWord : (Word.bytes start).length = 8 := Word.length_bytes _
    refine (sized.differsWithin_write ?_ ?_ ?_).trans (Memory.differsWithin_write _ ?_ ?_ ?_)
    all_goals simp only [headerAt]; omega
  have headers : (b.withHeader m pid start).AgreesOn (b.withHeader m pid' start')
      fun i => ¬ Lies i (b.region.base + 16) 16 :=
    (stamped pid start).agreesOn (stamped pid' start') fun i outside => by
      simp only [Lies] at outside
      omega
  refine ((withRecords_agrees headers fits).write ?_).write ?_
  · simp only [staticsAt] at fits ⊢
    omega
  · simp only [headerAt]
    omega

end Bytes

end Blocks

namespace Reader

variable {view : Reader} {fs : FileSystem} {id : UInt64}

theorem valueOf_of_none (none : view.blocks.valueOf id (fs.image view.mapping.file view.mapping.len) = .ok none) :
    view.valueOf id fs = .error (.notFound id) fs := by
  have read := Mapping.read_eq_ok none
  simp only [valueOf, bind, EStateM.bind, read]
  rfl

theorem labelOf_of_none (none : view.blocks.labelOf id (fs.image view.mapping.file view.mapping.len) = .ok none) :
    view.labelOf id fs = .error (.notFound id) fs := by
  have read := Mapping.read_eq_ok none
  simp only [labelOf, bind, EStateM.bind, read]
  rfl

/-- There is nothing to be read but the statics. -/
structure ShowsOnly (view : Reader) (statics : Statics) (fs : FileSystem) : Prop where
  liveCounters : view.liveCounters fs = .ok [] fs
  valueOf : ∀ id, view.valueOf id fs = .error (.notFound id) fs
  labelOf : ∀ id, view.labelOf id fs = .error (.notFound id) fs
  staticPairs : view.staticPairs fs = .ok statics.pairs fs
  staticFor : ∀ label, view.staticFor label fs = .ok (statics.get? label) fs

end Reader

namespace Writer

variable {w w' : Writer} {statics : Statics} {slots : Nat} {settings : Settings} {origin origin' : Origin}
  {fs fs' : FileSystem}

/-- The file of a writer is as long as its region, the slots were never used, and nothing is in it but what
was written when it was filled in. -/
structure Clean (w : Writer) (statics : Statics) (fs : FileSystem) : Prop where
  size : (fs.bytes w.mapping.file).size = w.mapping.len
  notUsed : ∀ slot, slot < w.slots → SlotWord.status? (w.blocks.slotWord (w.memory fs) slot) = some .notUsed
  zeros : ∀ i, ¬ w.blocks.Inked statics i → (w.memory fs).byte i = 0
  views : ∃ view fs', (do Reader.ofMapping (← Mapping.ofOpen w.mapping.file false) : Host Reader) fs =
    .ok view fs' ∧ view.ShowsOnly statics fs'

namespace Pristine

variable (pristine : w.Pristine statics slots settings origin fs)

include pristine

theorem room : w.blocks.room statics = .ok () := Blocks.room_of_ofStatics pristine.divided

theorem memory_eq :
    w.memory fs = w.blocks.published (Memory.zero _) origin.pid origin.start statics := by
  rw [memory, FileSystem.image, pristine.bytes_eq, Memory.ofBytes_bytes]

theorem clean (holds : w.Holds fs []) : w.Clean statics fs where
  size := holds.size
  notUsed slot h := by
    rw [pristine.memory_eq, Blocks.slotWord_of_zeros (fun i above _ => ?_) h]
    · rfl
    · rw [(Blocks.published_differs pristine.room _ _).byte_eq i (Or.inr above), Memory.byte_zero]
  zeros i outside := by
    rw [pristine.memory_eq, Blocks.byte_published pristine.room _ _ outside, Memory.byte_zero]
  views := by
    have aligned := holds.aligned
    have shows := Blocks.shows_register aligned holds.orderly holds.mirrors
    have records := (Blocks.records_published (m := Memory.zero _) pristine.room origin.pid origin.start).2
    rw [← pristine.memory_eq] at records
    have pairs : w.blocks.staticPairs (w.memory fs) = .ok statics.pairs := by
      rw [Blocks.staticPairs_eq aligned, records, StaticRecord.map_pair_ofPairs]
    have pairFor : ∀ label, w.blocks.staticFor label (w.memory fs) = .ok (statics.get? label) := fun label => by
      rw [Blocks.staticFor_eq aligned, records, StaticRecord.find?_ofPairs]
      rfl
    exact ⟨_, _, holds.opened, Mapping.read_eq_ok shows.listing,
      fun id => Reader.valueOf_of_none (shows.valueOf id), fun id => Reader.labelOf_of_none (shows.labelOf id),
      Mapping.read_eq_ok pairs, fun label => Mapping.read_eq_ok (pairFor label)⟩

theorem byte_eq (whole : w.blocks.region = w.mapping.window)
    (pristine' : w'.Pristine statics slots settings origin' fs') (whole' : w'.blocks.region = w'.mapping.window) :
    w'.mapping.len = w.mapping.len ∧
      ∀ i, i < 16 ∨ 32 ≤ i → (w.memory fs).byte i = (w'.memory fs').byte i := by
  have room := pristine.room
  have divided : w'.blocks.partition = w.blocks.partition :=
    Except.ok.inj (pristine'.divided.symm.trans pristine.divided)
  have len : w'.mapping.len = w.mapping.len := by
    rw [pristine.len_eq, pristine'.len_eq, divided]
  refine ⟨len, fun i outside => ?_⟩
  rw [pristine.memory_eq, pristine'.memory_eq]
  obtain ⟨⟨number, file, n, writable⟩, ⟨region, partition, fits⟩, path, lastId⟩ := w
  obtain ⟨⟨number', file', n', writable'⟩, ⟨region', partition', fits'⟩, path', lastId'⟩ := w'
  obtain rfl : n' = n := len
  obtain rfl : partition' = partition := divided
  obtain rfl : region = Window.whole n' := whole
  obtain rfl : region' = Window.whole n' := whole'
  refine Blocks.published_agrees room _ _ _ _ i ?_
  show ¬ (0 + 16 ≤ i ∧ i < 0 + 16 + 16)
  omega

end Pristine

end Writer

def Place.There (fs : FileSystem) : Place → Prop
  | .file number => number < fs.contents.size
  | _ => True

def Place.LeadsTo (settings : Settings) (fs : FileSystem) (file : Nat) : Place → Prop
  | .path p => fs.Leads p file
  | .name p => fs.Leads (settings.locate p) file
  | .file number => file = number

theorem Place.make_ensures {place : Place} {fs : FileSystem} (there : place.There fs) (statics : Statics)
    (slots : Nat) (settings : Settings) (origin : Origin) :
    Ensures (place.make statics slots settings origin) fs (fun w fs' => w.Holds fs' [] ∧
      w.Pristine statics slots settings origin fs' ∧ place.LeadsTo settings fs' w.mapping.file)
      fun _ => True := by
  cases place with
  | path p =>
    exact (Writer.make_ensures statics slots settings origin p fun _ => True).mono
      (fun w fs' ⟨made, rest⟩ => ⟨made.holds, rest⟩) fun _ _ => trivial
  | name p =>
    exact (Writer.makeByName_ensures statics slots settings origin p fun _ => True).mono
      (fun w fs' ⟨made, rest⟩ => ⟨made.holds, rest⟩) fun _ _ => trivial
  | file number =>
    exact (Writer.remake_ensures statics slots settings origin there).mono
      (fun w fs' ⟨made, rest⟩ => ⟨made.holds, rest⟩) fun _ _ => trivial

/-- However two stores are made from the same arguments, in new files or over files that held anything, the
files are as long as the arguments ask for and hold the same bytes, but for the process and the time; and
a reader finds nothing in them but the statics. -/
theorem Place.carries_nothing_over {statics : Statics} {slots : Nat} {settings : Settings}
    {place place' : Place} {origin origin' : Origin} {before after before' after' : FileSystem}
    {w w' : Writer} (there : place.There before) (there' : place'.There before')
    (run : place.make statics slots settings origin before = .ok w after)
    (run' : place'.make statics slots settings origin' before' = .ok w' after') :
    (place.LeadsTo settings after w.mapping.file ∧ w.Clean statics after) ∧
    (place'.LeadsTo settings after' w'.mapping.file ∧ w'.Clean statics after') ∧
    (∃ partition, Partition.ofStatics statics slots = .ok partition ∧
      w.mapping.len = (partition.mappedLen settings.pageSize).toNat ∧ w'.mapping.len = w.mapping.len) ∧
    ∀ i, i < 16 ∨ 32 ≤ i → (w.memory after).byte i = (w'.memory after').byte i := by
  have made := Place.make_ensures there statics slots settings origin
  have made' := Place.make_ensures there' statics slots settings origin'
  rw [Ensures, run] at made
  rw [Ensures, run'] at made'
  obtain ⟨holds, pristine, leads⟩ := made
  obtain ⟨holds', pristine', leads'⟩ := made'
  obtain ⟨len, same⟩ := pristine.byte_eq holds.whole pristine' holds'.whole
  exact ⟨⟨leads, pristine.clean holds⟩, ⟨leads', pristine'.clean holds'⟩,
    ⟨_, pristine.divided, pristine.len_eq, len⟩, same⟩

def littered : FileSystem :=
  ((FileSystem.ofDirectories [] []).addFile [Text.utf8 "b"]).2.setBytes 0 ⟨Array.replicate 1000 255⟩

def keptPair : Statics := .ofList [("k", "v")]

theorem Host.exists_of_result_isOk {α : Type} {operation : Host α} {fs : FileSystem}
    (h : (operation.result fs).isOk = true) : ∃ a fs', operation fs = .ok a fs' := by
  cases run : operation fs with
  | ok a fs' => exact ⟨a, fs', rfl⟩
  | error failure fs' =>
    rw [result, run] at h
    cases h

theorem Place.carries_nothing_over_from_litter :
    Place.There littered (.file 0) ∧ Place.There (.ofDirectories [] []) (.path (.ofString "a")) ∧
    ∃ w after w' after',
      Place.make (.file 0) keptPair 1 ⟨⟨[]⟩, 128⟩ ⟨7, 9⟩ littered = .ok w after ∧
      Place.make (.path (.ofString "a")) keptPair 1 ⟨⟨[]⟩, 128⟩ ⟨1, 2⟩ (.ofDirectories [] []) = .ok w' after' ∧
      w.Clean keptPair after ∧ w'.Clean keptPair after' ∧
      ∀ i, i < 16 ∨ 32 ≤ i → (w.memory after).byte i = (w'.memory after').byte i := by
  have there : Place.There littered (.file 0) := by
    show 0 < littered.contents.size
    decide
  have there' : Place.There (.ofDirectories [] []) (.path (.ofString "a")) := trivial
  have ends : (Host.result (Place.make (.file 0) keptPair 1 ⟨⟨[]⟩, 128⟩ ⟨7, 9⟩) littered).isOk = true := by
    decide +kernel
  have ends' : (Host.result (Place.make (.path (.ofString "a")) keptPair 1 ⟨⟨[]⟩, 128⟩ ⟨1, 2⟩)
      (.ofDirectories [] [])).isOk = true := by
    decide +kernel
  obtain ⟨w, after, run⟩ := Host.exists_of_result_isOk ends
  obtain ⟨w', after', run'⟩ := Host.exists_of_result_isOk ends'
  obtain ⟨⟨-, clean⟩, ⟨-, clean'⟩, -, same⟩ := Place.carries_nothing_over there there' run run'
  exact ⟨there, there', w, after, w', after', run, run', clean, clean', same⟩

end SharedCounters
