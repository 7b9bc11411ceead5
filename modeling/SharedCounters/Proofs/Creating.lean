import SharedCounters.Proofs.Names
import SharedCounters.Proofs.Outcomes
import SharedCounters.Proofs.Pages
import SharedCounters.Proofs.Stores

/-! Making writers. Whichever way a creation ends, the files that were there stay as they were, except one
that is to be replaced; and one that succeeds leaves a region without counters in a file that is new or
was given away for it. -/

namespace SharedCounters

namespace FileSystem

variable {fs fs' : FileSystem}

/-- Nothing but names changed. -/
structure SameFiles (fs fs' : FileSystem) : Prop where
  contents : fs'.contents = fs.contents
  mappings : fs'.mappings = fs.mappings

theorem SameFiles.refl (fs : FileSystem) : fs.SameFiles fs := ⟨rfl, rfl⟩

theorem SameFiles.trans {fs'' : FileSystem} (h : fs.SameFiles fs') (h' : fs'.SameFiles fs'') :
    fs.SameFiles fs'' := ⟨h'.contents.trans h.contents, h'.mappings.trans h.mappings⟩

theorem SameFiles.keeps {kept : Nat → Prop} (h : fs.SameFiles fs') : fs.Keeps kept fs' :=
  .of_contents h.contents (Nat.le_of_eq h.mappings.symm)

theorem makeDirectory_same {p : Path} (h : fs.makeDirectory p = .ok fs') : fs.SameFiles fs' := by
  simp only [makeDirectory, bind, Except.bind] at h
  split at h
  · cases h
  · split at h
    · cases h
    · split_ifs at h
      cases h
      exact ⟨rfl, rfl⟩

theorem removeFile_same {p : Path} (h : fs.removeFile p = .ok fs') : fs.SameFiles fs' := by
  simp only [removeFile, bind, Except.bind] at h
  split at h
  · cases h
  · split at h
    · cases h
    · split at h
      · cases h
      · split at h
        · cases h
        · cases h
        · split at h
          · cases h
          · split at h
            · cases h
            · cases h
              exact ⟨rfl, rfl⟩

theorem addFile_keeps (kept : Nat → Prop) (spot : Location) : fs.Keeps kept (fs.addFile spot).2 where
  files := by simp [addFile]
  mappings := Nat.le_refl _
  bytes_eq file hf _ := by
    simp [addFile, bytes, Array.getElem?_push, Nat.ne_of_lt hf]

theorem addFile_there (spot : Location) : fs.contents.size < (fs.addFile spot).2.contents.size := by
  simp [addFile]

theorem bytes_addFile (spot : Location) : (fs.addFile spot).2.bytes fs.contents.size = ByteArray.empty := by
  simp [addFile, bytes]

theorem makeDirectoriesWithin_same (depth : Nat) (p : Path) (fs : FileSystem) :
    Ensures (makeDirectoriesWithin depth p) fs (fun _ => fs.SameFiles) fs.SameFiles := by
  induction depth generalizing p fs with
  | zero => exact .refl fs
  | succ depth ih =>
    have settle : ∀ cause fs', fs.SameFiles fs' → Ensures
        (do if (← get).isDirectory p then return () else throw cause : EStateM BadFile FileSystem Unit) fs'
        (fun _ => fs.SameFiles) fs.SameFiles := fun cause fs' same => by
      refine ensures_get_bind ?_
      split_ifs
      · exact same
      · exact ensures_throw same
    rw [makeDirectoriesWithin]
    split_ifs
    · exact .refl fs
    · refine ensures_get_bind ?_
      split
      · next fs' made => exact makeDirectory_same made
      · next cause _ =>
        split_ifs
        · split
          · exact .refl _
          · next parent _ =>
            refine (ih parent _).bind _ fun _ between outer => ?_
            refine ensures_get_bind ?_
            split
            · next fs' made => exact outer.trans (makeDirectory_same made)
            · next cause _ => exact settle cause _ outer
        · exact settle cause _ (.refl _)

structure ConfinedTo (file : Nat) (fs fs' : FileSystem) : Prop where
  names : fs.SameNames fs'
  keeps : fs.Keeps (· ≠ file) fs'

theorem ConfinedTo.refl (file : Nat) (fs : FileSystem) : fs.ConfinedTo file fs := ⟨.refl fs, .refl fs⟩

theorem ConfinedTo.trans {file : Nat} {fs'' : FileSystem} (h : fs.ConfinedTo file fs')
    (h' : fs'.ConfinedTo file fs'') : fs.ConfinedTo file fs'' :=
  ⟨h.names.trans h'.names, h.keeps.trans h'.keeps⟩

theorem confinedTo_setLength (fs : FileSystem) (file len : Nat) : fs.ConfinedTo file (fs.setLength file len) :=
  ⟨⟨rfl, rfl, rfl⟩, keeps_setBytes ..⟩

theorem confinedTo_setImage {file len : Nat} (size : (fs.bytes file).size = len) (m : Memory len) :
    fs.ConfinedTo file (fs.setImage file m) where
  names := by
    rw [setImage_eq size]
    exact ⟨rfl, rfl, rfl⟩
  keeps := keeps_setImage size m

def Leads (fs : FileSystem) (p : Path) (file : Nat) : Prop := ∃ spot, fs.find p = .ok (spot, .file file)

theorem bytes_setLength {file : Nat} (there : file < fs.contents.size) (blank : (fs.bytes file).size = 0)
    (len : Nat) : (fs.setLength file len).bytes file = (Memory.zero len).bytes := by
  rw [setLength, bytes_setBytes_same there, Memory.ofBytes_of_isEmpty blank]

end FileSystem

theorem Host.makeDirectories_same (p : Path) (fs : FileSystem) {kept : Nat → Prop} :
    Ensures (Host.makeDirectories p) fs (fun _ => fs.SameFiles) (fs.Keeps kept) := by
  have made := FileSystem.makeDirectoriesWithin_same (p.bytes.length + 1) p fs
  simp only [Ensures, Host.makeDirectories, FileSystem.makeDirectories] at made ⊢
  cases run : FileSystem.makeDirectoriesWithin (p.bytes.length + 1) p fs with
  | ok _ fs' =>
    rw [run] at made
    exact made
  | error _ fs' =>
    rw [run] at made
    exact made.keeps

namespace Mapping

/-- A mapping of a file that holds nothing but zeros. -/
structure Blank (p : Mapping) (fs : FileSystem) : Prop where
  there : p.file < fs.contents.size
  size : (fs.bytes p.file).size = p.len
  numbered : p.number < fs.mappings
  zeros : fs.image p.file p.len = Memory.zero p.len

/-- A file of `len` zeros was mapped, and nothing else changed. -/
structure Covers (p : Mapping) (file len : Nat) (fs fs' : FileSystem) : Prop where
  blank : p.Blank fs'
  file_eq : p.file = file
  len_eq : p.len = len
  new : fs.mappings ≤ p.number
  confined : fs.ConfinedTo file fs'

variable {fs : FileSystem}

theorem Covers.after {p : Mapping} {file len : Nat} {between fs' : FileSystem}
    (covers : p.Covers file len between fs') (h : fs.ConfinedTo file between) : p.Covers file len fs fs' :=
  { covers with
    new := Nat.le_trans h.keeps.mappings covers.new
    confined := h.trans covers.confined }

theorem resize_ensures {failed : FileSystem → Prop} (file len : Nat)
    (refused : fs.refuses (.length file len) ≠ none → failed fs) :
    Ensures (resize file len) fs (fun _ fs' => fs' = fs.setLength file len) failed := by
  refine (ensures_demand (fun _ fs' => fs' = fs) rfl refused).bind _ ?_
  rintro _ fs rfl
  exact ensures_modify _ rfl

theorem ofWritable_ensures {failed : FileSystem → Prop} {file len : Nat} (there : file < fs.contents.size)
    (zeros : fs.bytes file = (Memory.zero len).bytes) (pageSize : UInt64)
    (refused : fs.refuses (.mapping file) ≠ none → failed fs) :
    Ensures (ofWritable file pageSize) fs (fun p fs' => p.Covers file len fs fs') failed := by
  refine (ensures_demand (fun _ fs' => fs' = fs) rfl refused).bind _ ?_
  rintro _ fs rfl
  have size : (fs.bytes file).size = len := by rw [zeros, Memory.size_bytes]
  let grown : FileSystem := { fs with mappings := fs.mappings + 1 }
  let p : Mapping := ⟨fs.mappings, file, len, true⟩
  have mapped : ofOpen file true fs = .ok p grown := by
    show EStateM.Result.ok (⟨fs.mappings, file, (fs.bytes file).size, true⟩ : Mapping) grown = _
    rw [size]
  have touched : p.write (fun m => .ok () (m.touch pageSize.toNat)) grown =
      .ok () (grown.setImage file (Memory.zero len)) := by
    refine write_eq_ok ?_
    show EStateM.Result.ok () ((Memory.ofBytes len (fs.bytes file)).touch _) = _
    rw [zeros, Memory.ofBytes_bytes, Memory.touch_eq]
  have thereStill : file < grown.contents.size := there
  have sizeStill : (grown.bytes file).size = len := size
  have confined := FileSystem.confinedTo_setImage sizeStill (Memory.zero len)
  have run : (do
      let p ← ofOpen file true
      p.write fun m => .ok () (m.touch pageSize.toNat)
      return p : Host Mapping) fs = .ok p (grown.setImage file (Memory.zero len)) := by
    simp only [bind, EStateM.bind, mapped, touched]
    rfl
  have counted : fs.ConfinedTo file grown := ⟨⟨rfl, rfl, rfl⟩, .of_contents rfl (Nat.le_succ _)⟩
  rw [Ensures, run]
  refine ⟨⟨?_, ?_, ?_, ?_⟩, rfl, rfl, Nat.le_refl _, counted.trans confined⟩
  · exact Nat.lt_of_lt_of_le thereStill confined.keeps.files
  · exact FileSystem.size_setImage sizeStill _ thereStill
  · exact Nat.lt_of_lt_of_le (Nat.lt_succ_self _) confined.keeps.mappings
  · exact FileSystem.image_setImage sizeStill (Memory.zero len) thereStill

theorem lengthened_ensures {failed : FileSystem → Prop} {file : Nat} (there : file < fs.contents.size)
    (blank : (fs.bytes file).size = 0) (len : Nat) (pageSize : UInt64)
    (refused : ∀ fs', fs.ConfinedTo file fs' → (∃ d, fs.refuses d ≠ none) → failed fs') :
    Ensures (do
      resize file len
      ofWritable file pageSize) fs (fun p fs' => p.Covers file len fs fs') failed := by
  refine (resize_ensures file len fun h => refused fs (.refl file fs) ⟨_, h⟩).bind _ ?_
  rintro _ _ rfl
  have lengthened := fs.confinedTo_setLength file len
  have zeros := FileSystem.bytes_setLength there blank len
  refine (ofWritable_ensures (Nat.lt_of_lt_of_le there lengthened.keeps.files) zeros pageSize
    fun h => refused _ lengthened ⟨_, h⟩).mono ?_ fun _ h => h
  exact fun p fs' covers => covers.after lengthened

/-- Whichever way it ends, no file that was there is touched; and if it fails, all names are as before as
long as the new file can be removed. -/
theorem make_ensures (path : Path) (len : Nat) (pageSize : UInt64) (kept : Nat → Prop) :
    Ensures (make path len pageSize) fs (fun p fs' => p.Blank fs' ∧ p.len = len ∧
      fs.contents.size ≤ p.file ∧ fs.mappings ≤ p.number ∧ fs.Keeps kept fs' ∧ fs'.Leads path p.file)
      fun fs' => fs.Keeps kept fs' ∧ (fs.refuses (.removal path) = none → fs.SameNames fs') := by
  refine (ensures_change (fun file fs' => ∃ spot, fs.Vacant path spot ∧ (file, fs') = fs.addFile spot)
    (fun file fs' made => FileSystem.createFile_eq_ok made) ⟨.refl fs, fun _ => .refl fs⟩).bind _ ?_
  rintro file fs' ⟨spot, vacant, e⟩
  obtain rfl : file = fs.contents.size := congrArg Prod.fst e
  obtain rfl : fs' = (fs.addFile spot).2 := congrArg Prod.snd e
  have keeps := fs.addFile_keeps kept spot
  refine Ensures.recover ((fs.addFile spot).2.ConfinedTo fs.contents.size) ?_ fun failure left confined => ?_
  · rw [ofNew]
    split_ifs
    · exact Ensures.bind (fun _ _ => False) (ensures_throw (.refl _ _)) fun _ _ => False.elim
    · have blank := congrArg ByteArray.size (fs.bytes_addFile spot)
      refine (lengthened_ensures (fs.addFile_there spot) blank len pageSize
        fun _ confined _ => confined).mono ?_ fun _ h => h
      rintro p done ⟨blank, own, len, number, confined⟩
      refine ⟨blank, len, Nat.le_of_eq own.symm, Nat.le_trans keeps.mappings number,
        keeps.trans_new confined.keeps (Nat.le_refl _), spot, ?_⟩
      rw [confined.names.find_eq, own]
      exact vacant.find_added
  · -- the new file is removed again, which leaves its contents for nobody
    have kept := keeps.trans_new confined.keeps (Nat.le_refl _)
    refine (ensures_modify (fun _ fs' => fs.Keeps _ fs' ∧
      (fs.refuses (.removal path) = none → fs.SameNames fs')) ?_).bind _ fun _ left done => ensures_throw done
    cases removed : left.removeFile path with
    | ok done =>
      refine ⟨kept.trans (FileSystem.removeFile_same removed).keeps, fun willing => ?_⟩
      obtain ⟨done', removed', same⟩ := vacant.removeFile_added confined.names willing
      rw [removed] at removed'
      cases removed'
      exact same
    | error cause =>
      refine ⟨kept, fun willing => ?_⟩
      obtain ⟨done', removed', -⟩ := vacant.removeFile_added confined.names willing
      rw [removed] at removed'
      cases removed'

theorem remake_ensures {file : Nat} (there : file < fs.contents.size) (len : Nat) (pageSize : UInt64) :
    Ensures (remake file len pageSize) fs (fun p fs' => p.Covers file len fs fs')
      fun fs' => fs.ConfinedTo file fs' ∧ ((∀ d, fs.refuses d = none) → maxLen < len) := by
  rw [remake]
  split_ifs with long
  · exact Ensures.bind (fun _ _ => False) (ensures_throw ⟨.refl file fs, fun _ => long⟩) fun _ _ => False.elim
  · refine (resize_ensures file 0 fun refused =>
      ⟨.refl file fs, fun willing => absurd (willing _) refused⟩).bind _ ?_
    rintro _ _ rfl
    have emptied := fs.confinedTo_setLength file 0
    have blank : ((fs.setLength file 0).bytes file).size = 0 := by
      rw [FileSystem.setLength, FileSystem.bytes_setBytes_same there, Memory.size_bytes]
    refine (lengthened_ensures (Nat.lt_of_lt_of_le there emptied.keeps.files) blank len pageSize
      fun fs' confined ⟨d, refused⟩ => ⟨emptied.trans confined, fun willing => absurd (willing d) refused⟩).mono
        (fun p fs' covers => covers.after emptied) fun _ h => h

end Mapping

namespace Blocks

variable {n : Nat}

theorem split_eq {region : Window n} {p : Partition} (fits : p.extent ≤ region.len) :
    split region p = .ok ⟨region, p, fits⟩ := by
  let b : Blocks n := ⟨region, p, fits⟩
  have header : region.covers 0 headerAt.len = .ok () := if_pos b.header_le
  have statics : region.covers p.staticsStart p.staticsLen = .ok () := if_pos b.statics_le
  have metadata : region.covers p.metadataStart p.metadataLen = .ok () := if_pos b.metadata_le
  simp only [split, bind, Except.bind, header, statics, metadata, dif_pos fits]
  rfl

end Blocks

theorem Blocks.room_of_ofStatics {n : Nat} {b : Blocks n} {statics : Statics} {slots : Nat}
    (divided : Partition.ofStatics statics slots = .ok b.partition) : b.room statics = .ok () :=
  room_eq_ok_iff.2 ⟨_, (Partition.ofStatics_eq_ok_iff.1 divided).1, Nat.le_refl _⟩

theorem Mapping.extent_le {p : Mapping} {partition : Partition} {settings : Settings}
    (checked : settings.check = .ok ()) (len_eq : p.len = (partition.mappedLen settings.pageSize).toNat) :
    partition.extent ≤ p.window.len := by
  show partition.extent ≤ p.len
  rw [len_eq]
  exact partition.extent_le_mappedLen checked

namespace Writer

variable {fs : FileSystem}

/-- The file of a writer is its region just as it was published, and the region as long as settings and
arguments ask for. -/
structure Pristine (w : Writer) (statics : Statics) (slots : Nat) (settings : Settings) (origin : Origin)
    (fs : FileSystem) : Prop where
  divided : Partition.ofStatics statics slots = .ok w.blocks.partition
  len_eq : w.mapping.len = (w.blocks.partition.mappedLen settings.pageSize).toNat
  bytes_eq : fs.bytes w.mapping.file =
    (w.blocks.published (Memory.zero _) origin.pid origin.start statics).bytes

/-- A writer that was just made: its region has no counters, its file is none of those that are kept, and
its mapping is a new one. -/
structure Made (kept : Nat → Prop) (fs : FileSystem) (w : Writer) (fs' : FileSystem) : Prop where
  holds : w.Holds fs' []
  lastId : w.lastId = 0
  new : fs.mappings ≤ w.mapping.number
  own : ∀ file, file < fs.contents.size → kept file → file ≠ w.mapping.file
  keeps : fs.Keeps kept fs'

theorem Made.mono {kept kept' : Nat → Prop} {w : Writer} {fs' : FileSystem} (made : w.Made kept fs fs')
    (fewer : ∀ file, kept' file → kept file) : w.Made kept' fs fs' :=
  ⟨made.holds, made.lastId, made.new, fun file hf hk => made.own file hf (fewer file hk),
    made.keeps.mono fewer⟩

variable {statics : Statics} {slots : Nat} {settings : Settings} (origin : Origin)

/-- Filling in a region of the right length never fails: there is room for all that the arguments ask for. -/
theorem finish_eq {partition : Partition} (divided : Partition.ofStatics statics slots = .ok partition)
    {p : Mapping} (fits : partition.extent ≤ p.window.len) (path : Option Path) (fs : FileSystem) :
    finish p partition statics path origin fs = .ok ⟨p, ⟨p.window, partition, fits⟩, path, 0⟩
      (fs.setImage p.file (Blocks.published ⟨p.window, partition, fits⟩ (fs.image p.file p.len) origin.pid
        origin.start statics)) := by
  let b : Blocks p.len := ⟨p.window, partition, fits⟩
  have room : b.room statics = .ok () := Blocks.room_of_ofStatics divided
  have filled := Blocks.publish_eq (b := b) rfl origin.pid origin.start statics (fs.image p.file p.len)
  rw [room] at filled
  have written := Mapping.write_eq_ok filled
  have run : (do
      Host.request (← p.write (b.publish origin.pid origin.start statics))
      return ⟨p, b, path, 0⟩ : Host Writer) fs = .ok ⟨p, b, path, 0⟩
        (fs.setImage p.file (b.published (fs.image p.file p.len) origin.pid origin.start statics)) := by
    simp only [bind, EStateM.bind, written, Host.request]
    rfl
  rw [finish, Blocks.split_eq fits]
  exact run

theorem finish_ensures {failed : FileSystem → Prop} {partition : Partition} {p : Mapping} (blank : p.Blank fs)
    (checked : settings.check = .ok ()) (divided : Partition.ofStatics statics slots = .ok partition)
    (len_eq : p.len = (partition.mappedLen settings.pageSize).toNat) (path : Option Path) :
    Ensures (finish p partition statics path origin) fs (fun w fs' => w.Holds fs' [] ∧ w.mapping = p ∧
      w.lastId = 0 ∧ fs.ConfinedTo p.file fs' ∧ w.Pristine statics slots settings origin fs') failed := by
  have fits := Mapping.extent_le checked len_eq
  let b : Blocks p.len := ⟨p.window, partition, fits⟩
  have aligned : b.Aligned := rfl
  have room : b.room statics = .ok () := Blocks.room_of_ofStatics divided
  let m := b.published (Memory.zero _) origin.pid origin.start statics
  have confined := FileSystem.confinedTo_setImage blank.size m
  have image := FileSystem.image_setImage blank.size m blank.there
  have memory : memory ⟨p, b, path, 0⟩ (fs.setImage p.file m) = m := image
  have filled := Blocks.publish_eq aligned origin.pid origin.start statics (Memory.zero _)
  rw [room] at filled
  have zeros : ∀ i, b.metadata.base ≤ i → i < b.metadata.base + b.metadata.len → m.byte i = 0 :=
    fun i above _ => by
      rw [(Blocks.published_differs room origin.pid origin.start).byte_eq i (Or.inr above), Memory.byte_zero]
  have unused : b.Unused m := Blocks.unused_of_publish filled fun j hj => by
    rw [Blocks.slotWord_of_zeros zeros hj]
    rfl
  rw [Ensures, finish_eq origin divided fits, blank.zeros]
  refine ⟨⟨rfl, ?_, ?_, ?_, ?_, ?_, ?_⟩, rfl, rfl, confined, divided, len_eq, ?_⟩
  · exact Nat.lt_of_lt_of_le blank.there confined.keeps.files
  · exact FileSystem.size_setImage blank.size m blank.there
  · exact Nat.lt_of_lt_of_le blank.numbered confined.keeps.mappings
  · rw [memory]
    exact Blocks.inscribed_published room origin.pid origin.start
  · rw [memory]
    exact unused.orderly
  · rw [memory]
    exact unused.mirrors
  · show (fs.setImage p.file m).bytes p.file = m.bytes
    rw [FileSystem.setImage_eq blank.size, FileSystem.bytes_setBytes_same blank.there]

/-- Arguments that no region can be made from, and how they are refused. -/
inductive Rejected (statics : Statics) (slots : Nat) (settings : Settings) : Failure → Prop
  | settings {cause : BadRequest} (h : settings.check = .error cause) :
    Rejected statics slots settings (.request cause)
  | partition {cause : BadRequest} (checked : settings.check = .ok ())
    (h : Partition.ofStatics statics slots = .error cause) : Rejected statics slots settings (.request cause)
  | length {partition : Partition} (checked : settings.check = .ok ())
    (divided : Partition.ofStatics statics slots = .ok partition)
    (long : Mapping.maxLen < (partition.mappedLen settings.pageSize).toNat) :
    Rejected statics slots settings (.file .regionTooLarge)

theorem checked_ensures {next : Partition → Host Writer} {done : Writer → FileSystem → Prop}
    {failed : FileSystem → Prop} (hf : ∀ failure, Rejected statics slots settings failure → failed fs)
    (hd : ∀ partition, settings.check = .ok () → Partition.ofStatics statics slots = .ok partition →
      Ensures (next partition) fs done failed) :
    Ensures (do
      Host.request settings.check
      next (← Host.request (Partition.ofStatics statics slots))) fs done failed := by
  refine (ensures_request (fun _ fs' => settings.check = .ok () ∧ fs' = fs) (fun _ checked => ⟨checked, rfl⟩)
    fun _ bad => hf _ (.settings bad)).bind _ ?_
  rintro _ fs ⟨checked, rfl⟩
  refine (ensures_request (fun p fs' => Partition.ofStatics statics slots = .ok p ∧ fs' = fs)
    (fun _ divided => ⟨divided, rfl⟩) fun _ bad => hf _ (.partition checked bad)).bind _ ?_
  rintro partition fs ⟨divided, rfl⟩
  exact hd partition checked divided

variable (statics slots settings)

theorem make_ensures (path : Path) (kept : Nat → Prop) :
    Ensures (make path statics slots settings origin) fs (fun w fs' => w.Made kept fs fs' ∧
      w.Pristine statics slots settings origin fs' ∧ fs'.Leads path w.mapping.file)
      fun fs' => fs.Keeps kept fs' ∧ (fs.refuses (.removal path) = none → fs.SameNames fs') := by
  have unchanged : fs.Keeps kept fs ∧ (fs.refuses (.removal path) = none → fs.SameNames fs) :=
    ⟨.refl fs, fun _ => .refl fs⟩
  refine checked_ensures (fun _ _ => unchanged) fun partition checked divided => ?_
  refine (Mapping.make_ensures path _ _ kept).bind _ ?_
  rintro p between ⟨blank, len, own, new, keeps, spot, found⟩
  refine (finish_ensures origin blank checked divided len _).mono ?_ fun _ h => h
  rintro w fs' ⟨holds, rfl, lastId, confined, pristine⟩
  refine ⟨⟨holds, lastId, new, fun file hf _ => by omega, keeps.trans_new confined.keeps own⟩, pristine, spot, ?_⟩
  rw [confined.names.find_eq]
  exact found

theorem makeByName_ensures (name : Path) (kept : Nat → Prop) :
    Ensures (makeByName name statics slots settings origin) fs (fun w fs' => w.Made kept fs fs' ∧
      w.Pristine statics slots settings origin fs' ∧ fs'.Leads (settings.locate name) w.mapping.file)
      (fs.Keeps kept) := by
  -- the file is made after directories were, whether there were any to make or not
  have after : ∀ between, fs.SameFiles between → Ensures (make (settings.locate name) statics slots
      settings origin) between (fun w fs' => w.Made kept fs fs' ∧
        w.Pristine statics slots settings origin fs' ∧ fs'.Leads (settings.locate name) w.mapping.file)
      (fs.Keeps kept) := fun between same =>
    (make_ensures statics slots settings origin _ kept).mono
      (fun w fs' ⟨made, rest⟩ => ⟨⟨made.holds, made.lastId, same.mappings ▸ made.new,
        fun file hf hk => made.own file (same.contents ▸ hf) hk, same.keeps.trans made.keeps⟩, rest⟩)
      fun fs' failed => same.keeps.trans failed.1
  rw [makeByName]
  dsimp only
  split
  · exact Ensures.bind _ (Host.makeDirectories_same _ fs) fun _ between same => after between same
  · exact after fs (.refl fs)

theorem remake_ensures {file : Nat} (there : file < fs.contents.size) :
    Ensures (remake file statics slots settings origin) fs (fun w fs' => w.Made (· ≠ file) fs fs' ∧
      w.Pristine statics slots settings origin fs' ∧ w.mapping.file = file)
      fun fs' => fs.ConfinedTo file fs' ∧
        ((∀ d, fs.refuses d = none) → ∃ failure, Rejected statics slots settings failure) := by
  refine checked_ensures (fun failure rejected => ⟨.refl file fs, fun _ => ⟨failure, rejected⟩⟩)
    fun partition checked divided => ?_
  refine ((Mapping.remake_ensures there _ _).mono (fun _ _ covers => covers) fun fs' failed =>
    ⟨failed.1, fun willing => ⟨_, .length checked divided (failed.2 willing)⟩⟩).bind _ ?_
  rintro p between ⟨blank, rfl, len, new, before⟩
  refine (finish_ensures origin blank checked divided len _).mono ?_ fun _ h => h
  rintro w fs' ⟨holds, rfl, lastId, confined, pristine⟩
  exact ⟨⟨holds, lastId, new, fun file hf other => other, (before.trans confined).keeps⟩, pristine, rfl⟩

end Writer

end SharedCounters
