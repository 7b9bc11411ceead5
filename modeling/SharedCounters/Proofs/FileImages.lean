import SharedCounters.Files.Mapping
import SharedCounters.Proofs.Fresh

/-! Files as memory. What is written through a mapping that is as long as its file is what the file
holds, and the bytes of every other file stay as they were. -/

namespace SharedCounters

namespace Memory

variable {n : Nat}

theorem ofBytes_bytes (m : Memory n) : ofBytes n m.bytes = m := by
  rw [ofBytes, dif_pos m.size_bytes]

theorem ofBytes_of_isEmpty {bytes : ByteArray} (h : bytes.size = 0) : ofBytes n bytes = zero n := by
  obtain rfl := ByteArray.size_eq_zero_iff.1 h
  rw [ofBytes]
  split_ifs with none
  · subst none
    rfl
  · have e : ByteArray.empty.extract 0 n = ByteArray.empty := by simp
    simp [zero, e]

theorem put_byte (m : Memory n) (i : Nat) : m.put i (m.byte i) = m :=
  ext_byte fun j _ => by
    rw [byte_put]
    split_ifs with same
    · rw [same.1]
    · rfl

theorem touch_eq (m : Memory n) (pageSize : Nat) : m.touch pageSize = m := by
  have run : ∀ stride pages address, m.touchFrom stride pages address = m := by
    intro stride pages
    induction pages with
    | zero => intro address; rfl
    | succ pages ih =>
      intro address
      rw [touchFrom, put_byte]
      exact ih _
  exact run _ _ _

end Memory

namespace FileSystem

/-- Files and mappings are only added, and the files that are `kept` have the bytes they had. -/
structure Keeps (kept : Nat → Prop) (fs fs' : FileSystem) : Prop where
  files : fs.contents.size ≤ fs'.contents.size
  mappings : fs.mappings ≤ fs'.mappings
  bytes_eq : ∀ file, file < fs.contents.size → kept file → fs'.bytes file = fs.bytes file

instance decidableKeeps (kept : Nat → Prop) [DecidablePred kept] (fs fs' : FileSystem) :
    Decidable (fs.Keeps kept fs') :=
  have : DecidableEq ByteArray := ByteArray.instDecidableEq
  decidable_of_iff (fs.contents.size ≤ fs'.contents.size ∧ fs.mappings ≤ fs'.mappings ∧
      ∀ file, file < fs.contents.size → kept file → fs'.bytes file = fs.bytes file)
    ⟨fun h => ⟨h.1, h.2.1, h.2.2⟩, fun h => ⟨h.files, h.mappings, h.bytes_eq⟩⟩

variable {kept : Nat → Prop} {fs fs' fs'' : FileSystem}

theorem Keeps.refl (fs : FileSystem) : fs.Keeps kept fs :=
  ⟨Nat.le_refl _, Nat.le_refl _, fun _ _ _ => rfl⟩

theorem Keeps.trans (h : fs.Keeps kept fs') (h' : fs'.Keeps kept fs'') : fs.Keeps kept fs'' where
  files := Nat.le_trans h.files h'.files
  mappings := Nat.le_trans h.mappings h'.mappings
  bytes_eq file hf hk :=
    (h'.bytes_eq file (Nat.lt_of_lt_of_le hf h.files) hk).trans (h.bytes_eq file hf hk)

theorem Keeps.mono {kept' : Nat → Prop} (h : fs.Keeps kept fs') (fewer : ∀ file, kept' file → kept file) :
    fs.Keeps kept' fs' :=
  ⟨h.files, h.mappings, fun file hf hk => h.bytes_eq file hf (fewer file hk)⟩

/-- A file that was not there at first may change. -/
theorem Keeps.trans_new {file : Nat} (h : fs.Keeps kept fs') (h' : fs'.Keeps (· ≠ file) fs'')
    (new : fs.contents.size ≤ file) : fs.Keeps kept fs'' where
  files := Nat.le_trans h.files h'.files
  mappings := Nat.le_trans h.mappings h'.mappings
  bytes_eq other hf hk :=
    (h'.bytes_eq other (Nat.lt_of_lt_of_le hf h.files) (by omega)).trans (h.bytes_eq other hf hk)

theorem Keeps.of_contents (same : fs'.contents = fs.contents) (mappings : fs.mappings ≤ fs'.mappings) :
    fs.Keeps kept fs' :=
  ⟨Nat.le_of_eq (congrArg Array.size same.symm), mappings, fun file _ _ => by rw [bytes, bytes, same]⟩

theorem bytes_setBytes_same {file : Nat} (h : file < fs.contents.size) (bytes : ByteArray) :
    (fs.setBytes file bytes).bytes file = bytes := by
  simp [FileSystem.bytes, setBytes, h]

theorem bytes_setBytes_other {file other : Nat} (h : other ≠ file) (bytes : ByteArray) :
    (fs.setBytes file bytes).bytes other = fs.bytes other := by
  simp [FileSystem.bytes, setBytes, Array.getElem?_setIfInBounds_ne h.symm]

@[simp] theorem size_setBytes (file : Nat) (bytes : ByteArray) :
    (fs.setBytes file bytes).contents.size = fs.contents.size := Array.size_setIfInBounds

theorem keeps_setBytes (file : Nat) (bytes : ByteArray) :
    fs.Keeps (· ≠ file) (fs.setBytes file bytes) where
  files := Nat.le_of_eq (size_setBytes file bytes).symm
  mappings := Nat.le_refl _
  bytes_eq _ _ other := bytes_setBytes_other other bytes

section Images

variable {file len : Nat} (size : (fs.bytes file).size = len) (m : Memory len)

include size

theorem setImage_eq : fs.setImage file m = fs.setBytes file m.bytes := by
  rw [setImage]
  exact if_pos size

theorem keeps_setImage : fs.Keeps (· ≠ file) (fs.setImage file m) := by
  rw [setImage_eq size m]
  exact keeps_setBytes file m.bytes

variable (there : file < fs.contents.size)

include there

theorem size_setImage : ((fs.setImage file m).bytes file).size = len := by
  rw [setImage_eq size m, bytes_setBytes_same there, m.size_bytes]

theorem image_setImage : (fs.setImage file m).image file len = m := by
  rw [setImage_eq size m, image, bytes_setBytes_same there, Memory.ofBytes_bytes]

end Images

end FileSystem

end SharedCounters
