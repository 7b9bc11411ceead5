import SharedCounters.Machine.Rounding
import SharedCounters.Files.Host
import SharedCounters.Machine.Window

/-! Mappings of files. A mapping shows the bytes of its file, also those that others write to it, and
what is written through it is in the file. -/

namespace SharedCounters

structure Mapping where
  /-- Tells mappings of one file apart. -/
  number : Nat
  file : Nat
  len : Nat
  writable : Bool

/-- Stores the byte at every `stride`th address back, so that each page is backed by storage. -/
def Memory.touchFrom {n : Nat} (stride : Nat) : (pages address : Nat) → Memory n → Memory n
  | 0, _, m => m
  | pages + 1, address, m => touchFrom stride pages (address + stride) (m.put address (m.byte address))

def Memory.touch {n : Nat} (m : Memory n) (pageSize : Nat) : Memory n :=
  let stride := max pageSize 1
  m.touchFrom stride (roundUp n stride / stride) 0

def FileSystem.image (fs : FileSystem) (file len : Nat) : Memory len := Memory.ofBytes len (fs.bytes file)

/-- What lies beyond the mapped bytes stays, and a file that is shorter does not grow. -/
def FileSystem.setImage {len : Nat} (fs : FileSystem) (file : Nat) (m : Memory len) : FileSystem :=
  let old := fs.bytes file
  if old.size = len then fs.setBytes file m.bytes
  else if old.size < len then fs.setBytes file (m.bytes.extract 0 old.size)
  else fs.setBytes file (m.bytes ++ old.extract len old.size)

namespace Mapping

variable {α : Type}

/-- Lengths of files are signed. -/
def maxLen : Nat := UInt64.size / 2 - 1

def window (p : Mapping) : Window p.len := Window.whole p.len

def read (p : Mapping) (operation : Read p.len α) : Host α := fun fs =>
  match operation (fs.image p.file p.len) with
  | .ok a => .ok a fs
  | .error fault => .error (.fault fault) fs

def write (p : Mapping) (operation : Write p.len α) : Host α := fun fs =>
  match operation (fs.image p.file p.len) with
  | .ok a m => .ok a (fs.setImage p.file m)
  | .error fault m => .error (.fault fault) (fs.setImage p.file m)

def ofOpen (file : Nat) (writable : Bool) : Host Mapping := do
  let fs ← get
  set { fs with mappings := fs.mappings + 1 }
  return ⟨fs.mappings, file, (fs.bytes file).size, writable⟩

def ofWritable (file : Nat) (pageSize : UInt64) : Host Mapping := do
  Host.demand (.mapping file)
  let p ← ofOpen file true
  p.write fun m => .ok () (m.touch pageSize.toNat)
  return p

def resize (file len : Nat) : Host Unit := do
  Host.demand (.length file len)
  modify fun fs => fs.setLength file len

/-- Maps a new file, which first becomes `len` bytes long. -/
def ofNew (file len : Nat) (pageSize : UInt64) : Host Mapping := do
  if maxLen < len then throw (.file .lengthTooLarge)
  resize file len
  ofWritable file pageSize

def discard (path : Path) : Host Unit :=
  modify fun fs => match fs.removeFile path with
    | .ok fs => fs
    | .error _ => fs

/-- Makes a new file of `len` bytes and maps it. If it cannot be that long or cannot be mapped, it is
removed again. -/
def make (path : Path) (len : Nat) (pageSize : UInt64) : Host Mapping := do
  let file ← Host.change fun fs => fs.createFile path
  tryCatch (ofNew file len pageSize) fun failure => do
    discard path
    throw failure

/-- Makes an open file `len` bytes long, without its old contents, and maps it. -/
def remake (file : Nat) (len : Nat) (pageSize : UInt64) : Host Mapping := do
  if maxLen < len then throw (.file .regionTooLarge)
  resize file 0
  resize file len
  ofWritable file pageSize

def ofPath (path : Path) : Host Mapping := do
  match ← Host.ask fun fs => fs.find path with
  | (_, .directory) => throw (.file .noSuchDevice)
  | (_, .file file) => ofOpen file false

def describe (p : Mapping) : String := s!"Region \x7b len: {p.len}, writable: {p.writable} \x7d"

end Mapping

end SharedCounters
