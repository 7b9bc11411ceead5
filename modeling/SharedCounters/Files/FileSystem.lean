import SharedCounters.Failure
import SharedCounters.Machine.Memory
import SharedCounters.Files.Path

/-! A file system: a tree of directories whose leaves name files, and the contents of the files by
number. A file that has lost its name keeps its contents, for those that still map it, and a new file
never gets the number of another one. -/

namespace SharedCounters

/-- The first `n` bytes, with zeros for those that are missing. -/
def Memory.ofBytes (n : Nat) (bytes : ByteArray) : Memory n :=
  if h : bytes.size = n then ⟨bytes, h⟩
  else ⟨bytes.extract 0 n ++ ⟨Array.replicate (n - bytes.size) 0⟩, by
    rw [ByteArray.size_append, ByteArray.size_extract]
    show _ + (Array.replicate (n - bytes.size) (0 : UInt8)).size = n
    rw [Array.size_replicate]
    omega⟩

/-- The names from an entry up to the root. -/
abbrev Location := List Name

inductive Node
  | directory
  | file (number : Nat)
  deriving DecidableEq

/-- What the machine is asked for when a file is made, filled or given up. -/
inductive Demand
  | creation (p : Path)
  | length (file len : Nat)
  | mapping (file : Nat)
  | removal (p : Path)

structure FileSystem where
  entries : List (Location × Node)
  contents : Array ByteArray
  workingDirectory : Location
  /-- How many mappings were made so far. -/
  mappings : Nat
  /-- Nothing need be wrong with a demand: there may be no room for it, or no right to it. -/
  refuses : Demand → Option BadFile
  numbered : ∀ spot number, (spot, Node.file number) ∈ entries → number < contents.size

structure Route where
  start : Location
  names : List Name
  toDirectory : Bool

def maxNameLen : Nat := 255

def maxPathLen : Nat := 4095

namespace FileSystem

def ofDirectories (spots : List Location) (workingDirectory : Location) : FileSystem where
  entries := spots.map fun spot => (spot, .directory)
  contents := #[]
  workingDirectory := workingDirectory
  mappings := 0
  refuses := fun _ => none
  numbered := fun spot number h => by
    obtain ⟨_, _, e⟩ := List.mem_map.1 h
    cases e

variable (fs : FileSystem)

def node? (spot : Location) : Option Node :=
  if spot.isEmpty then some .directory else fs.entries.lookup spot

def longRoute (p : Path) : Except BadFile Route :=
  if p.bytes.contains 0 then .error .nulInPath
  else if p.bytes.isEmpty then .error .notFound
  else .ok ⟨if p.isAbsolute then [] else fs.workingDirectory, p.names, p.endsInSlash⟩

/-- The route of a path that is passed to the kernel as a whole. -/
def route (p : Path) : Except BadFile Route := do
  let route ← fs.longRoute p
  if maxPathLen < p.bytes.length then throw .nameTooLong else return route

/-- Only a directory can be passed through. -/
def walk : Location → List Name → Except BadFile Location
  | here, [] => .ok here
  | here, name :: rest =>
    if fs.node? here ≠ some .directory then .error .notADirectory
    else if name = dot then walk here rest
    else if name = dotDot then walk here.tail rest
    else if maxNameLen < name.length then .error .nameTooLong
    else if (fs.node? (name :: here)).isNone then .error .notFound
    else walk (name :: here) rest

def follow (route : Route) : Except BadFile (Location × Node) := do
  let spot ← fs.walk route.start route.names
  match fs.node? spot with
  | none => throw .notFound
  | some node =>
    if route.toDirectory ∧ node ≠ .directory then throw .notADirectory else return (spot, node)

def find (p : Path) : Except BadFile (Location × Node) := do fs.follow (← fs.route p)

/-- Where a path wants an entry: the directory, the name, and whether a slash follows it. Paths that
end in dots or in the root want none. -/
def place (p : Path) : Except BadFile (Option (Location × Name × Bool)) := do
  let route ← fs.route p
  match route.names.reverse with
  | [] => return none
  | last :: before =>
    let directory ← fs.walk route.start before.reverse
    if fs.node? directory ≠ some .directory then throw .notADirectory
    else if last = dot ∨ last = dotDot then return none
    else return some (directory, last, route.toDirectory)

def addDirectory (spot : Location) : FileSystem :=
  { fs with
    entries := (spot, .directory) :: fs.entries
    numbered := fun spot number h =>
      fs.numbered spot number ((List.mem_cons.1 h).resolve_left fun e => nomatch (Prod.mk.inj e).2) }

/-- A new file is empty. -/
def addFile (spot : Location) : Nat × FileSystem :=
  (fs.contents.size,
    { fs with
      entries := (spot, .file fs.contents.size) :: fs.entries
      contents := fs.contents.push ByteArray.empty
      numbered := fun spot number h => by
        rw [Array.size_push]
        rcases List.mem_cons.1 h with e | h
        · cases e
          exact Nat.lt_succ_self _
        · exact Nat.lt_succ_of_lt (fs.numbered spot number h) })

def dropEntry (spot : Location) : FileSystem :=
  { fs with
    entries := fs.entries.filter fun entry => entry.1 != spot
    numbered := fun spot number h => fs.numbered spot number (List.mem_filter.1 h |>.1) }

def bytes (number : Nat) : ByteArray := fs.contents.getD number ByteArray.empty

def setBytes (number : Nat) (bytes : ByteArray) : FileSystem :=
  { fs with
    contents := fs.contents.setIfInBounds number bytes
    numbered := fun spot other h => by
      rw [Array.size_setIfInBounds]
      exact fs.numbered spot other h }

def setLength (number len : Nat) : FileSystem :=
  fs.setBytes number (Memory.ofBytes len (fs.bytes number)).bytes

def createFile (p : Path) : Except BadFile (Nat × FileSystem) := do
  match ← fs.place p with
  | none => throw .alreadyExists
  | some (_, _, true) => throw .isADirectory
  | some (directory, name, false) =>
    if maxNameLen < name.length then throw .nameTooLong
    else if (fs.node? (name :: directory)).isSome then throw .alreadyExists
    else match fs.refuses (.creation p) with
      | some cause => throw cause
      | none => return fs.addFile (name :: directory)

def ensureFile (p : Path) : Except BadFile (Nat × FileSystem) := do
  match ← fs.place p with
  | none => throw .isADirectory
  | some (_, _, true) => throw .isADirectory
  | some (directory, name, false) =>
    if maxNameLen < name.length then throw .nameTooLong
    else match fs.node? (name :: directory) with
      | some (.file number) => return (number, fs)
      | some .directory => throw .isADirectory
      | none => return fs.addFile (name :: directory)

def fileToWrite (p : Path) : Except BadFile Nat := do
  match ← fs.find p with
  | (_, .directory) => throw .isADirectory
  | (_, .file number) => return number

def bytesOf (p : Path) : Except BadFile ByteArray := do
  return fs.bytes (← fs.fileToWrite p)

/-- A directory takes one block. -/
def sizeOf (p : Path) : Except BadFile Nat := do
  match ← fs.find p with
  | (_, .directory) => return 4096
  | (_, .file number) => return (fs.bytes number).size

def writeFile (p : Path) (bytes : ByteArray) : Except BadFile FileSystem := do
  let (number, fs) ← fs.ensureFile p
  return fs.setBytes number bytes

/-- Replaces some bytes in place; the file grows if they reach beyond its end. -/
def patchFile (p : Path) (offset : Nat) (bytes : List UInt8) : Except BadFile FileSystem := do
  let number ← fs.fileToWrite p
  let old := fs.bytes number
  let len := if bytes.isEmpty then old.size else max old.size (offset + bytes.length)
  return fs.setBytes number ((Memory.ofBytes len old).write offset bytes).bytes

/-- The file that is read is emptied first if it is also the one that is written. -/
def copyFile (source target : Path) : Except BadFile FileSystem := do
  match ← fs.find source with
  | (_, .directory) => throw .notRegular
  | (_, .file number) =>
    let (copy, fs) ← fs.ensureFile target
    let fs := fs.setBytes copy ByteArray.empty
    return fs.setBytes copy (fs.bytes number)

def makeDirectory (p : Path) : Except BadFile FileSystem := do
  match ← fs.place p with
  | none => throw .alreadyExists
  | some (directory, name, _) =>
    if maxNameLen < name.length then throw .nameTooLong
    else if (fs.node? (name :: directory)).isSome then throw .alreadyExists
    else return fs.addDirectory (name :: directory)

def isDirectory (p : Path) : Bool :=
  match fs.find p with
  | .ok (_, .directory) => true
  | _ => false

def removeFile (p : Path) : Except BadFile FileSystem := do
  match ← fs.place p with
  | none => throw .isADirectory
  | some (directory, name, toDirectory) =>
    if maxNameLen < name.length then throw .nameTooLong
    else match fs.node? (name :: directory) with
      | none => throw .notFound
      | some .directory => throw .isADirectory
      | some (.file _) =>
        if toDirectory then throw .notADirectory
        else match fs.refuses (.removal p) with
          | some cause => throw cause
          | none => return fs.dropEntry (name :: directory)

/-- Makes the directories that are missing on a path, the outer ones first. -/
def makeDirectoriesWithin : (depth : Nat) → Path → EStateM BadFile FileSystem Unit
  | 0, _ => return ()
  | depth + 1, p => do
    if p.bytes.isEmpty then return ()
    match (← get).makeDirectory p with
    | .ok fs => set fs
    | .error cause =>
      if cause = .notFound then
        match p.parent? with
        | none => throw cause
        | some parent =>
          makeDirectoriesWithin depth parent
          match (← get).makeDirectory p with
          | .ok fs => set fs
          | .error cause => if (← get).isDirectory p then return () else throw cause
      else if (← get).isDirectory p then return () else throw cause

/-- A path has fewer steps than bytes. -/
def makeDirectories (p : Path) : EStateM BadFile FileSystem Unit :=
  makeDirectoriesWithin (p.bytes.length + 1) p

/-- The names from the root that a path stands for. They are looked up one after the other, so the path
may be longer than one that is passed to the kernel. -/
def canonical (p : Path) : Except BadFile Path := do
  let (spot, _) ← fs.follow (← fs.longRoute p)
  return ⟨slash :: Path.join spot.reverse⟩

end FileSystem

end SharedCounters
