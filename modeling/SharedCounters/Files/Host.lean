import SharedCounters.Files.FileSystem

/-! Operations on the machine that holds the files. An operation that fails keeps what it has done to
the file system. -/

namespace SharedCounters

abbrev Host := EStateM Failure FileSystem

namespace Host

variable {α : Type}

/-- What an operation gives when it is run on its own. -/
def result (operation : Host α) (fs : FileSystem) : Except Failure α :=
  match operation fs with
  | .ok a _ => .ok a
  | .error failure _ => .error failure

def ask (question : FileSystem → Except BadFile α) : Host α := fun fs =>
  match question fs with
  | .ok a => .ok a fs
  | .error cause => .error (.file cause) fs

/-- Changes the file system, or leaves it as it was. -/
def change (step : FileSystem → Except BadFile (α × FileSystem)) : Host α := fun fs =>
  match step fs with
  | .ok (a, fs) => .ok a fs
  | .error cause => .error (.file cause) fs

def demand (d : Demand) : Host Unit := fun fs =>
  match fs.refuses d with
  | some cause => .error (.file cause) fs
  | none => .ok () fs

def request (result : Except BadRequest α) : Host α :=
  match result with
  | .ok a => return a
  | .error cause => throw (.request cause)

def makeDirectories (p : Path) : Host Unit := fun fs =>
  match FileSystem.makeDirectories p fs with
  | .ok () fs => .ok () fs
  | .error cause fs => .error (.file cause) fs

end Host

end SharedCounters
