import SharedCounters.Failure
import SharedCounters.Files.Path
import SharedCounters.Machine.Rounding
import SharedCounters.Text.Blank
import SharedCounters.Text.Decimal

/-! Where counters files live and how long a mapping is, and what the environment overrides. Settings
made from the environment have a page size that is a power of two. -/

namespace SharedCounters

/-- The values of the variables that are set; they need not be text. -/
abbrev Environment := String → Option (List UInt8)

structure Settings where
  directory : Path
  pageSize : UInt64
  deriving DecidableEq

namespace Settings

def directoryVariable : String := "SHM_COUNTERS_DIR"

def pageSizeVariable : String := "SHM_COUNTERS_PAGE_SIZE"

/-- The directory of the user below a directory for shared memory. -/
def standard (shared : Path) (pageSize : UInt64) (env : Environment) : Settings :=
  let user := match (env "USER").bind Text.decode? with
    | some user => if user.isEmpty then "default" else user
    | none => "default"
  ⟨shared.under (Path.ofString s!"shm-counters-{user}"), pageSize⟩

def check (s : Settings) : Except BadRequest Unit :=
  if isPowerOfTwo s.pageSize then .ok () else .error (.invalidPageSize s.pageSize)

/-- Blanks around the number do not count. -/
def readPageSize? (value : List UInt8) : Option UInt64 :=
  (Text.decode? value).bind fun text => Text.number? (Text.trim text.toList)

def overrideDirectory (s : Settings) : Option (List UInt8) → Except BadRequest Settings
  | none => .ok s
  | some value =>
    if value.isEmpty then .error (.invalidVariable directoryVariable "")
    else .ok { s with directory := ⟨value⟩ }

def overridePageSize (s : Settings) : Option (List UInt8) → Except BadRequest Settings
  | none => .ok s
  | some value =>
    match readPageSize? value with
    | none => .error (.invalidVariable pageSizeVariable (Text.lossy value))
    | some size => .ok { s with pageSize := size }

/-- A page size of its own is checked even if nothing overrides it. -/
def override (s : Settings) (env : Environment) : Except BadRequest Settings := do
  let s ← s.overrideDirectory (env directoryVariable)
  let s ← s.overridePageSize (env pageSizeVariable)
  s.check
  return s

def locate (s : Settings) (name : Path) : Path := s.directory.under name

end Settings

end SharedCounters
