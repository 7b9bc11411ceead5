import SharedCounters.Reader

/-! The listing of a region, line by line. In labels and values an equals sign and a backslash get a
backslash, so the first equals sign without one separates label and value. -/

namespace SharedCounters

structure Listing where
  file : String
  version : UInt32
  pid : UInt64
  start : UInt64
  statics : List (String × String)
  counters : List Reading

namespace Listing

def escapedChar (c : Char) : List Char := if c = '=' ∨ c = '\\' then ['\\', c] else [c]

def escaped (text : String) : String := String.ofList (text.toList.flatMap escapedChar)

def pairText (p : String × String) : String := s!"{escaped p.1}={escaped p.2}"

def counterText (c : Reading) : String := s!"{escaped c.label}[{c.id}]={c.value}"

def ofReader (path : Path) (r : Reader) : Host Listing := do
  return ⟨path.display, ← r.version, ← r.pid, ← r.start, ← r.staticPairs, ← r.liveCounters⟩

def lines (l : Listing) : List String :=
  [s!"file: {l.file}", s!"version: {l.version}", s!"pid: {l.pid}", s!"started: {l.start}"]
    ++ l.statics.map (fun p => s!"static: {pairText p}")
    ++ l.counters.map (fun c => s!"counter: {counterText c}")

/-- Every line ends in a line feed. -/
def text (l : Listing) : String := String.join (l.lines.map fun line => line ++ "\n")

/-- Sends a text to a receiver that takes at most `room` bytes: all of it, or the bytes that were taken. -/
def deliver (room : Nat) (text : String) : Except (List UInt8) Unit :=
  if text.utf8ByteSize ≤ room then .ok () else .error ((Text.utf8 text).take room)

end Listing

end SharedCounters
