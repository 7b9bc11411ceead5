import SharedCounters.Settings
import SharedCounters.Files.Mapping
import SharedCounters.Writing.Allocation

/-! The writing side: a writer makes the region and hands out counters with fresh ids. A handle knows
where the value of its counter is; closing or losing it frees nothing. -/

namespace SharedCounters

/-- Who creates a region, and when. -/
structure Origin where
  pid : UInt64
  start : UInt64

structure Writer where
  mapping : Mapping
  blocks : Blocks mapping.len
  path : Option Path
  lastId : UInt64

structure Handle where
  mapping : Mapping
  blocks : Blocks mapping.len
  id : UInt64
  label : String
  offset : Nat
  closed : Bool

namespace Writer

def finish (mapping : Mapping) (partition : Partition) (statics : Statics) (path : Option Path)
    (origin : Origin) : Host Writer :=
  match Blocks.split mapping.window partition with
  | .error fault => throw (.fault fault)
  | .ok blocks => do
    Host.request (← mapping.write (blocks.publish origin.pid origin.start statics))
    return ⟨mapping, blocks, path, 0⟩

def make (path : Path) (statics : Statics) (slots : Nat) (settings : Settings) (origin : Origin) :
    Host Writer := do
  Host.request settings.check
  let partition ← Host.request (Partition.ofStatics statics slots)
  let mapping ← Mapping.make path (partition.mappedLen settings.pageSize).toNat settings.pageSize
  finish mapping partition statics (some path) origin

/-- Makes a new file in the directory of the settings, and first the directories that are missing. -/
def makeByName (name : Path) (statics : Statics) (slots : Nat) (settings : Settings) (origin : Origin) :
    Host Writer := do
  let path := settings.locate name
  if let some parent := path.parent? then Host.makeDirectories parent
  make path statics slots settings origin

def remake (file : Nat) (statics : Statics) (slots : Nat) (settings : Settings) (origin : Origin) :
    Host Writer := do
  Host.request settings.check
  let partition ← Host.request (Partition.ofStatics statics slots)
  let mapping ← Mapping.remake file (partition.mappedLen settings.pageSize).toNat settings.pageSize
  finish mapping partition statics none origin

def slots (w : Writer) : Nat := w.blocks.partition.slots

/-- Every attempt takes the next id, also one that fails. -/
def add (w : Writer) (label : String) (initial : Int64) : Host (Writer × Except Refusal Handle) := do
  let id := w.lastId + 1
  let result ← w.mapping.write (w.blocks.allocate id label initial)
  return ({ w with lastId := id }, result.map fun placement =>
    ⟨w.mapping, w.blocks, id, keptLabel label, placement.valueOffset, false⟩)

/-- Counters of other writers are not freed. -/
def free (w : Writer) (c : Handle) : Host Bool :=
  if c.mapping.number = w.mapping.number then w.mapping.write (w.blocks.free c.id)
  else return false

def describe (w : Writer) : String :=
  let path := match w.path with
    | some path => s!"Some({path.quoted})"
    | none => "None"
  s!"CounterStore \x7b path: {path}, capacity: {w.slots}, region: {w.mapping.describe} \x7d"

end Writer

namespace Handle

def get (c : Handle) : Host Int64 := c.mapping.read (c.blocks.values.load c.offset .acquire)

def getRelaxed (c : Handle) : Host Int64 := c.mapping.read (c.blocks.values.load c.offset .relaxed)

def set (c : Handle) (value : Int64) : Host Unit :=
  c.mapping.write (c.blocks.values.store c.offset value .release)

def setRelaxed (c : Handle) (value : Int64) : Host Unit :=
  c.mapping.write (c.blocks.values.store c.offset value .relaxed)

/-- Gives the value before. -/
def fetchAdd (c : Handle) (delta : Int64) : Host Int64 :=
  c.mapping.write (c.blocks.values.fetchAdd c.offset delta)

/-- Gives the value after. -/
def increment (c : Handle) (delta : Int64) : Host Int64 := do
  return (← c.fetchAdd delta) + delta

def swap (c : Handle) (value : Int64) : Host Int64 :=
  c.mapping.write (c.blocks.values.swap c.offset value)

def compareExchange (c : Handle) (current new : Int64) : Host (Exchange Int64) :=
  c.mapping.write (c.blocks.values.compareExchange c.offset current new)

/-- The counter stays allocated. -/
def close (c : Handle) : Handle := { c with closed := true }

def free (c : Handle) : Host Bool := c.mapping.write (c.blocks.free c.id)

def describe (c : Handle) : Host String := do
  let value ← c.getRelaxed
  return s!"Counter \x7b id: {c.id}, label: {Text.quoted c.label}, value: {value}, closed: {c.closed} \x7d"

end Handle

end SharedCounters
