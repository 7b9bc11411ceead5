import SharedCounters.Files.Mapping
import SharedCounters.Reading.Accept
import SharedCounters.Reading.Scan

/-! The reading side: a reader checks a region once, when it is opened, and then reads it at any time. -/

namespace SharedCounters

structure Reader where
  mapping : Mapping
  blocks : Blocks mapping.len

namespace Reader

def ofMapping (mapping : Mapping) : Host Reader := do
  match ← mapping.read (Blocks.accept mapping.window) with
  | .ok blocks => return ⟨mapping, blocks⟩
  | .error cause => throw (.region cause)

def ofPath (path : Path) : Host Reader := do ofMapping (← Mapping.ofPath path)

def version (r : Reader) : Host UInt32 := r.mapping.read r.blocks.version

def pid (r : Reader) : Host UInt64 := r.mapping.read r.blocks.pid

def start (r : Reader) : Host UInt64 := r.mapping.read r.blocks.start

def slots (r : Reader) : Nat := r.blocks.partition.slots

def staticPairs (r : Reader) : Host (List (String × String)) := r.mapping.read r.blocks.staticPairs

def staticFor (r : Reader) (label : String) : Host (Option String) :=
  r.mapping.read (r.blocks.staticFor label)

def liveCounters (r : Reader) : Host (List Reading) := r.mapping.read r.blocks.liveCounters

def valueOf (r : Reader) (id : UInt64) : Host Int64 := do
  match ← r.mapping.read (r.blocks.valueOf id) with
  | some value => return value
  | none => throw (.notFound id)

def labelOf (r : Reader) (id : UInt64) : Host String := do
  match ← r.mapping.read (r.blocks.labelOf id) with
  | some label => return label
  | none => throw (.notFound id)

def describe (r : Reader) : String :=
  let p := r.blocks.partition
  let layout := s!"Layout \x7b statics_len: {p.staticsLen}, slots: {p.slots} \x7d"
  s!"CounterView \x7b region: {r.mapping.describe}, layout: {layout} \x7d"

end Reader

end SharedCounters
