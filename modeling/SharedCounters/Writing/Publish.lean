import SharedCounters.Format.Blocks

/-! Filling in a new region. The version is stored last, so a reader that sees it sees everything. A
map that does not fit its block is refused before the block or the version is touched. -/

namespace SharedCounters.Blocks

variable {n : Nat} (b : Blocks n)

def announce (version : UInt32) : Write n Unit :=
  b.header.store headerAt.version version .release

/-- Writes the records from an offset on. The lengths fit 32 bits when their sum does. -/
def storeRecords (offset : Nat) : List (String × String) → Write n Unit
  | [] => pure ()
  | (label, value) :: rest => do
    let labelLen := label.utf8ByteSize
    let valueLen := value.utf8ByteSize
    let labelAt := offset + staticsAt.label
    b.statics.storeBytes labelAt (Text.utf8 label)
    b.statics.storeBytes (labelAt + labelLen) (Text.utf8 value)
    b.statics.store (offset + staticsAt.labelLen) (UInt32.ofNat labelLen) .relaxed
    b.statics.store (offset + staticsAt.valueLen) (UInt32.ofNat valueLen) .relaxed
    storeRecords (offset + Statics.recordLen labelLen valueLen) rest

/-- The count is stored after the records. -/
def storeStatics (statics : Statics) : Write n (Except BadRequest Unit) :=
  match statics.blockLen with
  | .error cause => return .error cause
  | .ok needed =>
    if b.partition.staticsLen < needed then
      return .error (.staticsOverflow needed b.partition.staticsLen)
    else do
      b.storeRecords staticsAt.records statics.pairs
      b.statics.store staticsAt.count (UInt32.ofNat statics.pairs.length) .release
      return .ok ()

/-- The lengths of the blocks, each with its place in the header. -/
def lengths : List (Nat × Nat) := [(headerAt.staticsLen, b.partition.staticsLen),
  (headerAt.metadataLen, b.partition.metadataLen), (headerAt.valuesLen, b.partition.valuesLen)]

/-- Stores lengths in the header, up to one that does not fit 32 bits. -/
def storeLengths : List (Nat × Nat) → Write n (Except BadRequest Unit)
  | [] => return .ok ()
  | (offset, len) :: rest =>
    if len < UInt32.size then do
      b.header.store offset (UInt32.ofNat len) .relaxed
      storeLengths rest
    else return .error (.fieldTooLong len)

/-- Makes a region that readers accept, with every slot as it was. -/
def publish (pid start : UInt64) (statics : Statics) : Write n (Except BadRequest Unit) := do
  match ← b.storeLengths b.lengths with
  | .error cause => return .error cause
  | .ok () =>
    b.header.store headerAt.pid pid .release
    b.header.store headerAt.start start .release
    match ← b.storeStatics statics with
    | .error cause => return .error cause
    | .ok () =>
      b.announce formatVersion
      return .ok ()

end SharedCounters.Blocks
