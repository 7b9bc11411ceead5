import SharedCounters.Reading.Records

/-! Deciding whether a region holds counters. What the header says is checked in one order: enough
bytes for a header, the version, the lengths, enough bytes for the blocks, every static record. -/

namespace SharedCounters.Blocks

variable {n : Nat}

/-- The blocks of the region, or the first thing that is wrong with it. -/
def accept (region : Window n) : Read n (Except BadRegion (Blocks n)) :=
  if h : 0 + headerAt.len ≤ region.len then do
    let header := region.part 0 headerAt.len h
    let found : UInt32 ← header.load headerAt.version .acquire
    if found = 0 then return .error .notInitialized
    else if found ≠ formatVersion then return .error (.unsupportedVersion found)
    else
      let staticsLen ← header.load headerAt.staticsLen .relaxed
      let metadataLen ← header.load headerAt.metadataLen .relaxed
      let valuesLen ← header.load headerAt.valuesLen .relaxed
      match Partition.ofLengths staticsLen metadataLen valuesLen with
      | .error cause => return .error cause
      | .ok partition =>
        if fits : partition.extent ≤ region.len then
          let b : Blocks n := ⟨region, partition, fits⟩
          let walk ← b.visitStatics (fun _ _ => .go ()) ()
          return match walk.corruptAt with
            | some offset => .error (.corruptStatics offset)
            | none => .ok b
        else return .error (.truncated partition.extent region.len)
  else return .error (.truncated headerAt.len region.len)

end SharedCounters.Blocks
