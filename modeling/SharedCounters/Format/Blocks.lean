import SharedCounters.Format.Partition
import SharedCounters.Format.SlotWord
import SharedCounters.Machine.Window

/-! A region split into its blocks. By its type the blocks lie inside the region, one after the other,
so only a misaligned region can make an access to them fail. -/

namespace SharedCounters

structure Blocks (n : Nat) where
  region : Window n
  partition : Partition
  fits : partition.extent ≤ region.len

namespace Blocks

variable {n : Nat}

/-- Splits a region without looking at it. The first block that does not fit is reported. -/
def split (region : Window n) (partition : Partition) : Except Fault (Blocks n) := do
  region.covers 0 headerAt.len
  region.covers partition.staticsStart partition.staticsLen
  region.covers partition.metadataStart partition.metadataLen
  if h : partition.extent ≤ region.len then return ⟨region, partition, h⟩
  else throw (.outOfBounds partition.valuesLen partition.valuesStart region.len)

variable (b : Blocks n)

theorem values_le : b.partition.valuesStart + b.partition.valuesLen ≤ b.region.len := b.fits

theorem metadata_le : b.partition.metadataStart + b.partition.metadataLen ≤ b.region.len :=
  Nat.le_trans (Nat.le_add_right _ _) b.values_le

theorem statics_le : b.partition.staticsStart + b.partition.staticsLen ≤ b.region.len :=
  Nat.le_trans (Nat.le_add_right _ _) b.metadata_le

theorem header_le : 0 + headerAt.len ≤ b.region.len :=
  Nat.le_trans (by rw [Nat.zero_add]; exact Nat.le_add_right _ _) b.statics_le

def header : Window n := b.region.part 0 headerAt.len b.header_le

def statics : Window n := b.region.part b.partition.staticsStart b.partition.staticsLen b.statics_le

def metadata : Window n := b.region.part b.partition.metadataStart b.partition.metadataLen b.metadata_le

def values : Window n := b.region.part b.partition.valuesStart b.partition.valuesLen b.values_le

/-- Offsets within the metadata block. -/
def wordOffset (slot : Nat) : Nat := slot * metadataAt.len + metadataAt.word

def labelLenOffset (slot : Nat) : Nat := slot * metadataAt.len + metadataAt.labelLen

def labelOffset (slot : Nat) : Nat := slot * metadataAt.len + metadataAt.label

def valueOffset (slot : Nat) : Nat := slot * valueAt.len + valueAt.value

def word (slot : Nat) : Read n SlotWord := b.metadata.load (wordOffset slot) .acquire

def version : Read n UInt32 := b.header.load headerAt.version .acquire

def pid : Read n UInt64 := b.header.load headerAt.pid .acquire

/-- When the region was created, in milliseconds since the epoch. -/
def start : Read n UInt64 := b.header.load headerAt.start .acquire

end Blocks

end SharedCounters
