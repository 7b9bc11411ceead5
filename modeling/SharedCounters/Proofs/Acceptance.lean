import SharedCounters.Proofs.Partitions
import SharedCounters.Proofs.RecordWalk
import SharedCounters.Proofs.RegionFormat
import SharedCounters.Reading.Accept

/-! Which regions are accepted. What accepting an aligned region comes to depends on the words of its
header and on the walk over its statics; in terms of the bytes it is accepted if and only if they hold
counters, and otherwise refused for the first flaw they have. -/

namespace SharedCounters

namespace Memory

variable {n : Nat} (m : Memory n)

theorem drop_read (address len count : Nat) :
    (m.read address len).drop count = m.read (address + count) (len - count) := by
  simp only [read, ← List.map_drop, List.drop_range', Nat.mul_one]

theorem take_read (address : Nat) {len count : Nat} (h : count ≤ len) :
    (m.read address len).take count = m.read address count := by
  refine List.ext_getElem (by simp [Nat.min_eq_left h]) fun i h1 h2 => ?_
  rw [List.getElem_take, m.getElem_read, m.getElem_read]

theorem fieldAt_read {address len offset : Nat} (h : offset + 4 ≤ len) :
    RegionFormat.fieldAt (m.read address len) offset =
      (Window.wordAt m (address + offset) : UInt32).toNat := by
  have bytes : (m.read (address + offset) 4).length = Word.size UInt32 := m.length_read ..
  have stored : ofLittleEndian (m.read (address + offset) 4) < wordRange (Word.size UInt32) :=
    bytes ▸ ofLittleEndian_lt _
  rw [RegionFormat.fieldAt, m.drop_read, m.take_read _ (by omega)]
  exact (Word.toNat_ofNat _ stored).symm

end Memory

theorem RegionFormat.lengthsAgree_iff {bytes : List UInt8} : LengthsAgree bytes ↔
    ∃ p : Partition, staticsLen bytes = p.staticsLen ∧ metadataLen bytes = p.metadataLen ∧
      valuesLen bytes = p.valuesLen := by
  constructor
  · rintro ⟨pos, dvd, slots, le, hm, hv⟩
    refine ⟨⟨staticsLen bytes, slots, pos, dvd, fieldAt_lt bytes 4, le⟩, rfl, ?_, ?_⟩
    · simp only [hm, Partition.metadataLen, metadataLenFor, metadataAt, Nat.mul_comm]
    · simp only [hv, Partition.valuesLen, valuesLenFor, valueAt, Nat.mul_comm]
  · rintro ⟨p, hs, hm, hv⟩
    refine ⟨hs ▸ p.pos, hs ▸ p.staticsLen_dvd, p.slots, p.le, ?_, ?_⟩
    · simp only [hm, Partition.metadataLen, metadataLenFor, metadataAt, Nat.mul_comm]
    · simp only [hv, Partition.valuesLen, valuesLenFor, valueAt, Nat.mul_comm]

namespace Blocks

variable {n : Nat}

def headerWord (region : Window n) (m : Memory n) (offset : Nat) : UInt32 :=
  Window.wordAt m (region.base + offset)

/-- The blocks of a region whose statics are all there. -/
def judgeStatics (b : Blocks n) (m : Memory n) : Except BadRegion (Blocks n) :=
  match b.corruptAt m with
  | some offset => .error (.corruptStatics offset)
  | none => .ok b

/-- What is decided about a region that has a header. -/
def judge (region : Window n) (m : Memory n) : Except BadRegion (Blocks n) :=
  let found := headerWord region m headerAt.version
  if found = 0 then .error .notInitialized
  else if found ≠ formatVersion then .error (.unsupportedVersion found)
  else
    match Partition.ofLengths (headerWord region m headerAt.staticsLen)
      (headerWord region m headerAt.metadataLen) (headerWord region m headerAt.valuesLen) with
    | .error cause => .error cause
    | .ok partition =>
      if fits : partition.extent ≤ region.len then judgeStatics ⟨region, partition, fits⟩ m
      else .error (.truncated partition.extent region.len)

variable {region : Window n} (aligned : region.base % 8 = 0) (m : Memory n)

theorem accept_short (short : region.len < 128) :
    accept region m = .ok (.error (.truncated 128 region.len)) := by
  rw [accept, dif_neg (by simp only [headerAt]; omega)]
  rfl

theorem region_of_judge {b : Blocks n} (h : judge region m = .ok b) : b.region = region := by
  rw [judge] at h
  split_ifs at h
  split at h
  · cases h
  · split_ifs at h
    rw [judgeStatics] at h
    split at h
    · cases h
    · cases h
      rfl

include aligned

theorem accept_eq_judge (header : 128 ≤ region.len) : accept region m = .ok (judge region m) := by
  have room : 0 + headerAt.len ≤ region.len := by simpa [headerAt] using header
  have word : ∀ {offset : Nat} {order : Order}, offset + 4 ≤ 128 → offset % 4 = 0 →
      order.loadClash = none →
      (region.part 0 headerAt.len room).load offset order m = .ok (headerWord region m offset) := by
    intro offset order fits aligned' admitted
    exact Window.load_eq _ fits
      (by simp only [Window.part, Word.size]; omega) admitted m
  have version := @word headerAt.version .acquire (by decide) rfl rfl
  have statics := @word headerAt.staticsLen .relaxed (by decide) rfl rfl
  have metadata := @word headerAt.metadataLen .relaxed (by decide) rfl rfl
  have values := @word headerAt.valuesLen .relaxed (by decide) rfl rfl
  rw [accept, dif_pos room, judge]
  simp only [bind, ReaderT.bind, Except.bind, version]
  split_ifs
  · rfl
  · rfl
  · simp only [ReaderT.bind, Except.bind, bind, statics, metadata, values]
    cases Partition.ofLengths (headerWord region m headerAt.staticsLen)
      (headerWord region m headerAt.metadataLen) (headerWord region m headerAt.valuesLen) with
    | error cause => rfl
    | ok partition =>
      dsimp only
      split_ifs with fits
      · have walk := visitStatics_walk (b := ⟨region, partition, fits⟩) (base_mod_four aligned) m
          (fun (_ : Unit) _ => .go ()) ()
        rw [Walk.along_go] at walk
        simp only [ReaderT.bind, Except.bind, bind, walk, judgeStatics]
        cases corruptAt ⟨region, partition, fits⟩ m <;> rfl
      · rfl

theorem region_of_accept {b : Blocks n} (h : accept region m = .ok (.ok b)) : b.region = region := by
  rcases Nat.lt_or_ge region.len 128 with short | header
  · cases (accept_short m short).symm.trans h
  · rw [accept_eq_judge aligned m header] at h
    exact region_of_judge m (Except.ok.inj h)

end Blocks

namespace Blocks

open RegionFormat

variable {n : Nat} {b : Blocks n} {m : Memory n}

theorem count_contents : fieldAt (b.statics.contents m) 0 = b.recordCount m := by
  have pos := b.partition.pos
  obtain ⟨units, hunits⟩ := b.partition.staticsLen_dvd
  have e := b.statics_len
  exact m.fieldAt_read (by omega)

theorem recordEnd_contents {offset : Nat} (fields : offset + 8 ≤ b.statics.len) (h : offset % 4 = 0) :
    RegionFormat.recordEnd (b.statics.contents m) offset = b.recordEnd m offset := by
  have label : fieldAt (b.statics.contents m) offset = (b.staticsWord m offset).toNat :=
    m.fieldAt_read (by omega)
  have value : fieldAt (b.statics.contents m) (offset + 4) = (b.staticsWord m (offset + 4)).toNat :=
    m.fieldAt_read (by omega)
  simp only [RegionFormat.recordEnd, Blocks.recordEnd, label, value, Statics.recordLen, staticsAt,
    Nat.add_zero, roundUp]
  omega

theorem recordIn_contents {offset : Nat} (h : offset % 4 = 0) : b.recordIn m offset =
    if RegionFormat.recordEnd (b.statics.contents m) offset ≤ b.statics.len then
      some (RegionFormat.recordAt (b.statics.contents m) offset)
    else none := by
  have far := RegionFormat.le_recordEnd (b.statics.contents m) offset
  have far' := b.le_recordEnd m offset
  simp only [staticsAt] at far'
  by_cases fits : b.recordEnd m offset ≤ b.statics.len
  · have same := recordEnd_contents (b := b) (m := m) (by omega) h
    have label : fieldAt (b.statics.contents m) offset = (b.staticsWord m offset).toNat :=
      m.fieldAt_read (by omega)
    have value : fieldAt (b.statics.contents m) (offset + 4) = (b.staticsWord m (offset + 4)).toNat :=
      m.fieldAt_read (by omega)
    have texts := b.texts_le_recordEnd m offset
    simp only [staticsAt, Nat.add_zero] at texts
    rw [recordIn, if_pos fits, if_pos (Nat.le_trans (Nat.le_of_eq same) fits), RegionFormat.recordAt, label, value,
      Window.contents, m.drop_read, m.take_read _ (by omega), m.drop_read, m.take_read _ (by omega)]
    simp only [staticsAt, Nat.add_assoc, Nat.add_zero]
  · rw [(b.recordIn_eq_none_iff).2 (Nat.lt_of_not_le fits), if_neg]
    intro fits'
    rw [recordEnd_contents (by omega) h] at fits'
    exact fits fits'

theorem next_recordAt {offset : Nat} (h : offset % 4 = 0)
    (fits : RegionFormat.recordEnd (b.statics.contents m) offset ≤ b.statics.len) :
    (RegionFormat.recordAt (b.statics.contents m) offset).next =
      RegionFormat.recordEnd (b.statics.contents m) offset := by
  have far := RegionFormat.le_recordEnd (b.statics.contents m) offset
  have found := recordIn_contents (b := b) (m := m) h
  rw [if_pos fits] at found
  exact (b.next_of_recordIn found).1.trans (recordEnd_contents (by omega) h).symm

theorem corruptFrom_succ (count : Nat) {offset : Nat} (h : offset % 4 = 0) :
    b.corruptFrom m (count + 1) offset =
      if RegionFormat.recordEnd (b.statics.contents m) offset ≤ b.statics.len then
        b.corruptFrom m count (RegionFormat.recordEnd (b.statics.contents m) offset)
      else some offset := by
  rw [corruptFrom, recordIn_contents h]
  split_ifs with fits
  · rw [← next_recordAt h fits]
  · rfl

theorem corruptFrom_eq_none (count i : Nat)
    (fits : ∀ j, j < count → recordOffset (b.statics.contents m) (i + j + 1) ≤ b.statics.len) :
    b.corruptFrom m count (recordOffset (b.statics.contents m) i) = none := by
  induction count generalizing i with
  | zero => rfl
  | succ count ih =>
    have first := fits 0 (Nat.succ_pos _)
    rw [corruptFrom_succ count (recordOffset_mod _ _)]
    refine (if_pos first).trans (ih (i + 1) fun j hj => ?_)
    rw [show i + 1 + j = i + (j + 1) by omega]
    exact fits (j + 1) (by omega)

theorem corruptFrom_eq_some (count i j : Nat) (counted : j < count)
    (before : ∀ k, k < j → recordOffset (b.statics.contents m) (i + k + 1) ≤ b.statics.len)
    (beyond : b.statics.len < recordOffset (b.statics.contents m) (i + j + 1)) :
    b.corruptFrom m count (recordOffset (b.statics.contents m) i) =
      some (recordOffset (b.statics.contents m) (i + j)) := by
  induction count generalizing i j with
  | zero => exact absurd counted (Nat.not_lt_zero j)
  | succ count ih =>
    rw [corruptFrom_succ count (recordOffset_mod _ _)]
    cases j with
    | zero => exact if_neg (Nat.not_le_of_lt beyond)
    | succ j =>
      refine (if_pos (before 0 (Nat.succ_pos _))).trans ?_
      rw [show i + (j + 1) = i + 1 + j by omega] at beyond ⊢
      refine ih (i + 1) j (by omega) (fun k hk => ?_) beyond
      rw [show i + 1 + k = i + (k + 1) by omega]
      exact before (k + 1) (by omega)

section Statics

variable (len : staticsLen (b.region.contents m) = b.partition.staticsLen)

include len

theorem staticsBlock_contents : staticsBlock (b.region.contents m) = b.statics.contents m := by
  have room := b.statics_le
  have start : b.partition.staticsStart = 128 := rfl
  rw [staticsBlock, len, Window.contents, m.drop_read, m.take_read _ (by omega)]
  rfl

theorem recordCount_contents : RegionFormat.recordCount (b.region.contents m) = b.recordCount m := by
  rw [RegionFormat.recordCount, staticsBlock_contents len, count_contents]

theorem judgeStatics_of_fit (records : ∀ i, i < RegionFormat.recordCount (b.region.contents m) →
    RecordFits (b.region.contents m) i) : judgeStatics b m = .ok b := by
  rw [recordCount_contents len] at records
  have whole : b.corruptAt m = none := by
    refine corruptFrom_eq_none (b.recordCount m) 0 fun j hj => ?_
    have fit := records j hj
    rw [RecordFits, staticsBlock_contents len, len] at fit
    rwa [Nat.zero_add]
  rw [judgeStatics, whole]

theorem judgeStatics_of_beyond {i : Nat} (counted : i < RegionFormat.recordCount (b.region.contents m))
    (before : ∀ j, j < i → RecordFits (b.region.contents m) j)
    (beyond : ¬ RecordFits (b.region.contents m) i) : judgeStatics b m =
      .error (.corruptStatics (recordOffset (staticsBlock (b.region.contents m)) i)) := by
  rw [recordCount_contents len] at counted
  have stops : b.corruptAt m = some (recordOffset (b.statics.contents m) (0 + i)) := by
    refine corruptFrom_eq_some (b.recordCount m) 0 i counted (fun j hj => ?_) ?_
    · have fit := before j hj
      rw [RecordFits, staticsBlock_contents len, len] at fit
      rwa [Nat.zero_add]
    · rw [RecordFits, staticsBlock_contents len, len] at beyond
      rw [Nat.zero_add]
      exact Nat.lt_of_not_le beyond
  rw [judgeStatics, stops, staticsBlock_contents len, Nat.zero_add]

end Statics

section Region

variable {region : Window n}

theorem field_contents {offset : Nat} (h : offset + 4 ≤ region.len) :
    fieldAt (region.contents m) offset = (headerWord region m offset).toNat := m.fieldAt_read h

theorem extent_contents {p : Partition} (statics : staticsLen (region.contents m) = p.staticsLen)
    (metadata : metadataLen (region.contents m) = p.metadataLen)
    (values : valuesLen (region.contents m) = p.valuesLen) :
    RegionFormat.extent (region.contents m) = p.extent := by
  rw [RegionFormat.extent, statics, metadata, values]
  rfl

end Region

section Verdicts

variable {region : Window n} (header : 128 ≤ region.len) (known : RegionFormat.version (region.contents m) = 1)
  {p : Partition} (statics : staticsLen (region.contents m) = p.staticsLen)
  (metadata : metadataLen (region.contents m) = p.metadataLen)
  (values : valuesLen (region.contents m) = p.valuesLen)

include header known

theorem judge_known : judge region m =
    match Partition.ofLengths (headerWord region m headerAt.staticsLen)
      (headerWord region m headerAt.metadataLen) (headerWord region m headerAt.valuesLen) with
    | .error cause => .error cause
    | .ok partition =>
      if fits : partition.extent ≤ region.len then judgeStatics ⟨region, partition, fits⟩ m
      else .error (.truncated partition.extent region.len) := by
  have stored : headerWord region m headerAt.version = formatVersion := by
    apply UInt32.toNat_inj.1
    exact (field_contents (by simp only [headerAt]; omega)).symm.trans known
  rw [judge, stored]
  rfl

include statics metadata values

theorem judge_partition : judge region m =
    if fits : p.extent ≤ region.len then judgeStatics ⟨region, p, fits⟩ m
    else .error (.truncated p.extent region.len) := by
  have lengths : Partition.ofLengths (headerWord region m headerAt.staticsLen)
      (headerWord region m headerAt.metadataLen) (headerWord region m headerAt.valuesLen) = .ok p :=
    Partition.ofLengths_eq_ok ((field_contents (by simp only [headerAt]; omega)).symm.trans statics)
      ((field_contents (by simp only [headerAt]; omega)).symm.trans metadata)
      ((field_contents (by simp only [headerAt]; omega)).symm.trans values)
  rw [judge_known header known, lengths]

theorem judge_whole (fits : p.extent ≤ region.len) :
    judge region m = judgeStatics ⟨region, p, fits⟩ m := by
  rw [judge_partition header known statics metadata values, dif_pos fits]

end Verdicts

section Decisions

variable {region : Window n} (aligned : region.base % 8 = 0)

include aligned

theorem accept_of_holds (holds : HoldsCounters (region.contents m)) :
    ∃ b : Blocks n, accept region m = .ok (.ok b) ∧ b.region = region ∧
      b.partition.staticsLen = staticsLen (region.contents m) ∧
      b.partition.metadataLen = metadataLen (region.contents m) ∧
      b.partition.valuesLen = valuesLen (region.contents m) := by
  obtain ⟨header, known, agree, whole, records⟩ := holds
  rw [Window.contents, Memory.length_read] at header
  obtain ⟨p, statics, metadata, values⟩ := lengthsAgree_iff.1 agree
  have fits : p.extent ≤ region.len := by
    rw [extent_contents statics metadata values] at whole
    exact Nat.le_trans whole (Nat.le_of_eq (m.length_read ..))
  refine ⟨⟨region, p, fits⟩, ?_, rfl, statics.symm, metadata.symm, values.symm⟩
  rw [accept_eq_judge aligned m header, judge_whole header known statics metadata values fits,
    judgeStatics_of_fit (b := ⟨region, p, fits⟩) statics records]

theorem accept_of_flaw {cause : BadRegion} (flaw : Flaw (region.contents m) cause) :
    accept region m = .ok (.error cause) := by
  have len : (region.contents m).length = region.len := m.length_read ..
  cases flaw with
  | short few =>
    rw [len] at few ⊢
    exact accept_short m few
  | blank header unset =>
    rw [len] at header
    have stored : headerWord region m headerAt.version = 0 := by
      apply UInt32.toNat_inj.1
      exact (field_contents (by simp only [headerAt]; omega)).symm.trans unset
    rw [accept_eq_judge aligned m header, judge, if_pos stored]
  | foreign header other stored set unknown =>
    rw [len] at header
    have found : headerWord region m headerAt.version = other := by
      apply UInt32.toNat_inj.1
      exact (field_contents (by simp only [headerAt]; omega)).symm.trans stored
    rw [accept_eq_judge aligned m header, judge, found, if_neg set]
    exact congrArg Except.ok (if_pos unknown)
  | lengths header known clash =>
    rw [len] at header
    have refused : Partition.ofLengths (headerWord region m headerAt.staticsLen)
        (headerWord region m headerAt.metadataLen) (headerWord region m headerAt.valuesLen) =
        .error .inconsistentLengths :=
      Partition.ofLengths_eq_error fun p lengths => clash <| by
        refine lengthsAgree_iff.2 ⟨p, ?_, ?_, ?_⟩
        · exact (field_contents (by omega)).trans lengths.1
        · exact (field_contents (by omega)).trans lengths.2.1
        · exact (field_contents (by omega)).trans lengths.2.2
    rw [accept_eq_judge aligned m header, judge_known header known, refused]
  | cut header known agree few =>
    rw [len] at header few ⊢
    obtain ⟨p, statics, metadata, values⟩ := lengthsAgree_iff.1 agree
    rw [extent_contents statics metadata values] at few ⊢
    rw [accept_eq_judge aligned m header, judge_partition header known statics metadata values,
      dif_neg (Nat.not_le_of_lt few)]
  | record header known agree whole i counted before beyond =>
    rw [len] at header whole
    obtain ⟨p, statics, metadata, values⟩ := lengthsAgree_iff.1 agree
    rw [extent_contents statics metadata values] at whole
    rw [accept_eq_judge aligned m header, judge_whole header known statics metadata values whole,
      judgeStatics_of_beyond (b := ⟨region, p, whole⟩) statics counted before beyond]

end Decisions

/-- An aligned region is accepted if its bytes hold counters, with the lengths in its header, and
refused for the first flaw of its bytes otherwise. -/
theorem accepts_exactly_the_format {region : Window n} (aligned : region.base % 8 = 0) (m : Memory n) :
    ((∃ b, accept region m = .ok (.ok b)) ↔ HoldsCounters (region.contents m)) ∧
    (∀ b, accept region m = .ok (.ok b) → b.region = region ∧
      b.partition.staticsLen = staticsLen (region.contents m) ∧
      b.partition.metadataLen = metadataLen (region.contents m) ∧
      b.partition.valuesLen = valuesLen (region.contents m)) ∧
    (∀ cause, accept region m = .ok (.error cause) ↔ Flaw (region.contents m) cause) ∧
    (¬ HoldsCounters (region.contents m) → ∃ cause, accept region m = .ok (.error cause)) := by
  rcases holds_or_flaw (region.contents m) with holds | ⟨cause, flaw⟩
  · obtain ⟨b, accepted, described⟩ := accept_of_holds aligned holds
    refine ⟨⟨fun _ => holds, fun _ => ⟨b, accepted⟩⟩, fun b' h => ?_,
      fun cause => ⟨fun h => ?_, fun flaw => ?_⟩, fun h => absurd holds h⟩
    · cases accepted.symm.trans h
      exact described
    · cases accepted.symm.trans h
    · cases accepted.symm.trans (accept_of_flaw aligned flaw)
  · have refused := accept_of_flaw aligned flaw
    have lacks : ¬ HoldsCounters (region.contents m) := fun holds => by
      obtain ⟨b, accepted, -⟩ := accept_of_holds aligned holds
      cases refused.symm.trans accepted
    refine ⟨⟨fun ⟨b, h⟩ => ?_, fun holds => absurd holds lacks⟩, fun b h => ?_,
      fun cause' => ⟨fun h => ?_, accept_of_flaw aligned⟩, fun _ => ⟨cause, refused⟩⟩
    · cases refused.symm.trans h
    · cases refused.symm.trans h
    · cases refused.symm.trans h
      exact flaw

/-- A region that does not start with the memory. -/
def later : Window 904 := ⟨8, 896, by decide⟩

def headerBytes (version staticsLen metadataLen valuesLen : UInt32) : List UInt8 :=
  Word.bytes version ++ Word.bytes staticsLen ++ Word.bytes metadataLen ++ Word.bytes valuesLen

/-- One slot, and two records, of which the second ends with the block when it is filled up. -/
def twoRecords : Memory 904 :=
  ((Memory.zero 904).write 8 (headerBytes 1 128 512 128)).write 136
    (Word.bytes (2 : UInt32) ++ Word.bytes (1 : UInt32) ++ Word.bytes (0 : UInt32) ++ [97, 0, 0, 0]
      ++ Word.bytes (100 : UInt32) ++ Word.bytes (1 : UInt32))

theorem holds_twoRecords : HoldsCounters (later.contents twoRecords) where
  header := by decide +kernel
  version := by decide +kernel
  lengths := ⟨by decide +kernel, by decide +kernel, 1, by decide, by decide +kernel, by decide +kernel⟩
  whole := by decide +kernel
  records := by
    have count : RegionFormat.recordCount (later.contents twoRecords) = 2 := by decide +kernel
    have fit : ∀ i, i < 2 → RecordFits (later.contents twoRecords) i := by decide +kernel
    rwa [count]

theorem accepts_two_records : later.base % 8 = 0 ∧ HoldsCounters (later.contents twoRecords) ∧
    ∃ b, accept later twoRecords = .ok (.ok b) :=
  ⟨rfl, holds_twoRecords, (accepts_exactly_the_format rfl twoRecords).1.2 holds_twoRecords⟩

end Blocks

end SharedCounters
