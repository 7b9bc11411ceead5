import SharedCounters.Proofs.Frames
import SharedCounters.Proofs.RecordWalk
import SharedCounters.Writing.Publish

/-! What filling in an aligned region leaves in it. Records are stored one behind the other, each within
its own length, so none of them harms those before it, and a walk over the block meets exactly these
records, whatever lies in the padding and behind the last one. -/

namespace SharedCounters

theorem Text.length_utf8 (text : String) : (Text.utf8 text).length = text.utf8ByteSize := rfl

namespace Statics

def pairLen (p : String × String) : Nat := recordLen p.1.utf8ByteSize p.2.utf8ByteSize

theorem recordsLen_cons (p : String × String) (rest : List (String × String)) :
    recordsLen (p :: rest) = pairLen p + recordsLen rest := rfl

theorem le_pairLen (p : String × String) : 8 + p.1.utf8ByteSize + p.2.utf8ByteSize ≤ pairLen p :=
  le_roundUp _ (by decide)

theorem pairLen_mod (p : String × String) : pairLen p % 4 = 0 :=
  Nat.mod_eq_zero_of_dvd (dvd_roundUp _ 4)

theorem length_le_recordsLen (pairs : List (String × String)) : pairs.length ≤ recordsLen pairs := by
  induction pairs with
  | nil => exact Nat.zero_le _
  | cons p rest ih =>
    have := le_pairLen p
    rw [recordsLen_cons, List.length_cons]
    omega

end Statics

def StaticRecord.ofPairs (offset : Nat) : List (String × String) → List StaticRecord
  | [] => []
  | p :: rest => ⟨offset, Text.utf8 p.1, Text.utf8 p.2⟩ :: ofPairs (offset + Statics.pairLen p) rest

namespace Blocks

variable {n : Nat} (b : Blocks n)

def withTexts (m : Memory n) (offset : Nat) (p : String × String) : Memory n :=
  (m.write (b.statics.base + (offset + staticsAt.label)) (Text.utf8 p.1)).write
    (b.statics.base + (offset + staticsAt.label) + p.1.utf8ByteSize) (Text.utf8 p.2)

def withRecord (m : Memory n) (offset : Nat) (p : String × String) : Memory n :=
  ((b.withTexts m offset p).write (b.statics.base + (offset + staticsAt.labelLen))
    (Word.bytes (UInt32.ofNat p.1.utf8ByteSize))).write (b.statics.base + (offset + staticsAt.valueLen))
    (Word.bytes (UInt32.ofNat p.2.utf8ByteSize))

def withRecords (m : Memory n) (offset : Nat) : List (String × String) → Memory n
  | [] => m
  | p :: rest => withRecords (b.withRecord m offset p) (offset + Statics.pairLen p) rest

def withStatics (m : Memory n) (statics : Statics) : Memory n :=
  (b.withRecords m staticsAt.records statics.pairs).write (b.statics.base + staticsAt.count)
    (Word.bytes (UInt32.ofNat statics.pairs.length))

def withHeader (m : Memory n) (pid start : UInt64) : Memory n :=
  let base := b.region.base
  ((((m.write (base + headerAt.staticsLen) (Word.bytes (UInt32.ofNat b.partition.staticsLen))).write
    (base + headerAt.metadataLen) (Word.bytes (UInt32.ofNat b.partition.metadataLen))).write
    (base + headerAt.valuesLen) (Word.bytes (UInt32.ofNat b.partition.valuesLen))).write
    (base + headerAt.pid) (Word.bytes pid)).write (base + headerAt.start) (Word.bytes start)

/-- A region that was filled in. -/
def published (m : Memory n) (pid start : UInt64) (statics : Statics) : Memory n :=
  (b.withStatics (b.withHeader m pid start) statics).write (b.region.base + headerAt.version)
    (Word.bytes formatVersion)

def room (statics : Statics) : Except BadRequest Unit :=
  match statics.blockLen with
  | .error cause => .error cause
  | .ok needed =>
    if b.partition.staticsLen < needed then
      .error (.staticsOverflow needed b.partition.staticsLen)
    else .ok ()

theorem statics_end : b.statics.base + b.statics.len ≤ n := b.statics.fits

theorem statics_len_lt : b.statics.len < UInt32.size := b.partition.lt

theorem header_len_le : 128 ≤ b.region.len := Nat.le_trans (Nat.le_of_eq (Nat.zero_add _).symm) b.header_le

variable {b} {m : Memory n} {offset : Nat} {p : String × String} {pairs : List (String × String)}

theorem room_eq_ok_iff {statics : Statics} : b.room statics = .ok () ↔
    ∃ needed, statics.blockLen = .ok needed ∧ needed ≤ b.partition.staticsLen := by
  rw [room]
  cases statics.blockLen with
  | error cause => simp
  | ok needed => simp

theorem records_fit {statics : Statics} (h : b.room statics = .ok ()) :
    staticsAt.records + Statics.recordsLen statics.pairs ≤ b.statics.len := by
  obtain ⟨needed, len, le⟩ := room_eq_ok_iff.1 h
  have exact := le_roundUp (4 + Statics.recordsLen statics.pairs) (show 0 < 128 by decide)
  rw [(Statics.blockLen_eq_ok len).1] at le
  rw [statics_len]
  simp only [staticsAt]
  omega

section Record

variable (fits : offset + Statics.pairLen p ≤ b.statics.len)

include fits

theorem withTexts_differs : m.DiffersWithin (b.withTexts m offset p)
    (b.statics.base + (offset + staticsAt.label))
    (b.statics.base + (offset + (8 + p.1.utf8ByteSize + p.2.utf8ByteSize))) := by
  have whole := Statics.le_pairLen p
  have stop := b.statics_end
  have label := Text.length_utf8 p.1
  have value := Text.length_utf8 p.2
  unfold withTexts
  simp only [staticsAt]
  exact (Memory.differsWithin_write m (by omega) (by omega) (by omega)).trans
    (Memory.differsWithin_write _ (by omega) (by omega) (by omega))

theorem withRecord_differs : m.DiffersWithin (b.withRecord m offset p) (b.statics.base + offset)
    (b.statics.base + (offset + (8 + p.1.utf8ByteSize + p.2.utf8ByteSize))) := by
  have whole := Statics.le_pairLen p
  have stop := b.statics_end
  have label : (Word.bytes (UInt32.ofNat p.1.utf8ByteSize)).length = 4 := Word.length_bytes _
  have value : (Word.bytes (UInt32.ofNat p.2.utf8ByteSize)).length = 4 := Word.length_bytes _
  have texts := withTexts_differs (m := m) fits
  unfold withRecord
  simp only [staticsAt] at texts ⊢
  exact ((texts.mono (by omega) (Nat.le_refl _)).trans
    (Memory.differsWithin_write _ (by omega) (by omega) (by omega))).trans
    (Memory.differsWithin_write _ (by omega) (by omega) (by omega))

/-- A record that was stored is met as it was given: each of its fields is read past the writes that
came after it. -/
theorem recordIn_withRecord : b.recordIn (b.withRecord m offset p) offset =
    some ⟨offset, Text.utf8 p.1, Text.utf8 p.2⟩ := by
  have whole := Statics.le_pairLen p
  have stop := b.statics_end
  have small := b.statics_len_lt
  have label := Text.length_utf8 p.1
  have value := Text.length_utf8 p.2
  have labelWord : (Word.bytes (UInt32.ofNat p.1.utf8ByteSize)).length = 4 := Word.length_bytes _
  have valueWord : (Word.bytes (UInt32.ofNat p.2.utf8ByteSize)).length = 4 := Word.length_bytes _
  have labelSmall : (UInt32.ofNat p.1.utf8ByteSize).toNat = p.1.utf8ByteSize :=
    UInt32.toNat_ofNat_of_lt' (by omega)
  have valueSmall : (UInt32.ofNat p.2.utf8ByteSize).toNat = p.2.utf8ByteSize :=
    UInt32.toNat_ofNat_of_lt' (by omega)
  have lengths : (b.withTexts m offset p).DiffersWithin (b.withRecord m offset p)
      (b.statics.base + offset) (b.statics.base + (offset + staticsAt.label)) := by
    unfold withRecord
    simp only [staticsAt]
    exact (Memory.differsWithin_write _ (by omega) (by omega) (by omega)).trans
      (Memory.differsWithin_write _ (by omega) (by omega) (by omega))
  have labelLen : b.staticsWord (b.withRecord m offset p) (offset + staticsAt.labelLen) =
      UInt32.ofNat p.1.utf8ByteSize := by
    unfold withRecord
    rw [staticsWord, Window.wordAt_write_apart _ (by simp only [staticsAt]; omega)
      (by simp only [staticsAt, Word.size]; omega)]
    exact Window.wordAt_write_same _ _ (by simp only [staticsAt, Word.size]; omega)
  have valueLen : b.staticsWord (b.withRecord m offset p) (offset + staticsAt.valueLen) =
      UInt32.ofNat p.2.utf8ByteSize := by
    unfold withRecord
    rw [staticsWord]
    exact Window.wordAt_write_same _ _ (by simp only [staticsAt, Word.size]; omega)
  have labelBytes : (b.withRecord m offset p).read (b.statics.base + (offset + staticsAt.label))
      p.1.utf8ByteSize = Text.utf8 p.1 := by
    rw [lengths.read_eq (Or.inr (Nat.le_refl _)), withTexts,
      Memory.read_write_apart _ (by simp only [staticsAt]; omega) (by simp only [staticsAt]; omega), ← label]
    exact Memory.read_write_same _ (by simp only [staticsAt]; omega)
  have valueBytes : (b.withRecord m offset p).read
      (b.statics.base + (offset + staticsAt.label) + p.1.utf8ByteSize) p.2.utf8ByteSize =
      Text.utf8 p.2 := by
    rw [lengths.read_eq (by omega), withTexts, ← value]
    exact Memory.read_write_same _ (by simp only [staticsAt]; omega)
  have recordEnd : b.recordEnd (b.withRecord m offset p) offset = offset + Statics.pairLen p := by
    rw [Blocks.recordEnd, labelLen, valueLen, labelSmall, valueSmall]
    rfl
  rw [recordIn, recordEnd, if_pos fits, labelLen, valueLen, labelSmall, valueSmall]
  dsimp only
  rw [labelBytes, valueBytes]

end Record

/-- Changes that are apart from a record leave it as it was. -/
theorem recordIn_of_apart {m' : Memory n} {first stop : Nat} {record : StaticRecord}
    (found : b.recordIn m offset = some record) (differs : m.DiffersWithin m' first stop)
    (apart : b.statics.base + record.next ≤ first ∨ stop ≤ b.statics.base + offset) :
    b.recordIn m' offset = some record := by
  obtain ⟨next, fits⟩ := b.next_of_recordIn found
  have whole := le_roundUp (8 + (b.staticsWord m (offset + staticsAt.labelLen)).toNat
    + (b.staticsWord m (offset + staticsAt.valueLen)).toNat) (show 0 < 4 by decide)
  have total : offset + roundUp _ 4 = b.recordEnd m offset := rfl
  have labelLen : b.staticsWord m' (offset + staticsAt.labelLen) =
      b.staticsWord m (offset + staticsAt.labelLen) :=
    differs.wordAt_eq (by simp only [staticsAt, Word.size] at whole total ⊢; omega)
  have valueLen : b.staticsWord m' (offset + staticsAt.valueLen) =
      b.staticsWord m (offset + staticsAt.valueLen) :=
    differs.wordAt_eq (by simp only [staticsAt, Word.size] at whole total ⊢; omega)
  have recordEnd : b.recordEnd m' offset = b.recordEnd m offset := by
    rw [Blocks.recordEnd, labelLen, valueLen, Blocks.recordEnd]
  rw [← found, recordIn, recordIn, recordEnd, labelLen, valueLen, if_pos fits, if_pos fits]
  simp only [staticsAt] at whole total ⊢
  rw [differs.read_eq (by omega), differs.read_eq (by omega)]

/-- Changes beyond the block, or before the first record, leave every record as it was. -/
theorem recordsFrom_of_apart {m' : Memory n} {first stop : Nat} (differs : m.DiffersWithin m' first stop)
    (apart : b.statics.base + b.statics.len ≤ first ∨ stop ≤ b.statics.base + offset) (count : Nat)
    (whole : b.corruptFrom m count offset = none) :
    b.corruptFrom m' count offset = none ∧ b.recordsFrom m' count offset = b.recordsFrom m count offset := by
  induction count generalizing offset with
  | zero => exact ⟨rfl, rfl⟩
  | succ count ih =>
    rw [corruptFrom] at whole
    cases found : b.recordIn m offset with
    | none => simp [found] at whole
    | some record =>
      obtain ⟨next, fits⟩ := b.next_of_recordIn found
      have far := b.le_recordEnd m offset
      rw [found] at whole
      obtain ⟨whole', same⟩ := ih (by omega) whole
      rw [corruptFrom, recordsFrom, recordsFrom, recordIn_of_apart found differs (by omega), found]
      exact ⟨whole', congrArg (List.cons record) same⟩

theorem withRecords_differs (fits : offset + Statics.recordsLen pairs ≤ b.statics.len) :
    m.DiffersWithin (b.withRecords m offset pairs) (b.statics.base + offset)
      (b.statics.base + (offset + Statics.recordsLen pairs)) := by
  induction pairs generalizing m offset with
  | nil => exact .refl m _ _
  | cons p rest ih =>
    rw [Statics.recordsLen_cons] at fits ⊢
    have whole := Statics.le_pairLen p
    have first := withRecord_differs (m := m) (show offset + Statics.pairLen p ≤ b.statics.len by omega)
    have later := @ih (b.withRecord m offset p) (offset + Statics.pairLen p) (by omega)
    exact (first.mono (Nat.le_refl _) (by omega)).trans (later.mono (by omega) (by omega))

/-- A walk meets the records that were stored, and none that does not fit. -/
theorem records_withRecords (fits : offset + Statics.recordsLen pairs ≤ b.statics.len) :
    b.corruptFrom (b.withRecords m offset pairs) pairs.length offset = none ∧
      b.recordsFrom (b.withRecords m offset pairs) pairs.length offset =
        StaticRecord.ofPairs offset pairs := by
  induction pairs generalizing m offset with
  | nil => exact ⟨rfl, rfl⟩
  | cons p rest ih =>
    rw [Statics.recordsLen_cons] at fits
    have stored := recordIn_withRecord (m := m) (show offset + Statics.pairLen p ≤ b.statics.len by omega)
    have later := withRecords_differs (m := b.withRecord m offset p)
      (show offset + Statics.pairLen p + Statics.recordsLen rest ≤ b.statics.len by omega)
    have kept := recordIn_of_apart stored later (Or.inl (Nat.le_refl _))
    obtain ⟨whole, records⟩ := @ih (b.withRecord m offset p) (offset + Statics.pairLen p) (by omega)
    rw [List.length_cons, withRecords, corruptFrom, recordsFrom, kept]
    exact ⟨whole, congrArg (List.cons _) records⟩

section Statics

variable {statics : Statics} (h : b.room statics = .ok ())

include h

theorem withStatics_differs : m.DiffersWithin (b.withStatics m statics) b.statics.base
    (b.statics.base + (staticsAt.records + Statics.recordsLen statics.pairs)) := by
  have fits := records_fit h
  have stop := b.statics_end
  have count : (Word.bytes (UInt32.ofNat statics.pairs.length)).length = 4 := Word.length_bytes _
  have records := withRecords_differs (m := m) fits
  unfold withStatics
  simp only [staticsAt] at fits records ⊢
  exact (records.mono (by omega) (Nat.le_refl _)).trans
    (Memory.differsWithin_write _ (by omega) (by omega) (by omega))

theorem records_withStatics : b.corruptAt (b.withStatics m statics) = none ∧
    b.records (b.withStatics m statics) = StaticRecord.ofPairs staticsAt.records statics.pairs := by
  have fits := records_fit h
  have stop := b.statics_end
  have small := b.statics_len_lt
  have few := Statics.length_le_recordsLen statics.pairs
  have count : b.recordCount (b.withStatics m statics) = statics.pairs.length := by
    simp only [staticsAt] at fits
    have stored : b.staticsWord (b.withStatics m statics) staticsAt.count =
        UInt32.ofNat statics.pairs.length := by
      unfold withStatics
      rw [staticsWord]
      exact Window.wordAt_write_same _ _ (by simp only [staticsAt, Word.size]; omega)
    rw [recordCount, stored]
    exact UInt32.toNat_ofNat_of_lt' (by omega)
  obtain ⟨whole, records⟩ := records_withRecords (m := m) fits
  have counted : (b.withRecords m staticsAt.records statics.pairs).DiffersWithin (b.withStatics m statics)
      b.statics.base (b.statics.base + staticsAt.records) := by
    have word : (Word.bytes (UInt32.ofNat statics.pairs.length)).length = 4 := Word.length_bytes _
    unfold withStatics
    simp only [staticsAt] at fits ⊢
    exact Memory.differsWithin_write _ (by omega) (by omega) (by omega)
  obtain ⟨whole', same⟩ := recordsFrom_of_apart counted (Or.inr (Nat.le_refl _)) _ whole
  rw [corruptAt, Blocks.records, count]
  exact ⟨whole', same.trans records⟩

end Statics

/-- The version is not among the fields that are stored first. -/
theorem withHeader_within (pid start : UInt64) :
    m.DiffersWithin (b.withHeader m pid start) (b.region.base + 4) (b.region.base + 32) := by
  have len := b.header_len_le
  have stop := b.region.fits
  have write : ∀ {α : Type} [Word α] (m : Memory n) {i : Nat} (word : α), 4 ≤ i → i + Word.size α ≤ 32 →
      m.DiffersWithin (m.write (b.region.base + i) (Word.bytes word)) (b.region.base + 4)
        (b.region.base + 32) :=
    fun m i word behind header => m.differsWithin_write (by rw [Word.length_bytes]; omega) (by omega)
      (by rw [Word.length_bytes]; omega)
  exact ((((write m _ (by decide) (by decide)).trans (write _ _ (by decide) (by decide))).trans
    (write _ _ (by decide) (by decide))).trans (write _ _ (by decide) (by decide))).trans
    (write _ _ (by decide) (by decide))

theorem published_differs {statics : Statics} (room : b.room statics = .ok ()) (pid start : UInt64) :
    m.DiffersWithin (b.published m pid start statics) b.region.base b.metadata.base := by
  have base := b.statics_base
  have len := b.statics_len
  have slots : b.metadata.base = b.region.base + (128 + b.partition.staticsLen) := rfl
  have stop := b.statics_end
  have fits := records_fit room
  have version : (Word.bytes formatVersion).length = 4 := rfl
  have header := withHeader_within (b := b) (m := m) pid start
  refine ((header.mono (by omega) (by omega)).trans
    ((withStatics_differs room).mono (by omega) (by omega))).trans
    (Memory.differsWithin_write _ ?_ (Nat.le_add_right _ _) ?_)
  all_goals simp only [headerAt]; omega

section Storing

variable (aligned : b.Aligned)

include aligned

theorem storeStaticsWord_eq (offset : Nat) (fits : offset + 4 ≤ b.statics.len) (h : offset % 4 = 0)
    (word : UInt32) (order : Order) (admitted : order.storeClash = none) (m : Memory n) :
    b.statics.store offset word order m =
      .ok () (m.write (b.statics.base + offset) (Word.bytes word)) := by
  have base := b.statics_base
  unfold Aligned at aligned
  exact b.statics.store_eq fits (by simp only [Word.size]; omega) admitted word m

theorem storeRecords_eq (h : offset % 4 = 0) (fits : offset + Statics.recordsLen pairs ≤ b.statics.len)
    (m : Memory n) : b.storeRecords offset pairs m = .ok () (b.withRecords m offset pairs) := by
  induction pairs generalizing m offset with
  | nil => rfl
  | cons p rest ih =>
    rw [Statics.recordsLen_cons] at fits
    have whole := Statics.le_pairLen p
    have next := Statics.pairLen_mod p
    have label := Text.length_utf8 p.1
    have value := Text.length_utf8 p.2
    have storeLabel : ∀ m, b.statics.storeBytes (offset + staticsAt.label) (Text.utf8 p.1) m =
        .ok () (m.write (b.statics.base + (offset + staticsAt.label)) (Text.utf8 p.1)) := fun m =>
      b.statics.storeBytes_eq (by simp only [staticsAt]; omega) m
    have storeValue : ∀ m,
        b.statics.storeBytes (offset + staticsAt.label + p.1.utf8ByteSize) (Text.utf8 p.2) m =
        .ok () (m.write (b.statics.base + (offset + staticsAt.label + p.1.utf8ByteSize))
          (Text.utf8 p.2)) := fun m =>
      b.statics.storeBytes_eq (by simp only [staticsAt]; omega) m
    have storeLabelLen := storeStaticsWord_eq aligned (offset + staticsAt.labelLen)
      (by simp only [staticsAt]; omega) (by simp only [staticsAt]; omega)
      (UInt32.ofNat p.1.utf8ByteSize) .relaxed rfl
    have storeValueLen := storeStaticsWord_eq aligned (offset + staticsAt.valueLen)
      (by simp only [staticsAt]; omega) (by simp only [staticsAt]; omega)
      (UInt32.ofNat p.2.utf8ByteSize) .relaxed rfl
    have later := @ih (offset + Statics.pairLen p) (by omega) (by omega)
    rw [storeRecords]
    simp only [bind, EStateM.bind, storeLabel, storeValue, storeLabelLen, storeValueLen]
    rw [withRecords, withRecord, withTexts, Nat.add_assoc b.statics.base]
    exact later _

/-- A map that has no room is refused before the block is touched. -/
theorem storeStatics_eq (statics : Statics) (m : Memory n) : b.storeStatics statics m =
    match b.room statics with
    | .error cause => .ok (.error cause) m
    | .ok () => .ok (.ok ()) (b.withStatics m statics) := by
  cases verdict : b.room statics with
  | error cause =>
    rw [room] at verdict
    rw [storeStatics]
    cases len : statics.blockLen with
    | error other =>
      rw [len] at verdict
      cases verdict
      rfl
    | ok needed =>
      simp only [len] at verdict ⊢
      split_ifs at verdict with few
      cases verdict
      rw [if_pos few]
      rfl
  | ok _ =>
    obtain ⟨needed, len, le⟩ := room_eq_ok_iff.1 verdict
    have fits := records_fit verdict
    have pos : staticsAt.records ≤ b.statics.len := by omega
    have start : staticsAt.records % 4 = 0 := rfl
    have records := storeRecords_eq aligned start fits m
    have count := storeStaticsWord_eq aligned staticsAt.count pos rfl
      (UInt32.ofNat statics.pairs.length) .release rfl
    rw [storeStatics, len]
    dsimp only
    rw [if_neg (Nat.not_lt_of_le le)]
    simp only [bind, EStateM.bind, records, count]
    rfl

theorem storeHeader_eq {α : Type} [Word α] (offset : Nat) (fits : offset + Word.size α ≤ 128)
    (whole : Word.size α ∣ offset) (size : Word.size α ∣ 8) (word : α) (order : Order)
    (admitted : order.storeClash = none) (m : Memory n) : b.header.store offset word order m =
      .ok () (m.write (b.region.base + offset) (Word.bytes word)) := by
  have len : b.header.len = 128 := rfl
  have start : Word.size α ∣ b.region.base := Nat.dvd_trans size (Nat.dvd_of_mod_eq_zero aligned)
  exact b.header.store_eq (by omega) (Nat.mod_eq_zero_of_dvd (Nat.dvd_add start whole)) admitted word m

/-- The lengths of a partition fit 32 bits, so none of them is refused. -/
theorem storeLengths_eq (m : Memory n) : b.storeLengths b.lengths m = .ok (.ok ())
    (((m.write (b.region.base + headerAt.staticsLen)
      (Word.bytes (UInt32.ofNat b.partition.staticsLen))).write
      (b.region.base + headerAt.metadataLen) (Word.bytes (UInt32.ofNat b.partition.metadataLen))).write
      (b.region.base + headerAt.valuesLen) (Word.bytes (UInt32.ofNat b.partition.valuesLen))) := by
  have staticsLen := storeHeader_eq aligned headerAt.staticsLen (by decide) (by decide)
    (by decide) (UInt32.ofNat b.partition.staticsLen) .relaxed rfl
  have metadataLen := storeHeader_eq aligned headerAt.metadataLen (by decide) (by decide)
    (by decide) (UInt32.ofNat b.partition.metadataLen) .relaxed rfl
  have valuesLen := storeHeader_eq aligned headerAt.valuesLen (by decide) (by decide)
    (by decide) (UInt32.ofNat b.partition.valuesLen) .relaxed rfl
  simp only [lengths, storeLengths, if_pos b.partition.lt, if_pos b.partition.metadataLen_lt,
    if_pos b.partition.valuesLen_lt, bind, EStateM.bind, staticsLen, metadataLen, valuesLen]
  rfl

/-- Filling in a region ends with an answer, and the version is stored only if the map has room. -/
theorem publish_eq (pid start : UInt64) (statics : Statics) (m : Memory n) :
    b.publish pid start statics m =
      match b.room statics with
      | .error cause => .ok (.error cause) (b.withHeader m pid start)
      | .ok () => .ok (.ok ()) (b.published m pid start statics) := by
  have storePid := storeHeader_eq aligned headerAt.pid (by decide) (by decide)
    (by decide) pid .release rfl
  have storeStart := storeHeader_eq aligned headerAt.start (by decide) (by decide)
    (by decide) start .release rfl
  have storeVersion := storeHeader_eq aligned headerAt.version (by decide) (by decide)
    (by decide) formatVersion .release rfl
  have store := storeStatics_eq aligned statics
  rw [publish]
  simp only [bind, EStateM.bind, storeLengths_eq aligned, storePid, storeStart, store]
  cases b.room statics with
  | error cause => rfl
  | ok _ =>
    simp only [announce, EStateM.bind, storeVersion]
    rfl

end Storing

end Blocks

end SharedCounters
