import SharedCounters.Proofs.Fresh
import SharedCounters.Proofs.Legibility
import SharedCounters.Proofs.Publishing
import SharedCounters.Proofs.StaticLookups

/-! What was published is read back. A region that was filled in is accepted as the blocks it was filled
in with, whatever it held before, and a reader finds the header and exactly the pairs of the map. -/

namespace SharedCounters

section Pairs

variable (offset : Nat) (pairs : List (String × String))

theorem StaticRecord.map_pair_ofPairs :
    (StaticRecord.ofPairs offset pairs).map StaticRecord.pair = pairs := by
  induction pairs generalizing offset with
  | nil => rfl
  | cons p rest ih =>
    rw [ofPairs, List.map_cons, ih]
    simp only [pair, Text.lossy_utf8]

theorem StaticRecord.find?_ofPairs (label : String) :
    ((StaticRecord.ofPairs offset pairs).find? fun record => record.label = Text.utf8 label).map
      (fun record => record.pair.2) = pairs.lookup label := by
  have texts : ∀ record ∈ ofPairs offset pairs, ∃ text, record.label = Text.utf8 text := by
    induction pairs generalizing offset with
    | nil => exact fun record h => absurd h List.not_mem_nil
    | cons p rest ih =>
      intro record h
      rcases List.mem_cons.1 h with rfl | h
      · exact ⟨p.1, rfl⟩
      · exact ih _ record h
  rw [← lookup_pairs texts, map_pair_ofPairs]

end Pairs

namespace Blocks

variable {n : Nat} (b : Blocks n)

/-- The header and the statics say that these are the blocks of the region. -/
structure Inscribed (m : Memory n) : Prop where
  version : headerWord b.region m headerAt.version = formatVersion
  staticsLen : (headerWord b.region m headerAt.staticsLen).toNat = b.partition.staticsLen
  metadataLen : (headerWord b.region m headerAt.metadataLen).toNat = b.partition.metadataLen
  valuesLen : (headerWord b.region m headerAt.valuesLen).toNat = b.partition.valuesLen
  statics : b.corruptAt m = none

variable {b} {m : Memory n}

theorem Inscribed.accept_eq (inscribed : b.Inscribed m) (aligned : b.Aligned) :
    accept b.region m = .ok (.ok b) := by
  have lengths := Partition.ofLengths_eq_ok inscribed.staticsLen inscribed.metadataLen inscribed.valuesLen
  rw [accept_eq_judge aligned m b.header_len_le, judge, inscribed.version, lengths]
  dsimp only
  rw [dif_pos b.fits, judgeStatics, inscribed.statics]
  rfl

theorem Inscribed.of_differsWithin {m' : Memory n} (inscribed : b.Inscribed m) {stop : Nat}
    (differs : m.DiffersWithin m' b.metadata.base stop) : b.Inscribed m' := by
  have start : b.metadata.base = b.region.base + (128 + b.partition.staticsLen) := rfl
  have base := b.statics_base
  have len := b.statics_len
  have pos := b.partition.pos
  have words : ∀ {offset}, offset + 4 ≤ 128 →
      headerWord b.region m' offset = headerWord b.region m offset := fun fits =>
    differs.wordAt_eq (Or.inl (by simp only [Word.size]; omega))
  have count : b.recordCount m' = b.recordCount m :=
    congrArg UInt32.toNat (differs.wordAt_eq (Or.inl (by
      obtain ⟨units, hunits⟩ := b.partition.staticsLen_dvd
      simp only [staticsAt, Word.size]
      omega)))
  obtain ⟨whole, -⟩ := recordsFrom_of_apart differs (Or.inl (by omega)) _ inscribed.statics
  constructor
  · exact (words (by decide)).trans inscribed.version
  · exact (congrArg UInt32.toNat (words (by decide))).trans inscribed.staticsLen
  · exact (congrArg UInt32.toNat (words (by decide))).trans inscribed.metadataLen
  · exact (congrArg UInt32.toNat (words (by decide))).trans inscribed.valuesLen
  · rw [corruptAt, count]
    exact whole

section Header

theorem wordAt_header_apart {α β : Type} [Word α] [Word β] {i j : Nat} (word : β)
    (header : j + Word.size β ≤ 128) (apart : i + Word.size α ≤ j ∨ j + Word.size β ≤ i) :
    (Window.wordAt (m.write (b.region.base + j) (Word.bytes word)) (b.region.base + i) : α) =
      Window.wordAt m (b.region.base + i) := by
  have len := b.header_len_le
  have stop := b.region.fits
  exact Window.wordAt_write_apart m (by rw [Word.length_bytes]; omega) (by rw [Word.length_bytes]; omega)

theorem wordAt_header_same {α : Type} [Word α] {i : Nat} (word : α) (header : i + Word.size α ≤ 128) :
    Window.wordAt (m.write (b.region.base + i) (Word.bytes word)) (b.region.base + i) = word := by
  have len := b.header_len_le
  have stop := b.region.fits
  exact Window.wordAt_write_same m word (by omega)

/-- Each field of the header is stored once, and none of them lies over another one. -/
structure HeaderWords (m : Memory n) (pid start : UInt64) : Prop where
  staticsLen : headerWord b.region m headerAt.staticsLen = UInt32.ofNat b.partition.staticsLen
  metadataLen : headerWord b.region m headerAt.metadataLen = UInt32.ofNat b.partition.metadataLen
  valuesLen : headerWord b.region m headerAt.valuesLen = UInt32.ofNat b.partition.valuesLen
  pid : Window.wordAt m (b.region.base + headerAt.pid) = pid
  start : Window.wordAt m (b.region.base + headerAt.start) = start

theorem headerWords_withHeader (pid start : UInt64) :
    b.HeaderWords (b.withHeader m pid start) pid start := by
  unfold withHeader
  constructor
  all_goals simp (disch := decide) only [headerWord, wordAt_header_apart, wordAt_header_same]

end Header

section Published

variable {statics : Statics} (room : b.room statics = .ok ()) (pid start : UInt64)

include room

/-- The statics and the version lie apart from the other fields of the header. -/
theorem wordAt_published {α : Type} [Word α] {i : Nat} (first : 4 ≤ i) (last : i + Word.size α ≤ 128) :
    (Window.wordAt (b.published m pid start statics) (b.region.base + i) : α) =
      Window.wordAt (b.withHeader m pid start) (b.region.base + i) := by
  have base := b.statics_base
  have version : headerAt.version + Word.size UInt32 = 4 := rfl
  rw [published, wordAt_header_apart formatVersion (by omega) (by omega)]
  exact (withStatics_differs room).wordAt_eq (Or.inl (by omega))

theorem headerWords_published : b.HeaderWords (b.published m pid start statics) pid start := by
  obtain ⟨staticsLen, metadataLen, valuesLen, storedPid, storedStart⟩ :=
    b.headerWords_withHeader (m := m) pid start
  constructor
  · exact (wordAt_published room pid start (by decide) (by decide)).trans staticsLen
  · exact (wordAt_published room pid start (by decide) (by decide)).trans metadataLen
  · exact (wordAt_published room pid start (by decide) (by decide)).trans valuesLen
  · exact (wordAt_published room pid start (by decide) (by decide)).trans storedPid
  · exact (wordAt_published room pid start (by decide) (by decide)).trans storedStart

omit room in
theorem version_published :
    headerWord b.region (b.published m pid start statics) headerAt.version = formatVersion :=
  wordAt_header_same formatVersion (by decide)

theorem records_published : b.corruptAt (b.published m pid start statics) = none ∧
    b.records (b.published m pid start statics) = StaticRecord.ofPairs staticsAt.records statics.pairs := by
  have base := b.statics_base
  have len := b.header_len_le
  have stop := b.region.fits
  obtain ⟨whole, records⟩ := records_withStatics (m := b.withHeader m pid start) room
  have announced : (b.withStatics (b.withHeader m pid start) statics).DiffersWithin
      (b.published m pid start statics) b.region.base b.statics.base := by
    have version : (Word.bytes formatVersion).length = 4 := rfl
    refine Memory.differsWithin_write _ ?_ (Nat.le_add_right _ _) ?_
    all_goals simp only [headerAt]; omega
  have count : b.recordCount (b.published m pid start statics) =
      b.recordCount (b.withStatics (b.withHeader m pid start) statics) :=
    congrArg UInt32.toNat (announced.wordAt_eq (Or.inr (Nat.le_add_right _ _)))
  obtain ⟨whole', same⟩ := recordsFrom_of_apart announced (Or.inr (Nat.le_add_right _ _)) _ whole
  rw [corruptAt, Blocks.records, count]
  exact ⟨whole', same.trans records⟩

theorem inscribed_published : b.Inscribed (b.published m pid start statics) := by
  have slots := b.partition.le
  have lt := b.partition.lt
  have words := headerWords_published (m := m) room pid start
  have small : b.partition.metadataLen < UInt32.size ∧ b.partition.valuesLen < UInt32.size := by
    simp only [Partition.metadataLen, metadataLenFor, metadataAt, Partition.valuesLen, valuesLenFor,
      valueAt, counterLimit, UInt32.size] at slots ⊢
    omega
  constructor
  case version => exact version_published pid start
  case staticsLen => rw [words.staticsLen]; exact UInt32.toNat_ofNat_of_lt' lt
  case metadataLen => rw [words.metadataLen]; exact UInt32.toNat_ofNat_of_lt' small.1
  case valuesLen => rw [words.valuesLen]; exact UInt32.toNat_ofNat_of_lt' small.2
  case statics => exact (records_published room pid start).1

end Published

/-- Whatever the region held before, filling it in with a map that has room makes it one that is accepted
as these blocks and in which a reader finds the process, the time and the pairs of the map, by the order
of their labels and by label. What was put in for each label last decides every byte. -/
theorem published_is_read_back (b : Blocks n) (aligned : b.Aligned) {statics : Statics} {needed : Nat}
    (len : statics.blockLen = .ok needed) (fits : needed ≤ b.partition.staticsLen) (pid start : UInt64)
    (m : Memory n) :
    split b.region b.partition = .ok b ∧
    (∃ m', b.publish pid start statics m = .ok (.ok ()) m' ∧
      accept b.region m' = .ok (.ok b) ∧
      b.version m' = .ok 1 ∧ b.pid m' = .ok pid ∧ b.start m' = .ok start ∧
      b.staticPairs m' = .ok statics.pairs ∧
      (statics.pairs.Pairwise fun p q => Text.utf8 p.1 < Text.utf8 q.1) ∧
      ∀ label, b.staticFor label m' = .ok (statics.get? label)) ∧
    ∀ inserted : List (String × String), (∀ label, inserted.reverse.lookup label = statics.get? label) →
      b.publish pid start (inserted.foldl (fun s p => s.insert p.1 p.2) .empty) m =
        b.publish pid start statics m := by
  have room : b.room statics = .ok () := room_eq_ok_iff.2 ⟨needed, len, fits⟩
  have words := headerWords_published (m := m) room pid start
  refine ⟨b.split_region, ⟨b.published m pid start statics, ?_, ?_, ?_, ?_, ?_, ?_, statics.sorted,
    fun label => ?_⟩, fun inserted last => ?_⟩
  · rw [publish_eq aligned, room]
  · exact (inscribed_published room pid start).accept_eq aligned
  · rw [version_eq aligned, version_published]
    rfl
  · rw [pid_eq aligned, words.pid]
  · rw [start_eq aligned, words.start]
  · rw [staticPairs_eq aligned, (records_published room pid start).2, StaticRecord.map_pair_ofPairs]
  · rw [staticFor_eq aligned, (records_published room pid start).2, StaticRecord.find?_ofPairs]
    rfl
  · have same : inserted.foldl (fun s p => s.insert p.1 p.2) .empty = statics := by
      rw [← Statics.ofList_eq_foldl]
      exact Statics.ext_get? fun label => (Statics.get?_ofList inserted label).trans (last label)
    rw [same]

/-- The empty value is stored too, and the first value of a label that is given twice is not. -/
def givenPairs : List (String × String) := [("b", "x"), ("a", "old"), ("a", "")]

def stale : Memory 896 := (Memory.zero 896).write 0 (List.replicate 896 255)

theorem published_over_stale_bytes :
    oneSlot.Aligned ∧ (Statics.ofList givenPairs).blockLen = .ok 128 ∧ 128 ≤ oneSlot.partition.staticsLen ∧
      (∀ label, givenPairs.reverse.lookup label = (Statics.ofList givenPairs).get? label) ∧
      ∃ m', oneSlot.publish 7 9 (Statics.ofList givenPairs) stale = .ok (.ok ()) m' ∧
        oneSlot.staticPairs m' = .ok [("a", ""), ("b", "x")] := by
  have aligned : oneSlot.Aligned := rfl
  have len : (Statics.ofList givenPairs).blockLen = .ok 128 := by decide +kernel
  have fits : 128 ≤ oneSlot.partition.staticsLen := Nat.le_refl _
  have last : ∀ label, givenPairs.reverse.lookup label = (Statics.ofList givenPairs).get? label :=
    fun label => (Statics.get?_ofList givenPairs label).symm
  obtain ⟨-, ⟨m', run, -, -, -, -, pairs, -⟩, -⟩ := published_is_read_back oneSlot aligned len fits 7 9 stale
  have ordered : (Statics.ofList givenPairs).pairs = [("a", ""), ("b", "x")] := by decide +kernel
  exact ⟨aligned, len, fits, last, m', run, ordered ▸ pairs⟩

end Blocks

end SharedCounters
