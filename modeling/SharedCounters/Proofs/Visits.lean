import SharedCounters.Proofs.FlatMemory
import SharedCounters.Proofs.StaticLookups
import SharedCounters.Proofs.Tiling

/-! How far a walk over the statics gets. A block may claim any number of records, and a record any
lengths. Those that are visited still lie side by side behind the count, and each has room for its two
lengths, so it is the block that bounds how many are visited, and not what it claims. -/

namespace SharedCounters

namespace StaticRecord

/-- Where the two lengths, the label and the value lie. -/
def parts (r : StaticRecord) : List Span :=
  [⟨r.offset, 8⟩, ⟨r.offset + 8, r.label.length⟩, ⟨r.offset + 8 + r.label.length, r.value.length⟩]

theorem parts_apart (r : StaticRecord) : r.parts.Pairwise Span.Apart := by
  apply Span.pairwise_apart
  simp [parts, Span.stop]

end StaticRecord

namespace Visit

variable {α : Type}

def next? : Visit α → Option α
  | .go state => some state
  | .done _ => none

/-- Visits that also keep what they were shown. -/
def recorded (visit : α → StaticRecord → Visit α) (s : α × List StaticRecord) (record : StaticRecord) :
    Visit (α × List StaticRecord) :=
  match visit s.1 record with
  | .go state => .go (state, s.2 ++ [record])
  | .done state => .done (state, s.2 ++ [record])

/-- What visits one after the other leave, if none of them ends the walk. -/
def passing (visit : α → StaticRecord → Visit α) (records : List StaticRecord) (state : α) : Option α :=
  records.foldlM (fun state record => (visit state record).next?) state

theorem passing_cons (visit : α → StaticRecord → Visit α) (record : StaticRecord)
    (rest : List StaticRecord) (state : α) : passing visit (record :: rest) state =
      (visit state record).next?.bind (passing visit rest) := by
  rw [passing, List.foldlM_cons]
  rfl

theorem passing_append_done {visit : α → StaticRecord → Visit α} {before : List StaticRecord}
    {last : StaticRecord} {state reached final : α} (went : passing visit before state = some reached)
    (asked : visit reached last = .done final) : passing visit (before ++ [last]) state = none := by
  rw [passing] at went
  rw [passing, List.foldlM_append, went]
  simp [next?, asked]

end Visit

namespace Walk

variable {α : Type} (visit : α → StaticRecord → Visit α) (corruptAt : Option Nat)

def visited : List StaticRecord → α → List StaticRecord
  | [], _ => []
  | record :: rest, state =>
    record :: match visit state record with
      | .go state => visited rest state
      | .done _ => []

theorem visited_prefix (records : List StaticRecord) (state : α) :
    visited visit records state <+: records := by
  induction records generalizing state with
  | nil => exact List.prefix_refl []
  | cons record rest ih =>
    rw [visited]
    refine List.cons_prefix_cons.2 ⟨rfl, ?_⟩
    cases visit state record with
    | go state => exact ih state
    | done state => exact List.nil_prefix

theorem along_recorded (records seen : List StaticRecord) (state : α) :
    along (Visit.recorded visit) corruptAt records (state, seen) =
      ⟨((along visit corruptAt records state).state, seen ++ visited visit records state),
        (along visit corruptAt records state).corruptAt⟩ := by
  induction records generalizing seen state with
  | nil => simp [along, visited]
  | cons record rest ih =>
    simp only [along, visited, Visit.recorded]
    cases visit state record with
    | go state => simpa using ih (seen ++ [record]) state
    | done state => rfl

theorem along_cases (records : List StaticRecord) (state : α) :
    (visited visit records state = records ∧ ∃ final, Visit.passing visit records state = some final ∧
      along visit corruptAt records state = ⟨final, corruptAt⟩) ∨
    ∃ before last reached final, visited visit records state = before ++ [last] ∧
      Visit.passing visit before state = some reached ∧ visit reached last = .done final ∧
      along visit corruptAt records state = ⟨final, none⟩ := by
  -- along the records; the state that a visit leaves is the one that the rest is visited in
  induction records generalizing state with
  | nil => exact Or.inl ⟨rfl, state, rfl, rfl⟩
  | cons record rest ih =>
    cases answer : visit state record with
    | done final =>
      refine Or.inr ⟨[], record, state, final, ?_, rfl, answer, ?_⟩
      · simp only [visited, answer, List.nil_append]
      · simp only [along, answer]
    | go next =>
      have first : visited visit (record :: rest) state = record :: visited visit rest next := by
        simp only [visited, answer]
      have onward : along visit corruptAt (record :: rest) state = along visit corruptAt rest next := by
        simp only [along, answer]
      have passes : ∀ records, Visit.passing visit (record :: records) state =
          Visit.passing visit records next := by
        intro records
        rw [Visit.passing_cons, answer]
        rfl
      rw [first, onward, passes]
      rcases ih next with ⟨all, final, went, ends⟩ |
        ⟨before, last, reached, final, split, went, asked, ends⟩
      · exact Or.inl ⟨by rw [all], final, went, ends⟩
      · refine Or.inr ⟨record :: before, last, reached, final, by rw [split]; rfl, ?_, asked, ends⟩
        rw [passes, went]

end Walk

namespace RegionFormat

variable {block : List UInt8} {visited : List StaticRecord}

theorem texts_le_recordEnd (block : List UInt8) (offset : Nat) :
    offset + 8 + fieldAt block offset + fieldAt block (offset + 4) ≤ recordEnd block offset :=
  le_roundUp _ (by decide)

theorem recordOffset_add_le (block : List UInt8) (i k : Nat) :
    recordOffset block i + 8 * k ≤ recordOffset block (i + k) := by
  induction k with
  | zero => exact Nat.le_refl _
  | succ k ih =>
    have step : recordOffset block (i + k) + 8 ≤ recordOffset block (i + (k + 1)) := le_recordEnd block _
    omega

theorem recordOffset_mono (block : List UInt8) {i j : Nat} (h : i ≤ j) :
    recordOffset block i ≤ recordOffset block j := by
  have := recordOffset_add_le block i (j - i)
  rw [Nat.add_sub_cancel' h] at this
  omega

section Fitting

variable {offset : Nat} (fits : recordEnd block offset ≤ block.length)

include fits

theorem lengths_recordAt : (recordAt block offset).label.length = fieldAt block offset ∧
    (recordAt block offset).value.length = fieldAt block (offset + 4) := by
  have texts := texts_le_recordEnd block offset
  simp only [recordAt, List.length_take, List.length_drop]
  omega

theorem parts_within : ∀ s ∈ (recordAt block offset).parts,
    s.Within ⟨offset, recordEnd block offset - offset⟩ := by
  obtain ⟨label, value⟩ := lengths_recordAt fits
  have texts := texts_le_recordEnd block offset
  have start : (recordAt block offset).offset = offset := rfl
  intro s hs
  simp only [StaticRecord.parts, label, value, start, List.mem_cons, List.not_mem_nil, or_false] at hs
  rcases hs with rfl | rfl | rfl <;> apply Span.within_of_le <;> simp only [Span.stop] <;> omega

end Fitting

namespace Reached

variable {i j : Nat} (reached : Reached block i)

include reached

theorem recordEnd_le : recordEnd block (recordOffset block i) ≤ block.length :=
  reached.fits i (Nat.le_refl i)

theorem room : 4 + 8 * (i + 1) ≤ block.length := by
  have far := recordOffset_add_le block 0 (i + 1)
  rw [Nat.zero_add] at far
  exact far.trans reached.recordEnd_le

theorem within : ∀ s ∈ (recordAt block (recordOffset block i)).parts, s.Within ⟨4, block.length - 4⟩ := by
  have first : 4 ≤ recordOffset block i := recordOffset_mono block (Nat.zero_le i)
  have far := le_recordEnd block (recordOffset block i)
  have fits := reached.recordEnd_le
  intro s hs k inside
  refine Span.within_of_le first ?_ k (parts_within fits s hs k inside)
  simp only [Span.stop]
  omega

theorem apart (later : Reached block j) (before : i < j) :
    ∀ s ∈ (recordAt block (recordOffset block i)).parts,
      ∀ t ∈ (recordAt block (recordOffset block j)).parts, s.Apart t := by
  have far := le_recordEnd block (recordOffset block i)
  have past : recordEnd block (recordOffset block i) ≤ recordOffset block j :=
    recordOffset_mono block before
  intro s hs t ht
  refine Span.Apart.mono (Span.apart_of_le ?_) (parts_within reached.recordEnd_le s hs)
    (parts_within later.recordEnd_le t ht)
  simp only [Span.stop]
  omega

end Reached

/-- Records of a block that lie one behind the other from its count on. -/
structure SideBySide (block : List UInt8) (visited : List StaticRecord) : Prop where
  placed : ∀ i r, visited[i]? = some r → Reached block i ∧ r = recordAt block (recordOffset block i)
  lengths : ∀ r ∈ visited,
    r.label.length = fieldAt block r.offset ∧ r.value.length = fieldAt block (r.offset + 4)
  aligned : ∀ r ∈ visited, 4 ∣ r.offset
  spaced : visited.Pairwise fun r s => r.offset + 8 ≤ s.offset
  within : ∀ r ∈ visited, ∀ s ∈ r.parts, s.Within ⟨4, block.length - 4⟩
  apart : (visited.flatMap StaticRecord.parts).Pairwise Span.Apart
  few : visited.length ≤ (block.length - 4) / 8

theorem sideBySide_of_placed (placed : ∀ i r, visited[i]? = some r →
    Reached block i ∧ r = recordAt block (recordOffset block i)) : SideBySide block visited := by
  have nth : ∀ i (hi : i < visited.length),
      Reached block i ∧ visited[i] = recordAt block (recordOffset block i) :=
    fun i hi => placed i _ (List.getElem?_eq_getElem hi)
  have found : ∀ r ∈ visited, ∃ i, Reached block i ∧ r = recordAt block (recordOffset block i) := by
    intro r hr
    obtain ⟨i, hi⟩ := List.mem_iff_getElem?.1 hr
    exact ⟨i, placed i r hi⟩
  constructor
  case placed => exact placed
  case lengths =>
    intro r hr
    obtain ⟨i, reached, rfl⟩ := found r hr
    exact lengths_recordAt reached.recordEnd_le
  case aligned =>
    intro r hr
    obtain ⟨i, -, rfl⟩ := found r hr
    exact Nat.dvd_of_mod_eq_zero (recordOffset_mod block i)
  case spaced =>
    refine List.pairwise_iff_getElem.2 fun i j hi hj before => ?_
    rw [(nth i hi).2, (nth j hj).2]
    exact (le_recordEnd block _).trans (recordOffset_mono block before)
  case within =>
    intro r hr
    obtain ⟨i, reached, rfl⟩ := found r hr
    exact reached.within
  case apart =>
    refine List.pairwise_flatMap.2 ⟨fun r _ => r.parts_apart, ?_⟩
    refine List.pairwise_iff_getElem.2 fun i j hi hj before => ?_
    rw [(nth i hi).2, (nth j hj).2]
    exact (nth i hi).1.apart (nth j hj).1 before
  case few =>
    rcases Nat.eq_zero_or_pos visited.length with none | some
    · omega
    · have := (nth (visited.length - 1) (by omega)).1.room
      omega

/-- The ways a walk over a block can end, with what was visited and what the visits left. -/
inductive Ending {α : Type} (block : List UInt8) (visit : α → StaticRecord → Visit α) (state : α)
    (visited : List StaticRecord) : Walk α → Prop
  | counted {final : α} (went : Visit.passing visit visited state = some final)
    (all : visited.length = fieldAt block 0) : Ending block visit state visited ⟨final, none⟩
  | stopped {before : List StaticRecord} {last : StaticRecord} {reached final : α}
    (split : visited = before ++ [last]) (went : Visit.passing visit before state = some reached)
    (asked : visit reached last = .done final) : Ending block visit state visited ⟨final, none⟩
  | corrupt {final : α} (went : Visit.passing visit visited state = some final)
    (more : visited.length < fieldAt block 0)
    (beyond : block.length < recordOffset block (visited.length + 1)) :
    Ending block visit state visited ⟨final, some (recordOffset block visited.length)⟩

/-- A walk that nothing stops visits as many records as are claimed. -/
theorem Ending.whole {α : Type} {visit : α → StaticRecord → Visit α} {state final : α} {walk : Walk α}
    (ending : Ending block visit state visited walk) (intact : walk.corruptAt = none)
    (went : Visit.passing visit visited state = some final) : visited.length = fieldAt block 0 := by
  cases ending with
  | counted _ all => exact all
  | stopped split before asked =>
    rw [split, Visit.passing_append_done before asked] at went
    cases went
  | corrupt => cases intact

end RegionFormat

namespace Blocks

open RegionFormat

variable {n : Nat} {b : Blocks n} {m : Memory n}

theorem recordsFrom_cases (count i : Nat) :
    ((b.recordsFrom m count (recordOffset (b.statics.contents m) i)).length = count ∧
      b.corruptFrom m count (recordOffset (b.statics.contents m) i) = none) ∨
    ∃ k < count, (b.recordsFrom m count (recordOffset (b.statics.contents m) i)).length = k ∧
      b.statics.len < recordOffset (b.statics.contents m) (i + k + 1) ∧
      b.corruptFrom m count (recordOffset (b.statics.contents m) i) =
        some (recordOffset (b.statics.contents m) (i + k)) := by
  induction count generalizing i with
  | zero => exact Or.inl ⟨rfl, rfl⟩
  | succ count ih =>
    have mod := recordOffset_mod (b.statics.contents m) i
    rw [corruptFrom_succ count mod, recordsFrom, recordIn_contents mod]
    split_ifs with fits
    · dsimp only
      rw [next_recordAt mod fits, List.length_cons]
      rcases ih (i + 1) with ⟨all, none⟩ | ⟨k, few, length, beyond, stop⟩
      · exact Or.inl ⟨congrArg (· + 1) all, none⟩
      · refine Or.inr ⟨k + 1, Nat.succ_lt_succ few, congrArg (· + 1) length, ?_⟩
        rw [show i + (k + 1) = i + 1 + k by omega]
        exact ⟨beyond, stop⟩
    · exact Or.inr ⟨0, Nat.succ_pos count, rfl, Nat.lt_of_not_le fits, rfl⟩

/-- A walk meets all records that a block claims, or stops at one that does not fit. -/
theorem records_cases : ((b.records m).length = fieldAt (b.statics.contents m) 0 ∧ b.corruptAt m = none) ∨
    (b.records m).length < fieldAt (b.statics.contents m) 0 ∧
      (b.statics.contents m).length < recordOffset (b.statics.contents m) ((b.records m).length + 1) ∧
      b.corruptAt m = some (recordOffset (b.statics.contents m) (b.records m).length) := by
  have len : (b.statics.contents m).length = b.statics.len := Memory.length_read ..
  rw [count_contents, len]
  rcases recordsFrom_cases (b := b) (m := m) (b.recordCount m) 0 with whole | ⟨k, few, rfl, beyond, stop⟩
  · exact Or.inl whole
  · rw [Nat.zero_add] at beyond stop
    exact Or.inr ⟨few, beyond, stop⟩

theorem ending_along {α : Type} (visit : α → StaticRecord → Visit α) (state : α) :
    Ending (b.statics.contents m) visit state (Walk.visited visit (b.records m) state)
      (Walk.along visit (b.corruptAt m) (b.records m) state) := by
  rcases Walk.along_cases visit (b.corruptAt m) (b.records m) state with
    ⟨all, final, went, ends⟩ | ⟨before, last, reached, final, split, went, asked, ends⟩
  · rw [all, ends]
    rcases records_cases (b := b) (m := m) with ⟨counted, whole⟩ | ⟨more, beyond, stop⟩
    · rw [whole]
      exact .counted went counted
    · rw [stop]
      exact .corrupt went more beyond
  · rw [split, ends]
    exact .stopped rfl went asked

/-- What a walk over the statics comes to: how it is answered, which records it visits, and how it ends. -/
structure Walked {α : Type} (b : Blocks n) (m : Memory n) (visit : α → StaticRecord → Visit α) (state : α)
    (visited : List StaticRecord) (walk : Walk α) : Prop where
  run : b.visitStatics visit state m = .ok walk
  recorded : b.visitStatics (Visit.recorded visit) (state, []) m =
    .ok ⟨(walk.state, visited), walk.corruptAt⟩
  sideBySide : SideBySide (b.statics.contents m) visited
  ending : Ending (b.statics.contents m) visit state visited walk
  whole : walk.corruptAt = none → (Visit.passing visit visited state).isSome →
    visited.length = fieldAt (b.statics.contents m) 0

/-- Whatever a block holds and claims to hold, a walk visits no more records than have room in it. Where
words of four bytes are not aligned, not even the count can be read. -/
theorem walks_are_bounded_by_the_block {α : Type} (b : Blocks n) (m : Memory n)
    (visit : α → StaticRecord → Visit α) (state : α) :
    (b.region.base % 4 = 0 → ∃ visited walk, b.Walked m visit state visited walk) ∧
    (b.region.base % 4 ≠ 0 → b.visitStatics visit state m = .error (.misaligned 4 0)) := by
  constructor
  · intro aligned
    have ending := ending_along (b := b) (m := m) visit state
    refine ⟨_, _, visitStatics_walk aligned m visit state, ?_, ?_, ending, ?_⟩
    · rw [visitStatics_walk aligned m, Walk.along_recorded, List.nil_append]
    · -- the records visited are the first of those met, and these are where the block chains them up
      refine sideBySide_of_placed fun i r found => ?_
      obtain ⟨rest, split⟩ := Walk.visited_prefix visit (b.records m) state
      apply (getElem?_records i r).1
      rw [← split, List.getElem?_append_left (List.getElem?_eq_some_iff.1 found).1, found]
    · intro intact passed
      obtain ⟨final, went⟩ := Option.isSome_iff_exists.1 passed
      exact ending.whole intact went
  · -- the blocks lie at multiples of 128 within the region, so the count is as misaligned as the region
    intro misaligned
    have pos := b.partition.pos
    obtain ⟨units, hunits⟩ := b.partition.staticsLen_dvd
    have len := b.statics_len
    have base := b.statics_base
    have refused : b.statics.locate staticsAt.count 4 = .error (.misaligned 4 0) := by
      rw [Window.locate, if_pos (by simp only [staticsAt]; omega), if_neg (by simp only [staticsAt]; omega)]
      rfl
    have count := Window.load_error (α := UInt32) b.statics refused m .acquire
    simp only [visitStatics, bind, ReaderT.bind, Except.bind, count]

/-- All zeros, and a count that says there are as many records as can be counted. -/
def crowded : Memory 900 := (Memory.zero 900).write 132 (Word.bytes (4294967295 : UInt32))

/-- Records that have nothing but two lengths fill a block up to the bound. -/
theorem bounded_in_a_crowded_block : shifted.region.base % 4 = 0 ∧
    fieldAt (shifted.statics.contents crowded) 0 = 4294967295 ∧
    ∃ visited, visited.length = 15 ∧
      shifted.visitStatics (Visit.recorded fun _ _ => .go ()) ((), []) crowded =
        .ok ⟨((), visited), some 124⟩ := by
  have length : (shifted.statics.contents crowded).length = 128 := Memory.length_read ..
  have count : fieldAt (shifted.statics.contents crowded) 0 = 4294967295 := by decide +kernel
  have last : recordOffset (shifted.statics.contents crowded) 15 = 124 := by decide +kernel
  obtain ⟨visited, walk, walked⟩ :=
    (walks_are_bounded_by_the_block shifted crowded (fun _ _ => .go ()) ()).1 rfl
  have few : visited.length ≤ 15 := by simpa only [length] using walked.sideBySide.few
  refine ⟨rfl, count, visited, ?_⟩
  have recorded := walked.recorded
  cases walked.ending with
  | counted _ all => omega
  | stopped _ _ asked => cases asked
  | corrupt _ _ beyond =>
    rw [length] at beyond
    -- after fewer visits the next record would end with the fifteenth at the latest, and fit
    have all : visited.length = 15 := by
      by_contra fewer
      have next : visited.length + 1 ≤ 15 := by omega
      have := recordOffset_mono (shifted.statics.contents crowded) next
      omega
    rw [all, last] at recorded
    exact ⟨all, recorded⟩

end Blocks

end SharedCounters
