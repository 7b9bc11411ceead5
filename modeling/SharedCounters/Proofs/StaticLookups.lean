import SharedCounters.Proofs.Acceptance
import SharedCounters.Proofs.Decoding
import SharedCounters.Proofs.Fresh
import SharedCounters.Proofs.StaticsMap

/-! Looking up a static against listing them all, whatever the block holds: labels that are no text, the
same label twice, records that do not fit. Both walks meet the same records, those the bytes of the block
chain up. A lookup compares bytes, and a listing shows what the bytes read as, so a text that stands for
other bytes is listed and not found. -/

namespace SharedCounters

theorem StaticRecord.lookup_pairs {records : List StaticRecord}
    (texts : ∀ r ∈ records, ∃ text, r.label = Text.utf8 text) (label : String) :
    (records.map pair).lookup label =
      (records.find? fun r => r.label = Text.utf8 label).map fun r => r.pair.2 := by
  induction records with
  | nil => rfl
  | cons r rest ih =>
    obtain ⟨text, same⟩ := texts r List.mem_cons_self
    have shown : r.pair.1 = text := by rw [pair, same, Text.lossy_utf8]
    rw [List.map_cons, show r.pair = (text, r.pair.2) from Prod.ext shown rfl, lookup_cons_eq,
      ih fun r' hr => texts r' (List.mem_cons_of_mem _ hr)]
    by_cases h : label = text
    · rw [if_pos h, List.find?_cons_of_pos (by rw [same, h]; exact decide_eq_true rfl)]
      rfl
    · have other : r.label ≠ Text.utf8 label := fun e => h (utf8_injective (same.symm.trans e)).symm
      rw [if_neg h, List.find?_cons_of_neg (by simpa using other)]

namespace RegionFormat

/-- A walk over the block gets past this record: the block counts it, and it ends within the block, as do
all before it. -/
structure Reached (block : List UInt8) (i : Nat) : Prop where
  counted : i < fieldAt block 0
  fits : ∀ j, j ≤ i → recordOffset block (j + 1) ≤ block.length

end RegionFormat

namespace Blocks

open RegionFormat

variable {n : Nat} {b : Blocks n} {m : Memory n}

theorem getElem?_recordsFrom (count i j : Nat) (record : StaticRecord) :
    (b.recordsFrom m count (recordOffset (b.statics.contents m) i))[j]? = some record ↔
      (j < count ∧ ∀ k, k ≤ j → recordOffset (b.statics.contents m) (i + k + 1) ≤ b.statics.len) ∧
        record = RegionFormat.recordAt (b.statics.contents m)
          (recordOffset (b.statics.contents m) (i + j)) := by
  induction count generalizing i j with
  | zero => simp [recordsFrom]
  | succ count ih =>
    rw [recordsFrom, recordIn_contents (recordOffset_mod _ _)]
    by_cases first : recordOffset (b.statics.contents m) (i + 1) ≤ b.statics.len
    · have within : RegionFormat.recordEnd _ (recordOffset (b.statics.contents m) i) ≤ _ := first
      have next := next_recordAt (recordOffset_mod _ _) within
      rw [if_pos within]
      cases j with
      | zero =>
        simp only [List.getElem?_cons_zero, Option.some.injEq, Nat.add_zero]
        constructor
        · rintro rfl
          refine ⟨⟨Nat.succ_pos _, fun k hk => ?_⟩, rfl⟩
          rw [Nat.le_zero.1 hk]
          exact first
        · rintro ⟨-, rfl⟩
          rfl
      | succ j =>
        -- what lies behind the first record is what a walk from the next one on meets
        have later := ih (i + 1) j
        rw [← show _ = recordOffset (b.statics.contents m) (i + 1) from next] at later
        rw [List.getElem?_cons_succ, later, show i + 1 + j = i + (j + 1) by omega]
        refine and_congr_left fun _ => and_congr (Nat.succ_lt_succ_iff).symm ⟨fun fits k hk => ?_, ?_⟩
        · cases k with
          | zero => exact first
          | succ k => simpa only [show i + 1 + k = i + (k + 1) by omega] using fits k (by omega)
        · intro fits k hk
          rw [show i + 1 + k = i + (k + 1) by omega]
          exact fits (k + 1) (by omega)
    · have beyond : ¬ RegionFormat.recordEnd _ (recordOffset (b.statics.contents m) i) ≤ _ := first
      rw [if_neg beyond]
      simp only [List.getElem?_nil, reduceCtorEq, false_iff]
      rintro ⟨⟨-, fits⟩, -⟩
      exact first (fits 0 (Nat.zero_le _))

theorem getElem?_records (i : Nat) (record : StaticRecord) : (b.records m)[i]? = some record ↔
    Reached (b.statics.contents m) i ∧ record = RegionFormat.recordAt (b.statics.contents m)
      (recordOffset (b.statics.contents m) i) := by
  have met := getElem?_recordsFrom (b := b) (m := m) (b.recordCount m) 0 i record
  simp only [Nat.zero_add] at met
  refine met.trans (and_congr_left fun _ => ⟨?_, ?_⟩)
  · rintro ⟨counted, fits⟩
    exact ⟨by rwa [count_contents], by rwa [Window.contents, Memory.length_read]⟩
  · rintro ⟨counted, fits⟩
    exact ⟨by rwa [← count_contents], by rwa [Window.contents, Memory.length_read] at fits⟩

/-- What lookups of statics find and what a listing shows of one memory. -/
structure StaticsAgree (b : Blocks n) (m : Memory n) : Prop where
  reached : ∀ i record, (b.records m)[i]? = some record ↔ Reached (b.statics.contents m) i ∧
    record = RegionFormat.recordAt (b.statics.contents m) (recordOffset (b.statics.contents m) i)
  listing : b.staticPairs m = .ok ((b.records m).map StaticRecord.pair)
  answered : ∀ label, ∃ found, b.staticFor label m = .ok found
  found_iff : ∀ label, (∃ value, b.staticFor label m = .ok (some value)) ↔
    ∃ record ∈ b.records m, record.label = Text.utf8 label
  first : ∀ label value, b.staticFor label m = .ok (some value) ↔
    ∃ before record after, b.records m = before ++ record :: after ∧
      (∀ r ∈ before, r.label ≠ Text.utf8 label) ∧ record.label = Text.utf8 label ∧
      value = Text.lossy record.value
  listed : ∀ label value, b.staticFor label m = .ok (some value) →
    ∃ pairs, b.staticPairs m = .ok pairs ∧ (label, value) ∈ pairs
  readable : (∀ record ∈ b.records m, ∃ text, record.label = Text.utf8 text) →
    ∃ pairs, b.staticPairs m = .ok pairs ∧ ∀ label, b.staticFor label m = .ok (pairs.lookup label)

/-- Whatever the statics block holds, a lookup gives the value of the first record met that has exactly
the bytes of the label. -/
theorem static_lookups_agree_with_the_listing (b : Blocks n) (aligned : b.region.base % 4 = 0)
    (m : Memory n) : b.StaticsAgree m := by
  have listing := staticPairs_walk aligned m
  have looked := staticFor_walk aligned m
  have first : ∀ label value, b.staticFor label m = .ok (some value) ↔
      ∃ before record after, b.records m = before ++ record :: after ∧
        (∀ r ∈ before, r.label ≠ Text.utf8 label) ∧ record.label = Text.utf8 label ∧
        value = Text.lossy record.value := by
    intro label value
    rw [looked, Except.ok.injEq, Option.map_eq_some_iff]
    constructor
    · rintro ⟨record, here, rfl⟩
      obtain ⟨same, before, after, split, others⟩ := List.find?_eq_some_iff_append.1 here
      exact ⟨before, record, after, split, fun r hr => by simpa using others r hr,
        of_decide_eq_true same, rfl⟩
    · rintro ⟨before, record, after, split, others, same, rfl⟩
      refine ⟨record, List.find?_eq_some_iff_append.2 ⟨decide_eq_true same, before, after, split, ?_⟩, rfl⟩
      exact fun r hr => by simpa using others r hr
  constructor
  case reached => exact getElem?_records
  case listing => exact listing
  case answered => exact fun label => ⟨_, looked label⟩
  case found_iff =>
    intro label
    rw [looked]
    simp only [Except.ok.injEq, ← Option.isSome_iff_exists, Option.isSome_map, List.find?_isSome,
      decide_eq_true_eq]
  case first => exact first
  case listed =>
    intro label value found
    obtain ⟨before, record, after, split, -, same, rfl⟩ := (first label value).1 found
    refine ⟨_, listing, List.mem_map.2 ⟨record, by simp [split], ?_⟩⟩
    rw [StaticRecord.pair, same, Text.lossy_utf8]
  case readable =>
    intro texts
    refine ⟨_, listing, fun label => ?_⟩
    rw [looked, StaticRecord.lookup_pairs texts]

/-- One slot in a region that is aligned for words of four bytes, and of no more. -/
def shifted : Blocks 900 where
  region := ⟨4, 896, Nat.le_refl 900⟩
  partition := oneSlot.partition
  fits := oneSlot.fits

/-- Five records, as the block has it: a label that is no text, an empty one, one label twice, and a record
that is longer than the block. -/
def jumbled : Memory 900 :=
  (Memory.zero 900).write 132
    (Word.bytes (5 : UInt32) ++ Word.bytes (1 : UInt32) ++ Word.bytes (1 : UInt32) ++ [255, 120, 0, 0]
      ++ Word.bytes (0 : UInt32) ++ Word.bytes (1 : UInt32) ++ [101, 0, 0, 0]
      ++ Word.bytes (1 : UInt32) ++ Word.bytes (1 : UInt32) ++ [97, 49, 0, 0]
      ++ Word.bytes (1 : UInt32) ++ Word.bytes (1 : UInt32) ++ [97, 50, 0, 0] ++ Word.bytes (200 : UInt32))

theorem records_jumbled : shifted.records jumbled =
    [⟨4, [255], [120]⟩, ⟨16, [], [101]⟩, ⟨28, [97], [49]⟩, ⟨40, [97], [50]⟩] := by decide +kernel

/-- The first of two values is found, also behind bytes that are no text; what these bytes read as is
listed and not found. -/
theorem static_lookups_agree_in_a_jumble : shifted.region.base % 4 = 0 ∧
    shifted.staticFor "a" jumbled = .ok (some "1") ∧ shifted.staticFor "" jumbled = .ok (some "e") ∧
    shifted.staticFor "\uFFFD" jumbled = .ok none ∧
    shifted.staticPairs jumbled = .ok [("\uFFFD", "x"), ("", "e"), ("a", "1"), ("a", "2")] := by
  have agree := static_lookups_agree_with_the_listing shifted rfl jumbled
  have records := records_jumbled
  refine ⟨rfl, (agree.first _ _).2 ?_, (agree.first _ _).2 ?_, ?_, ?_⟩
  · exact ⟨[_, _], _, _, records, by decide +kernel, by decide +kernel, by decide +kernel⟩
  · exact ⟨[_], _, _, records, by decide +kernel, by decide +kernel, by decide +kernel⟩
  · obtain ⟨found, run⟩ := agree.answered "\uFFFD"
    cases found with
    | none => exact run
    | some value =>
      obtain ⟨record, mem, same⟩ := (agree.found_iff "\uFFFD").1 ⟨value, run⟩
      rw [records] at mem
      have absent : ∀ r ∈ [(⟨4, [255], [120]⟩ : StaticRecord), ⟨16, [], [101]⟩, ⟨28, [97], [49]⟩,
          ⟨40, [97], [50]⟩], r.label ≠ Text.utf8 "\uFFFD" := by decide +kernel
      exact absurd same (absent record mem)
  · rw [agree.listing, records]
    decide +kernel

end Blocks

end SharedCounters
