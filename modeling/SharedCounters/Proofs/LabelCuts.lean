import Mathlib.Data.String.Basic
import SharedCounters.Proofs.Alone
import SharedCounters.Proofs.Fresh
import SharedCounters.Proofs.Scans

/-! Where labels are cut, and what is read of a cut label. The longest beginning that fits ends where
stepping back from the limit first meets the end of a character, at most three bytes below it. What was
kept is read back as it was, whatever the slot held before. -/

namespace SharedCounters

namespace Text

section Fitting

variable {room : Nat} {start l : List Char}

theorem fit_prefix (room : Nat) (l : List Char) : fit room l <+: l := by
  induction l generalizing room with
  | nil => exact List.prefix_refl _
  | cons c l ih =>
    rw [fit]
    split_ifs
    · exact List.cons_prefix_cons.2 ⟨rfl, ih _⟩
    · exact List.nil_prefix

theorem prefix_fit (h : start <+: l) (fits : String.utf8Len start ≤ room) : start <+: fit room l := by
  induction l generalizing start room with
  | nil => exact h
  | cons c l ih =>
    cases start with
    | nil => exact List.nil_prefix
    | cons d start =>
      obtain ⟨rfl, later⟩ := List.cons_prefix_cons.1 h
      rw [String.utf8Len_cons] at fits
      rw [fit, if_pos (by omega)]
      exact List.cons_prefix_cons.2 ⟨rfl, ih later (by omega)⟩

theorem le_utf8Len_fit (long : room < String.utf8Len l) : room ≤ String.utf8Len (fit room l) + 3 := by
  induction l generalizing room with
  | nil => exact absurd long (Nat.not_lt_zero room)
  | cons c l ih =>
    have size := c.utf8Size_le_four
    rw [String.utf8Len_cons] at long
    rw [fit]
    split_ifs with fits
    · have rest : room - c.utf8Size ≤ _ := ih (by omega)
      rw [String.utf8Len_cons]
      omega
    · omega

end Fitting

/-- Steps back from a byte to the nearest one where the text can be cut. -/
def boundaryBelow (text : String) : Nat → Nat
  | 0 => 0
  | i + 1 => if String.Pos.Raw.isValid text ⟨i + 1⟩ then i + 1 else boundaryBelow text i

theorem isValid_iff {text : String} {i : Nat} : String.Pos.Raw.isValid text ⟨i⟩ = true ↔
    ∃ start rest, text = start ++ rest ∧ start.utf8ByteSize = i := by
  rw [String.Pos.Raw.isValid_eq_true_iff, String.Pos.Raw.isValid_iff_exists_append]
  refine exists_congr fun start => exists_congr fun rest => and_congr_right fun _ => ?_
  rw [String.Pos.Raw.ext_iff, String.byteIdx_rawEndPos, eq_comm]

/-- Stepping back ends at the end of the longest beginning below. -/
theorem boundaryBelow_spec (text : String) (limit : Nat) : boundaryBelow text limit ≤ limit ∧
    (∃ start rest, text = start ++ rest ∧ start.utf8ByteSize = boundaryBelow text limit) ∧
    ∀ start rest, text = start ++ rest → start.utf8ByteSize ≤ limit →
      start.utf8ByteSize ≤ boundaryBelow text limit := by
  induction limit with
  | zero => exact ⟨Nat.le_refl 0, ⟨"", text, by simp, rfl⟩, fun _ _ _ le => le⟩
  | succ limit ih =>
    obtain ⟨below, ends, greatest⟩ := ih
    rw [boundaryBelow]
    split_ifs with here
    · exact ⟨Nat.le_refl _, isValid_iff.1 here, fun _ _ _ le => le⟩
    · refine ⟨Nat.le_succ_of_le below, ends, fun start rest split le => ?_⟩
      have ne : start.utf8ByteSize ≠ limit + 1 := fun e => here (isValid_iff.2 ⟨start, rest, split, e⟩)
      exact greatest start rest split (by omega)

end Text

section Kept

variable (label : String)

theorem keptLabel_append : ∃ rest, label = keptLabel label ++ rest := by
  obtain ⟨rest, split⟩ := Text.fit_prefix metadataAt.labelCapacity label.toList
  refine ⟨String.ofList rest, String.toList_injective ?_⟩
  rw [String.toList_append, keptLabel, String.toList_ofList, String.toList_ofList, split]

theorem utf8ByteSize_keptLabel_le : (keptLabel label).utf8ByteSize ≤ 380 := length_keptLabel_le label

variable {label}

theorem keptLabel_longest {start rest : String} (split : label = start ++ rest)
    (fits : start.utf8ByteSize ≤ 380) : ∃ more, keptLabel label = start ++ more := by
  have front : start.toList <+: label.toList := ⟨rest.toList, by rw [split, String.toList_append]⟩
  rw [← String.ofList_toList (s := start), String.utf8ByteSize_ofList] at fits
  obtain ⟨more, longer⟩ : _ <+: Text.fit metadataAt.labelCapacity _ := Text.prefix_fit front fits
  refine ⟨String.ofList more, String.toList_injective ?_⟩
  rw [String.toList_append, keptLabel, String.toList_ofList, String.toList_ofList, longer]

theorem keptLabel_of_fits (fits : label.utf8ByteSize ≤ 380) : keptLabel label = label := by
  obtain ⟨more, longer⟩ := keptLabel_longest (String.append_empty (s := label)).symm fits
  obtain ⟨rest, split⟩ := keptLabel_append label
  have sizes := congrArg String.utf8ByteSize split
  rw [longer, String.utf8ByteSize_append, String.utf8ByteSize_append] at sizes
  have none : more = "" := String.utf8ByteSize_eq_zero_iff.1 (by omega)
  rw [longer, none, String.append_empty]

theorem le_keptLabel (long : 380 < label.utf8ByteSize) : 377 ≤ (keptLabel label).utf8ByteSize := by
  rw [← String.ofList_toList (s := label), String.utf8ByteSize_ofList] at long
  have near : metadataAt.labelCapacity ≤ _ := Text.le_utf8Len_fit long
  have room : metadataAt.labelCapacity = 380 := rfl
  rw [keptLabel, String.utf8ByteSize_ofList]
  omega

theorem boundaryBelow_eq : Text.boundaryBelow label 380 = (keptLabel label).utf8ByteSize := by
  obtain ⟨below, ⟨start, rest, split, ends⟩, greatest⟩ := Text.boundaryBelow_spec label 380
  apply Nat.le_antisymm
  · obtain ⟨more, longer⟩ := keptLabel_longest split (by omega)
    rw [← ends, longer, String.utf8ByteSize_append]
    exact Nat.le_add_right ..
  · obtain ⟨rest, split⟩ := keptLabel_append label
    exact greatest _ rest split (utf8ByteSize_keptLabel_le label)

/-- A label is cut where stepping back from the limit ends. -/
theorem utf8_keptLabel :
    Text.utf8 (keptLabel label) = (Text.utf8 label).take (Text.boundaryBelow label 380) := by
  obtain ⟨rest, split⟩ := keptLabel_append label
  have bytes : Text.utf8 label = Text.utf8 (keptLabel label) ++ Text.utf8 rest := by
    rw [Text.utf8_eq_flatMap label, split, String.toList_append, List.flatMap_append,
      ← Text.utf8_eq_flatMap, ← Text.utf8_eq_flatMap, ← split]
  rw [boundaryBelow_eq, bytes]
  exact (List.take_left).symm

end Kept

/-- The longest beginning of a label that ends with a character and has at most 380 bytes. -/
structure KeepsLongest (label : String) : Prop where
  starts : ∃ rest, label = keptLabel label ++ rest
  fits : (Text.utf8 (keptLabel label)).length ≤ 380
  longest : ∀ start rest, label = start ++ rest → (Text.utf8 start).length ≤ 380 →
    ∃ more, keptLabel label = start ++ more
  whole : (Text.utf8 label).length ≤ 380 → keptLabel label = label
  near : 380 < (Text.utf8 label).length → 377 ≤ (Text.utf8 (keptLabel label)).length
  steppedBack : Text.utf8 (keptLabel label) = (Text.utf8 label).take (Text.boundaryBelow label 380)
  again : keptLabel (keptLabel label) = keptLabel label

theorem keepsLongest (label : String) : KeepsLongest label where
  starts := keptLabel_append label
  fits := utf8ByteSize_keptLabel_le label
  longest _ _ split fits := keptLabel_longest split fits
  whole := keptLabel_of_fits
  near := le_keptLabel
  steppedBack := utf8_keptLabel
  again := keptLabel_of_fits (utf8ByteSize_keptLabel_le label)

namespace Blocks

variable {n : Nat} (b : Blocks n)

/-- What readers see of the slot that an allocation took. -/
structure ReadsBack (m m' : Memory n) (id : UInt64) (label : String) (initial : Int64)
    (placement : Placement) : Prop where
  lt : placement.slot < b.partition.slots
  len : placement.labelLen = (Text.utf8 (keptLabel label)).length
  bytes : b.held placement.slot m' = .ok ⟨Text.utf8 (keptLabel label), initial⟩
  text : Text.lossy (Text.utf8 (keptLabel label)) = keptLabel label
  listed : ∃ readings, b.liveCounters m' = .ok readings ∧ ⟨id, keptLabel label, initial⟩ ∈ readings
  found : (∀ j, j < placement.slot → SlotWord.id (b.slotWord m j) ≠ id) →
    b.labelOf id m' = .ok (some (keptLabel label))

variable {b} {m : Memory n}

theorem readsBack_taken (aligned : b.Aligned) {id : UInt64} (valid : id ≤ largestId) (label : String)
    (initial : Int64) {k retries : Nat} (hk : k < b.partition.slots)
    (before : ∀ j, j < k → SlotWord.isFree (b.slotWord m j) = false) :
    b.ReadsBack m (b.taken m k id (Text.utf8 (keptLabel label)) initial) id label initial
      ⟨k, valueOffset k, (Text.utf8 (keptLabel label)).length, retries⟩ := by
  have room := length_keptLabel_le label
  have reading : b.slotReading (b.taken m k id (Text.utf8 (keptLabel label)) initial) k =
      ⟨id, keptLabel label, initial⟩ := by
    rw [slotReading_taken hk valid room hk, if_pos rfl, Text.lossy_utf8]
  have shown : k ∈ b.shown (b.taken m k id (Text.utf8 (keptLabel label)) initial) := by
    refine mem_shown.2 ⟨hk, (live_taken hk room hk).2 (.inl rfl), fun j hj => ?_⟩
    -- a slot that was never used would have been taken
    refine (touched_taken hk room (Nat.lt_trans hj hk)).2 (.inr fun unused => ?_)
    exact absurd (SlotWord.isFree_iff.2 (.inl unused)) (Bool.eq_false_iff.1 (before j hj))
  constructor
  case lt => exact hk
  case len => rfl
  case bytes => rw [held_eq aligned hk, slotHeld_taken hk m id room initial hk, if_pos rfl]
  case text => exact Text.lossy_utf8 _
  case listed => exact ⟨_, liveCounters_eq_shown aligned, reading ▸ List.mem_map_of_mem shown⟩
  case found =>
    intro first
    have held : b.holder (b.taken m k id (Text.utf8 (keptLabel label)) initial) id = some k := by
      refine holder_eq_some_iff.2 ⟨shown, congrArg Reading.id reading, fun j hj => ?_⟩
      rw [id_taken hk valid room (Nat.lt_trans hj hk), if_neg (Nat.ne_of_lt hj)]
      exact first j hj
    rw [labelOf_eq aligned, held, Option.map_some, reading]

/-- An allocation keeps the longest beginning of its label that fits, and exactly that is read back,
whatever the slot held before. -/
theorem kept_labels_are_read_back (label : String) : KeepsLongest label ∧
    ∀ {n : Nat} (b : Blocks n), b.Aligned → ∀ (m : Memory n) (id : UInt64) (initial : Int64),
      ∃ result m', b.allocate id label initial m = .ok result m' ∧
        ((∃ placement, result = .ok placement) ↔ (id ≠ 0 ∧ id ≤ largestId) ∧
          ∃ k, k < b.partition.slots ∧ SlotWord.isFree (b.slotWord m k) = true) ∧
        ∀ placement, result = .ok placement → b.ReadsBack m m' id label initial placement := by
  refine ⟨keepsLongest label, fun {n} b aligned m id initial => ?_⟩
  rcases allocate_cases aligned (m := m) id label initial with
    ⟨refusal, lacks, run⟩ | ⟨valid, k, hk, free, before, run⟩
  · refine ⟨_, _, run, ⟨?_, fun h => absurd h lacks⟩, ?_⟩
    · rintro ⟨placement, h⟩
      cases h
    · intro placement h
      cases h
  · refine ⟨_, _, run, ⟨fun _ => ⟨valid, k, hk, free⟩, fun _ => ⟨_, rfl⟩⟩, ?_⟩
    intro placement h
    cases h
    exact readsBack_taken aligned valid.2 label initial hk before

/-- One slot, with the label of a counter that was freed in all of its room. -/
def worn : Memory 896 :=
  oneSlot.withWord (oneSlot.taken (Memory.zero 896) 0 9 (List.replicate 380 120) 7) 0
    (SlotWord.pack 9 .freed)

theorem kept_labels_are_read_back_worn : oneSlot.Aligned ∧
    ∃ placement m',
      oneSlot.allocate 1 (String.ofList (List.replicate 130 '€')) 5 worn = .ok (.ok placement) m' ∧
      placement.labelLen = 378 ∧
      oneSlot.held 0 m' = .ok ⟨Text.utf8 (String.ofList (List.replicate 126 '€')), 5⟩ ∧
      oneSlot.labelOf 1 m' = .ok (some (String.ofList (List.replicate 126 '€'))) := by
  have aligned : oneSlot.Aligned := rfl
  have slots : oneSlot.partition.slots = 1 := rfl
  obtain ⟨-, allocates⟩ := kept_labels_are_read_back (String.ofList (List.replicate 130 '€'))
  obtain ⟨result, m', run, taken, reads⟩ := allocates oneSlot aligned worn 1 5
  have free : SlotWord.isFree (oneSlot.slotWord worn 0) = true := by
    rw [worn, slotWord_withWord oneSlot (by decide) (by decide), if_pos rfl]
    rfl
  obtain ⟨placement, rfl⟩ := taken.2 ⟨⟨by decide, by decide⟩, 0, by decide, free⟩
  have kept : keptLabel (String.ofList (List.replicate 130 '€')) =
      String.ofList (List.replicate 126 '€') := by
    rw [keptLabel, String.toList_ofList]
    exact congrArg String.ofList (by decide +kernel)
  obtain ⟨lt, len, bytes, -, -, found⟩ := reads placement rfl
  have first : placement.slot = 0 := Nat.lt_one_iff.1 lt
  rw [kept] at len bytes found
  rw [first] at bytes found
  have size : (Text.utf8 (String.ofList (List.replicate 126 '€'))).length = 378 := by decide +kernel
  exact ⟨aligned, placement, m', run, len.trans size, bytes,
    found fun j hj => absurd hj (Nat.not_lt_zero j)⟩

end Blocks

end SharedCounters
