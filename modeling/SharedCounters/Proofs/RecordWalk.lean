import SharedCounters.Proofs.Slots
import SharedCounters.Reading.Records

/-! Walks over the statics. A walk never fails where words of four bytes are aligned: it meets the records
of the block one after the other, up to the first one that does not fit, and what the visits leave depends
on these records alone. -/

namespace SharedCounters

/-- What visits leave of a state, where a walk that no visit ends stops at `corruptAt`. -/
def Walk.along {α : Type} (visit : α → StaticRecord → Visit α) (corruptAt : Option Nat) :
    List StaticRecord → α → Walk α
  | [], state => ⟨state, corruptAt⟩
  | record :: rest, state =>
    match visit state record with
    | .done state => ⟨state, none⟩
    | .go state => along visit corruptAt rest state

theorem Walk.along_go (corruptAt : Option Nat) (records : List StaticRecord) :
    Walk.along (fun _ _ => .go ()) corruptAt records () = ⟨(), corruptAt⟩ := by
  induction records with
  | nil => rfl
  | cons record rest ih => exact ih

namespace Blocks

variable {n : Nat} {α : Type} (b : Blocks n)

def staticsWord (m : Memory n) (offset : Nat) : UInt32 := Window.wordAt m (b.statics.base + offset)

def recordEnd (m : Memory n) (offset : Nat) : Nat :=
  offset + Statics.recordLen (b.staticsWord m (offset + staticsAt.labelLen)).toNat
    (b.staticsWord m (offset + staticsAt.valueLen)).toNat

/-- The record at an offset, unless it reaches beyond the block. -/
def recordIn (m : Memory n) (offset : Nat) : Option StaticRecord :=
  if b.recordEnd m offset ≤ b.statics.len then
    let labelLen := (b.staticsWord m (offset + staticsAt.labelLen)).toNat
    let valueLen := (b.staticsWord m (offset + staticsAt.valueLen)).toNat
    let labelAt := b.statics.base + (offset + staticsAt.label)
    some ⟨offset, m.read labelAt labelLen, m.read (labelAt + labelLen) valueLen⟩
  else none

def recordsFrom (m : Memory n) : (count offset : Nat) → List StaticRecord
  | 0, _ => []
  | count + 1, offset =>
    match b.recordIn m offset with
    | none => []
    | some record => record :: recordsFrom m count record.next

/-- Where a walk meets a record that does not fit. -/
def corruptFrom (m : Memory n) : (count offset : Nat) → Option Nat
  | 0, _ => none
  | count + 1, offset =>
    match b.recordIn m offset with
    | none => some offset
    | some record => corruptFrom m count record.next

def recordCount (m : Memory n) : Nat := (b.staticsWord m staticsAt.count).toNat

def records (m : Memory n) : List StaticRecord := b.recordsFrom m (b.recordCount m) staticsAt.records

def corruptAt (m : Memory n) : Option Nat := b.corruptFrom m (b.recordCount m) staticsAt.records

theorem statics_base : b.statics.base = b.region.base + 128 := rfl

theorem statics_len : b.statics.len = b.partition.staticsLen := rfl

theorem texts_le_recordEnd (m : Memory n) (offset : Nat) :
    offset + staticsAt.label + (b.staticsWord m (offset + staticsAt.labelLen)).toNat
      + (b.staticsWord m (offset + staticsAt.valueLen)).toNat ≤ b.recordEnd m offset := by
  have := le_roundUp (8 + (b.staticsWord m (offset + staticsAt.labelLen)).toNat
    + (b.staticsWord m (offset + staticsAt.valueLen)).toNat) (show 0 < 4 by decide)
  simp only [recordEnd, Statics.recordLen, staticsAt] at this ⊢
  omega

theorem le_recordEnd (m : Memory n) (offset : Nat) : offset + staticsAt.label ≤ b.recordEnd m offset := by
  have := b.texts_le_recordEnd m offset
  omega

theorem next_of_recordIn {m : Memory n} {offset : Nat} {record : StaticRecord}
    (h : b.recordIn m offset = some record) :
    record.next = b.recordEnd m offset ∧ b.recordEnd m offset ≤ b.statics.len := by
  rw [recordIn] at h
  split_ifs at h with fits
  cases h
  refine ⟨?_, fits⟩
  simp only [StaticRecord.next, Memory.length_read, recordEnd]

theorem recordIn_eq_none_iff {m : Memory n} {offset : Nat} :
    b.recordIn m offset = none ↔ b.statics.len < b.recordEnd m offset := by
  rw [recordIn]
  split_ifs with fits
  · simpa using fits
  · simpa using fits

theorem recordEnd_mod (m : Memory n) {offset : Nat} (h : offset % 4 = 0) :
    b.recordEnd m offset % 4 = 0 := by
  have := dvd_roundUp (8 + (b.staticsWord m (offset + staticsAt.labelLen)).toNat
    + (b.staticsWord m (offset + staticsAt.valueLen)).toNat) 4
  simp only [recordEnd, Statics.recordLen, staticsAt] at this ⊢
  omega

section Walks

variable {b} (aligned : b.region.base % 4 = 0) (m : Memory n)

include aligned

theorem staticsWord_eq {offset : Nat} (fits : offset + 4 ≤ b.statics.len) (h : offset % 4 = 0)
    {order : Order} (admitted : order.loadClash = none) :
    b.statics.load offset order m = .ok (b.staticsWord m offset) := by
  have base := b.statics_base
  exact b.statics.load_eq fits (by simp only [Word.size]; omega) admitted m

theorem recordAt_eq {offset : Nat} (h : offset % 4 = 0) :
    b.recordAt offset m = .ok (b.recordIn m offset) := by
  have fields := b.le_recordEnd m offset
  rw [recordAt]
  split_ifs with short
  · -- even its two lengths lie beyond the block
    rw [(b.recordIn_eq_none_iff).2 (by omega)]
    rfl
  · have room : offset + 8 ≤ b.statics.len := Nat.le_of_not_lt short
    have labelLen : b.statics.load (offset + staticsAt.labelLen) .relaxed m =
        .ok (b.staticsWord m (offset + staticsAt.labelLen)) :=
      staticsWord_eq aligned m (by simp only [staticsAt]; omega) (by simp only [staticsAt]; omega) rfl
    have valueLen : b.statics.load (offset + staticsAt.valueLen) .relaxed m =
        .ok (b.staticsWord m (offset + staticsAt.valueLen)) :=
      staticsWord_eq aligned m (by simp only [staticsAt]; omega) (by simp only [staticsAt]; omega) rfl
    simp only [bind, ReaderT.bind, Except.bind, labelLen, valueLen]
    split_ifs with long
    · rw [(b.recordIn_eq_none_iff).2 long]
      rfl
    · have fits : b.recordEnd m offset ≤ b.statics.len := Nat.le_of_not_lt long
      have texts := b.texts_le_recordEnd m offset
      have label : b.statics.loadBytes (offset + staticsAt.label)
          (b.staticsWord m (offset + staticsAt.labelLen)).toNat m = .ok _ :=
        b.statics.loadBytes_eq (by omega) m
      have value : b.statics.loadBytes (offset + staticsAt.label
          + (b.staticsWord m (offset + staticsAt.labelLen)).toNat)
          (b.staticsWord m (offset + staticsAt.valueLen)).toNat m = .ok _ :=
        b.statics.loadBytes_eq (by omega) m
      rw [recordIn, if_pos fits]
      simp only [ReaderT.bind, Except.bind, bind, label, value, ← Nat.add_assoc]
      rfl

theorem visitFrom_eq (visit : α → StaticRecord → Visit α) (count : Nat) {offset : Nat}
    (h : offset % 4 = 0) (state : α) :
    b.visitFrom visit count offset state m =
      .ok (.along visit (b.corruptFrom m count offset) (b.recordsFrom m count offset) state) := by
  induction count generalizing offset state with
  | zero => rfl
  | succ count ih =>
    rw [visitFrom, recordsFrom, corruptFrom]
    simp only [bind, ReaderT.bind, Except.bind, recordAt_eq aligned m h]
    cases found : b.recordIn m offset with
    | none => rfl
    | some record =>
      have next : record.next % 4 = 0 := (b.next_of_recordIn found).1 ▸ b.recordEnd_mod m h
      simp only [Walk.along]
      cases visit state record with
      | done state => rfl
      | go state => exact ih next state

theorem visitStatics_walk (visit : α → StaticRecord → Visit α) (state : α) :
    b.visitStatics visit state m = .ok (.along visit (b.corruptAt m) (b.records m) state) := by
  have pos := b.partition.pos
  obtain ⟨units, hunits⟩ := b.partition.staticsLen_dvd
  have len := b.statics_len
  have count : b.statics.load staticsAt.count .acquire m = .ok (b.staticsWord m staticsAt.count) :=
    staticsWord_eq aligned m (by simp only [staticsAt]; omega) rfl rfl
  simp only [visitStatics, bind, ReaderT.bind, Except.bind, count]
  exact visitFrom_eq aligned m visit _ rfl state

theorem staticPairs_walk : b.staticPairs m = .ok ((b.records m).map StaticRecord.pair) := by
  have run : ∀ (stop : Option Nat) (records : List StaticRecord) (pairs : List (String × String)),
      (Walk.along (fun pairs record => .go (record.pair :: pairs)) stop records pairs).state.reverse =
        pairs.reverse ++ records.map StaticRecord.pair := by
    intro stop records
    induction records with
    | nil => intro pairs; simp [Walk.along]
    | cons record rest ih => intro pairs; simp [Walk.along, ih]
  simp only [staticPairs, bind, ReaderT.bind, Except.bind, visitStatics_walk aligned m]
  exact congrArg Except.ok (run _ _ [])

theorem staticFor_walk (label : String) : b.staticFor label m =
    .ok (((b.records m).find? fun record => record.label = Text.utf8 label).map fun record =>
      record.pair.2) := by
  have run : ∀ (stop : Option Nat) (records : List StaticRecord),
      (Walk.along (fun _ record =>
        if record.label = Text.utf8 label then .done (some record.pair.2) else .go none)
        stop records none).state =
        (records.find? fun record => record.label = Text.utf8 label).map fun record => record.pair.2 := by
    intro stop records
    induction records with
    | nil => rfl
    | cons record rest ih =>
      rw [Walk.along]
      by_cases same : record.label = Text.utf8 label
      · simp [same]
      · simpa [same] using ih
  simp only [staticFor, bind, ReaderT.bind, Except.bind, visitStatics_walk aligned m]
  exact congrArg Except.ok (run _ _)

end Walks

section Aligned

variable {b} (aligned : b.Aligned) (m : Memory n)

include aligned

theorem base_mod_four : b.region.base % 4 = 0 := by
  unfold Aligned at aligned
  omega

theorem staticPairs_eq : b.staticPairs m = .ok ((b.records m).map StaticRecord.pair) :=
  staticPairs_walk (base_mod_four aligned) m

theorem staticFor_eq (label : String) : b.staticFor label m =
    .ok (((b.records m).find? fun record => record.label = Text.utf8 label).map fun record =>
      record.pair.2) :=
  staticFor_walk (base_mod_four aligned) m label

end Aligned

end Blocks

end SharedCounters
