import SharedCounters.Machine.Rounding
import SharedCounters.Failure
import SharedCounters.Format.Fields
import SharedCounters.Text.Utf8

/-! Static labels and their values: a finite map, kept in the byte order of the labels. Each pair
takes a record of two lengths, label and value, padded to four bytes; the block that holds the count
and the records is padded to whole units of a block. -/

namespace SharedCounters

def labelBefore (a b : String) : Prop := Text.utf8 a < Text.utf8 b

instance (a b : String) : Decidable (labelBefore a b) :=
  inferInstanceAs (Decidable (Text.utf8 a < Text.utf8 b))

theorem labelBefore_trans {a b c : String} (h1 : labelBefore a b) (h2 : labelBefore b c) :
    labelBefore a c := List.lt_trans h1 h2

theorem labelBefore_irrefl (a : String) : ¬ labelBefore a a := List.lt_irrefl _

theorem utf8_injective {a b : String} (h : Text.utf8 a = Text.utf8 b) : a = b := by
  apply String.toByteArray_inj.1
  exact ByteArray.ext (Array.toList_inj.1 h)

theorem labelBefore_or_eq_or (a b : String) : labelBefore a b ∨ a = b ∨ labelBefore b a := by
  by_cases h1 : Text.utf8 a < Text.utf8 b
  · exact Or.inl h1
  · by_cases h2 : Text.utf8 b < Text.utf8 a
    · exact Or.inr (Or.inr h2)
    · exact Or.inr (Or.inl (utf8_injective (List.le_antisymm (List.not_lt.1 h2) (List.not_lt.1 h1))))

/-- Puts a pair in its place and replaces the value of its label. -/
def insertPair (label value : String) : List (String × String) → List (String × String)
  | [] => [(label, value)]
  | p :: rest =>
    if labelBefore label p.1 then (label, value) :: p :: rest
    else if label = p.1 then (label, value) :: rest
    else p :: insertPair label value rest

theorem mem_insertPair {label value : String} {l : List (String × String)} {p : String × String}
    (h : p ∈ insertPair label value l) : p = (label, value) ∨ p ∈ l := by
  induction l with
  | nil => simpa [insertPair] using h
  | cons q rest ih =>
    rw [insertPair] at h
    split at h
    · simpa using h
    · split at h
      · rcases List.mem_cons.1 h with h | h
        · exact Or.inl h
        · exact Or.inr (List.mem_cons_of_mem _ h)
      · rcases List.mem_cons.1 h with h | h
        · exact Or.inr (h ▸ List.mem_cons_self)
        · exact (ih h).imp_right (List.mem_cons_of_mem _)

theorem pairwise_insertPair (label value : String) {l : List (String × String)}
    (h : l.Pairwise fun p q => labelBefore p.1 q.1) :
    (insertPair label value l).Pairwise fun p q => labelBefore p.1 q.1 := by
  induction l with
  | nil => simp [insertPair]
  | cons p rest ih =>
    obtain ⟨hp, hrest⟩ := List.pairwise_cons.1 h
    rw [insertPair]
    split
    · next hb =>
      refine List.pairwise_cons.2 ⟨fun q hq => ?_, h⟩
      rcases List.mem_cons.1 hq with rfl | hq
      · exact hb
      · exact labelBefore_trans hb (hp q hq)
    · next hb =>
      split
      · next he => exact List.pairwise_cons.2 ⟨fun q hq => he ▸ hp q hq, hrest⟩
      · next he =>
        refine List.pairwise_cons.2 ⟨fun q hq => ?_, ih hrest⟩
        rcases mem_insertPair hq with rfl | hq
        · exact ((labelBefore_or_eq_or label p.1).resolve_left hb).resolve_left he
        · exact hp q hq

structure Statics where
  pairs : List (String × String)
  sorted : pairs.Pairwise fun p q => labelBefore p.1 q.1

namespace Statics

def empty : Statics := ⟨[], List.Pairwise.nil⟩

def insert (s : Statics) (label value : String) : Statics :=
  ⟨insertPair label value s.pairs, pairwise_insertPair label value s.sorted⟩

def get? (s : Statics) (label : String) : Option String := s.pairs.lookup label

/-- Of two pairs with one label the later one counts. -/
def ofList : List (String × String) → Statics
  | [] => empty
  | (label, value) :: rest =>
    let later := ofList rest
    if (later.get? label).isSome then later else later.insert label value

def recordLen (labelLen valueLen : Nat) : Nat := roundUp (staticsAt.label + labelLen + valueLen) 4

def recordsLen : List (String × String) → Nat
  | [] => 0
  | p :: rest => recordLen p.1.utf8ByteSize p.2.utf8ByteSize + recordsLen rest

/-- Lengths are stored in 32 bits. -/
def longField? (s : Statics) : Option Nat :=
  (s.pairs.flatMap fun p => [p.1.utf8ByteSize, p.2.utf8ByteSize]).find? fun len => UInt32.size ≤ len

def blockLen (s : Statics) : Except BadRequest Nat :=
  match s.longField? with
  | some len => .error (.fieldTooLong len)
  | none =>
    let len := roundUp (staticsAt.records + recordsLen s.pairs) blockUnit
    if len < UInt32.size then .ok len else .error (.fieldTooLong len)

theorem blockLen_eq_ok {s : Statics} {len : Nat} (h : s.blockLen = .ok len) :
    len = roundUp (4 + recordsLen s.pairs) 128 ∧ len < UInt32.size := by
  rw [blockLen] at h
  split at h
  · cases h
  · dsimp only at h
    split at h
    · next hlt => cases h; exact ⟨rfl, hlt⟩
    · cases h

end Statics

end SharedCounters
