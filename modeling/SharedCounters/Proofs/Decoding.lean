import Mathlib.Tactic.SplitIfs
import SharedCounters.Text.Utf8
import SharedCounters.Writing.Allocation

/-! The bytes of a text are read back as that text, and a kept label has at most as many bytes as a
slot has room for. -/

namespace SharedCounters.Text

section Sequences

variable {done : List Piece} {a b c d : UInt8} {rest : List UInt8}

theorem isTail_of_toNat (h : 0x80 ≤ a.toNat) (h' : a.toNat ≤ 0xBF) : isTail a = true := by
  simpa [isTail, UInt8.le_iff_toNat_le] using And.intro h h'

theorem piecesOnto_one (ha : a.toNat < 0x80) :
    piecesOnto done (a :: rest) = piecesOnto (.char (Char.ofNat a.toNat) :: done) rest := by
  rw [piecesOnto.eq_def]
  simp [UInt8.lt_iff_toNat_lt, ha]

theorem piecesOnto_two (ha : 0xC2 ≤ a.toNat) (ha' : a.toNat ≤ 0xDF) (hb : isTail b = true) :
    piecesOnto done (a :: b :: rest) = piecesOnto (.char (charOfTwo a b) :: done) rest := by
  have low : ¬ a.toNat < 0x80 := by omega
  rw [piecesOnto.eq_def]
  simp [UInt8.lt_iff_toNat_lt, UInt8.le_iff_toNat_le, low, ha, ha', hb]

theorem piecesOnto_three (ha : 0xE0 ≤ a.toNat) (ha' : a.toNat ≤ 0xEF)
    (hb : isSecondOfThree a b = true) (hc : isTail c = true) :
    piecesOnto done (a :: b :: c :: rest) = piecesOnto (.char (charOfThree a b c) :: done) rest := by
  have low : ¬ a.toNat < 0x80 := by omega
  have two : ¬ a.toNat ≤ 0xDF := by omega
  rw [piecesOnto.eq_def]
  simp [UInt8.lt_iff_toNat_lt, UInt8.le_iff_toNat_le, low, two, ha, ha', hb, hc]

theorem piecesOnto_four (ha : 0xF0 ≤ a.toNat) (ha' : a.toNat ≤ 0xF4)
    (hb : isSecondOfFour a b = true) (hc : isTail c = true) (hd : isTail d = true) :
    piecesOnto done (a :: b :: c :: d :: rest) =
      piecesOnto (.char (charOfFour a b c d) :: done) rest := by
  have low : ¬ a.toNat < 0x80 := by omega
  have two : ¬ a.toNat ≤ 0xDF := by omega
  have three : ¬ a.toNat ≤ 0xEF := by omega
  rw [piecesOnto.eq_def]
  simp [UInt8.lt_iff_toNat_lt, UInt8.le_iff_toNat_le, low, two, three, ha, ha', hb, hc, hd]

/-- A second byte of three that is a tail byte, with the lead bytes that ask for more. -/
theorem isSecondOfThree_of_toNat (hb : 0x80 ≤ b.toNat) (hb' : b.toNat ≤ 0xBF)
    (long : a.toNat = 0xE0 → 0xA0 ≤ b.toNat) (scalar : a.toNat = 0xED → b.toNat ≤ 0x9F) :
    isSecondOfThree a b = true := by
  unfold isSecondOfThree
  split_ifs with h1 h2
  · rw [beq_iff_eq] at h1
    subst h1
    simpa [UInt8.le_iff_toNat_le] using And.intro (long rfl) hb'
  · rw [beq_iff_eq] at h2
    subst h2
    simpa [UInt8.le_iff_toNat_le] using And.intro hb (scalar rfl)
  · exact isTail_of_toNat hb hb'

theorem isSecondOfFour_of_toNat (hb : 0x80 ≤ b.toNat) (hb' : b.toNat ≤ 0xBF)
    (long : a.toNat = 0xF0 → 0x90 ≤ b.toNat) (last : a.toNat = 0xF4 → b.toNat ≤ 0x8F) :
    isSecondOfFour a b = true := by
  unfold isSecondOfFour
  split_ifs with h1 h2
  · rw [beq_iff_eq] at h1
    subst h1
    simpa [UInt8.le_iff_toNat_le] using And.intro (long rfl) hb'
  · rw [beq_iff_eq] at h2
    subst h2
    simpa [UInt8.le_iff_toNat_le] using And.intro hb (last rfl)
  · exact isTail_of_toNat hb hb'

end Sequences

theorem piecesOnto_encode (done : List Piece) (c : Char) (rest : List UInt8) :
    piecesOnto done (String.utf8EncodeChar c ++ rest) = piecesOnto (.char c :: done) rest := by
  have self : Char.ofNat c.val.toNat = c := Char.ofNat_toNat c
  have valid : c.val.toNat < 0xD800 ∨ 0xDFFF < c.val.toNat ∧ c.val.toNat < 0x110000 := c.valid
  unfold String.utf8EncodeChar
  generalize c.val.toNat = v at self valid
  dsimp only
  split_ifs with h1 h2 h3
  · have e := UInt8.toNat_ofNat_of_lt' (show v < 256 by omega)
    rw [List.cons_append, piecesOnto_one (by omega), e, self]
    rfl
  · have e1 := UInt8.toNat_ofNat_of_lt' (show v / 64 % 32 + 0xC0 < 256 by omega)
    have e2 := UInt8.toNat_ofNat_of_lt' (show v % 64 + 0x80 < 256 by omega)
    simp only [List.cons_append, List.nil_append]
    rw [piecesOnto_two (by omega) (by omega) (isTail_of_toNat (by omega) (by omega)), charOfTwo, e1, e2,
      show (v / 64 % 32 + 0xC0 - 0xC0) * 64 + (v % 64 + 0x80 - 0x80) = v by omega, self]
  · have e1 := UInt8.toNat_ofNat_of_lt' (show v / 4096 % 16 + 0xE0 < 256 by omega)
    have e2 := UInt8.toNat_ofNat_of_lt' (show v / 64 % 64 + 0x80 < 256 by omega)
    have e3 := UInt8.toNat_ofNat_of_lt' (show v % 64 + 0x80 < 256 by omega)
    simp only [List.cons_append, List.nil_append]
    rw [piecesOnto_three (by omega) (by omega)
      (isSecondOfThree_of_toNat (by omega) (by omega) (by omega) (by omega))
      (isTail_of_toNat (by omega) (by omega)), charOfThree, e1, e2, e3,
      show ((v / 4096 % 16 + 0xE0 - 0xE0) * 64 + (v / 64 % 64 + 0x80 - 0x80)) * 64
        + (v % 64 + 0x80 - 0x80) = v by omega, self]
  · have e1 := UInt8.toNat_ofNat_of_lt' (show v / 262144 % 8 + 0xF0 < 256 by omega)
    have e2 := UInt8.toNat_ofNat_of_lt' (show v / 4096 % 64 + 0x80 < 256 by omega)
    have e3 := UInt8.toNat_ofNat_of_lt' (show v / 64 % 64 + 0x80 < 256 by omega)
    have e4 := UInt8.toNat_ofNat_of_lt' (show v % 64 + 0x80 < 256 by omega)
    simp only [List.cons_append, List.nil_append]
    rw [piecesOnto_four (by omega) (by omega)
      (isSecondOfFour_of_toNat (by omega) (by omega) (by omega) (by omega))
      (isTail_of_toNat (by omega) (by omega)) (isTail_of_toNat (by omega) (by omega)),
      charOfFour, e1, e2, e3, e4,
      show (((v / 262144 % 8 + 0xF0 - 0xF0) * 64 + (v / 4096 % 64 + 0x80 - 0x80)) * 64
        + (v / 64 % 64 + 0x80 - 0x80)) * 64 + (v % 64 + 0x80 - 0x80) = v by omega, self]

theorem piecesOnto_chars (done : List Piece) (l : List Char) :
    piecesOnto done (l.flatMap String.utf8EncodeChar) = (l.map Piece.char).reverse ++ done := by
  induction l generalizing done with
  | nil => rw [List.flatMap_nil, piecesOnto.eq_def]; rfl
  | cons c l ih => rw [List.flatMap_cons, piecesOnto_encode, ih]; simp

theorem utf8_eq_flatMap (text : String) : utf8 text = text.toList.flatMap String.utf8EncodeChar := by
  conv => lhs; rw [← String.ofList_toList (s := text)]
  exact List.toList_data_toByteArray

/-- Text survives being stored and read. -/
theorem lossy_utf8 (text : String) : lossy (utf8 text) = text := by
  rw [lossy, pieces, utf8_eq_flatMap, piecesOnto_chars, List.append_nil, List.reverse_reverse,
    List.map_map]
  exact (congrArg String.ofList (List.map_id _)).trans String.ofList_toList

theorem length_fit_le (room : Nat) (l : List Char) :
    ((fit room l).flatMap String.utf8EncodeChar).length ≤ room := by
  induction l generalizing room with
  | nil => exact Nat.zero_le _
  | cons c l ih =>
    rw [fit]
    split_ifs with h
    · have := ih (room - c.utf8Size)
      rw [List.flatMap_cons, List.length_append, String.length_utf8EncodeChar]
      omega
    · exact Nat.zero_le _

end SharedCounters.Text

namespace SharedCounters

theorem length_keptLabel_le (label : String) :
    (Text.utf8 (keptLabel label)).length ≤ metadataAt.labelCapacity := by
  rw [Text.utf8_eq_flatMap, keptLabel, String.toList_ofList]
  exact Text.length_fit_le _ _

end SharedCounters
