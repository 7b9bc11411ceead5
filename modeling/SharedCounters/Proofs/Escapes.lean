import Mathlib
import SharedCounters.Listing

/-! Reading the lines of a listing back. Of a text that is escaped, the first equals sign without a
backslash before it is none of its own characters, and taking the backslashes away gives it back. The id
of a counter stands behind the last bracket that is opened, whatever brackets there are in its label. -/

namespace SharedCounters.Listing

variable {cs rest : List Char}

/-- What stands before and behind the first equals sign that is not escaped. After a backslash the next
character is, whatever it is. -/
def cutFrom : (escaping : Bool) → List Char → Option (List Char × List Char)
  | _, [] => none
  | true, c :: rest => (cutFrom false rest).map (Prod.map (c :: ·) id)
  | false, c :: rest =>
    if c = '=' then some ([], rest) else (cutFrom (c == '\\') rest).map (Prod.map (c :: ·) id)

def cut : List Char → Option (List Char × List Char) := cutFrom false

/-- Takes away the backslashes that escape. -/
def unescapedFrom : (escaping : Bool) → List Char → List Char
  | _, [] => []
  | true, c :: rest => c :: unescapedFrom false rest
  | false, c :: rest => if c = '\\' then unescapedFrom true rest else c :: unescapedFrom false rest

def unescaped : List Char → List Char := unescapedFrom false

/-- The label and the id in brackets behind it. -/
def readName (cs : List Char) : Option (String × UInt64) :=
  match cs.reverse with
  | ']' :: back =>
    match back.dropWhile (· != '[') with
    | '[' :: label =>
      (String.ofList (back.takeWhile (· != '[')).reverse).toNat?.map fun id =>
        (String.ofList label.reverse, UInt64.ofNat id)
    | _ => none
  | _ => none

def readPair (cs : List Char) : Option (String × String) :=
  (cut cs).map fun p => (String.ofList (unescaped p.1), String.ofList (unescaped p.2))

def readStatic (line : List Char) : Option (String × String) :=
  (line.dropPrefix? "static: ".toList).bind readPair

def readCounter (line : List Char) : Option Reading := do
  let (name, value) ← cut (← line.dropPrefix? "counter: ".toList)
  let (label, id) ← readName (unescaped name)
  let value ← (String.ofList value).toInt?
  return ⟨id, label, Int64.ofInt value⟩

def Plain (c : Char) : Prop := c ≠ '=' ∧ c ≠ '\\'

theorem escapedChar_of_plain {c : Char} (plain : Plain c) : escapedChar c = [c] :=
  if_neg (not_or.2 plain)

theorem escapedChar_of_not_plain {c : Char} (h : ¬ Plain c) : escapedChar c = ['\\', c] :=
  if_pos (by simpa [Plain, or_iff_not_imp_left] using h)

theorem toList_escaped (text : String) : (escaped text).toList = text.toList.flatMap escapedChar :=
  String.toList_ofList

theorem flatMap_escapedChar_of_plain (plain : ∀ c ∈ cs, Plain c) : cs.flatMap escapedChar = cs := by
  induction cs with
  | nil => rfl
  | cons c cs ih =>
    obtain ⟨first, others⟩ := List.forall_mem_cons.1 plain
    rw [List.flatMap_cons, escapedChar_of_plain first, ih others]
    rfl

theorem cut_plain {c : Char} (plain : Plain c) :
    cut (c :: rest) = (cut rest).map (Prod.map (c :: ·) id) := by
  have next : (c == '\\') = false := beq_false_of_ne plain.2
  simp only [cut, cutFrom, if_neg plain.1, next]

theorem cut_backslash (c : Char) :
    cut ('\\' :: c :: rest) = (cut rest).map (Prod.map ('\\' :: c :: ·) id) := by
  show ((cut rest).map _).map _ = _
  rw [Option.map_map]
  rfl

theorem unescaped_plain {c : Char} (plain : Plain c) : unescaped (c :: rest) = c :: unescaped rest :=
  if_neg plain.2

/-- No character of an escaped text is taken for the sign that ends it. -/
theorem cut_escaped (cs rest : List Char) :
    cut (cs.flatMap escapedChar ++ '=' :: rest) = some (cs.flatMap escapedChar, rest) := by
  induction cs with
  | nil => rfl
  | cons c cs ih =>
    rw [List.flatMap_cons, List.append_assoc]
    by_cases plain : Plain c
    · rw [escapedChar_of_plain plain, List.singleton_append, cut_plain plain, ih]
      rfl
    · rw [escapedChar_of_not_plain plain, List.cons_append, List.singleton_append, cut_backslash, ih]
      rfl

theorem unescaped_escaped (cs rest : List Char) :
    unescaped (cs.flatMap escapedChar ++ rest) = cs ++ unescaped rest := by
  induction cs with
  | nil => rfl
  | cons c cs ih =>
    rw [List.flatMap_cons, List.append_assoc, List.cons_append, ← ih]
    by_cases plain : Plain c
    · rw [escapedChar_of_plain plain]
      exact unescaped_plain plain
    · rw [escapedChar_of_not_plain plain]
      rfl

theorem unescaped_escaped_all (cs : List Char) : unescaped (cs.flatMap escapedChar) = cs := by
  have h := unescaped_escaped cs []
  rwa [List.append_nil, show unescaped [] = [] from rfl, List.append_nil] at h

theorem toList_pairText (p : String × String) : (pairText p).toList =
    p.1.toList.flatMap escapedChar ++ '=' :: p.2.toList.flatMap escapedChar := by
  rw [← toList_escaped, ← toList_escaped, pairText, String.toList_append, String.toList_append,
    List.append_assoc]
  rfl

theorem readPair_pairText (p : String × String) : readPair (pairText p).toList = some p := by
  rw [readPair, toList_pairText, cut_escaped, Option.map_some, unescaped_escaped_all, unescaped_escaped_all,
    String.ofList_toList, String.ofList_toList]

section Numbers

theorem toList_toString (id : UInt64) : (toString id).toList = Nat.toDigits 10 id.toNat := Nat.toList_repr

theorem isDigit_of_mem {id : UInt64} {c : Char} (h : c ∈ (toString id).toList) : c.isDigit = true := by
  rw [toList_toString] at h
  exact Nat.isDigit_of_mem_toDigits (by decide) (by decide) h

/-- Brackets in the label stand before the last one that is opened. -/
theorem readName_append (label : String) (id : UInt64) :
    readName (label.toList ++ '[' :: (toString id).toList ++ [']']) = some (label, id) := by
  have digits : ∀ c ∈ (toString id).toList.reverse, (c != '[') = true := by
    intro c h
    have digit := isDigit_of_mem (List.mem_reverse.1 h)
    refine bne_iff_ne.2 ?_
    rintro rfl
    cases digit
  have back : (label.toList ++ '[' :: (toString id).toList ++ [']']).reverse =
      ']' :: ((toString id).toList.reverse ++ '[' :: label.toList.reverse) := by simp
  have before : ((toString id).toList.reverse ++ '[' :: label.toList.reverse).takeWhile (· != '[') =
      (toString id).toList.reverse := by
    rw [List.takeWhile_append_of_pos digits]
    exact List.append_nil _
  have behind : ((toString id).toList.reverse ++ '[' :: label.toList.reverse).dropWhile (· != '[') =
      '[' :: label.toList.reverse := by
    rw [List.dropWhile_append_of_pos digits]
    rfl
  have number : (toString id).toNat? = some id.toNat := Nat.toNat?_repr id.toNat
  simp only [readName, back, before, behind, List.reverse_reverse, String.ofList_toList, number,
    Option.map_some, UInt64.ofNat_toNat]

theorem toList_name (c : Reading) : (escaped c.label ++ "[" ++ toString c.id ++ "]").toList =
    (c.label.toList ++ '[' :: (toString c.id).toList ++ [']']).flatMap escapedChar := by
  have digits : (toString c.id).toList.flatMap escapedChar = (toString c.id).toList := by
    refine flatMap_escapedChar_of_plain fun digit h => ?_
    have digit := isDigit_of_mem h
    constructor <;> rintro rfl <;> cases digit
  have opening : escapedChar '[' = ['['] := rfl
  have closing : escapedChar ']' = [']'] := rfl
  simp [toList_escaped, digits, opening, closing]

theorem toList_counterText (c : Reading) : (counterText c).toList =
    (c.label.toList ++ '[' :: (toString c.id).toList ++ [']']).flatMap escapedChar ++
      '=' :: (toString c.value).toList := by
  rw [← toList_name, counterText]
  simp only [String.toList_append, List.append_assoc]
  rfl

end Numbers

theorem readStatic_line (p : String × String) :
    readStatic ("static: " ++ pairText p).toList = some p := by
  rw [readStatic, String.toList_append, List.dropPrefix?_append_of_beq _ (beq_self_eq_true _),
    Option.bind_some, readPair_pairText]

theorem readCounter_line (c : Reading) :
    readCounter ("counter: " ++ counterText c).toList = some c := by
  have value : (String.ofList (toString c.value).toList).toInt? = some c.value.toInt := by
    rw [String.ofList_toList]
    exact Int.toInt?_repr c.value.toInt
  rw [readCounter, String.toList_append, List.dropPrefix?_append_of_beq _ (beq_self_eq_true _)]
  simp only [bind, Option.bind_some, toList_counterText, cut_escaped, unescaped_escaped_all,
    readName_append, value, Int64.ofInt_toInt]
  rfl

end SharedCounters.Listing
