import SharedCounters.Proofs.Escapes

/-! Which equals sign separates. Backslashes are taken in pairs from the left, so a sign is escaped if and
only if an odd number of them stands right before it, and `cut` finds the first sign that is not, in every
text. In the text of a pair that is the sign between label and value. -/

namespace SharedCounters.Listing

/-- How many backslashes there are at the end of a text. -/
def trailing (cs : List Char) : Nat := (cs.reverse.takeWhile (· == '\\')).length

/-- An equals sign with no backslash left for it once those before it are taken in pairs. -/
def SeparatesAt (cs : List Char) (i : Nat) : Prop := cs[i]? = some '=' ∧ Even (trailing (cs.take i))

def FirstSeparator (cs : List Char) (i : Nat) : Prop := SeparatesAt cs i ∧ ∀ j < i, ¬ SeparatesAt cs j

section Cutting

variable {cs before behind : List Char}

def escapes (escaping : Bool) (c : Char) : Bool := !escaping && c == '\\'

theorem trailing_append_singleton (cs : List Char) (c : Char) :
    trailing (cs ++ [c]) = if c = '\\' then trailing cs + 1 else 0 := by
  unfold trailing
  rw [List.reverse_append, List.reverse_singleton, List.singleton_append, List.takeWhile_cons]
  by_cases h : c = '\\' <;> simp [h]

/-- Whatever stands before a run of backslashes, only their number tells what is escaped. -/
theorem escaping_iff_odd (cs : List Char) : cs.foldl escapes false = true ↔ Odd (trailing cs) := by
  induction cs using List.reverseRecOn with
  | nil => simp [trailing]
  | append_singleton cs c ih =>
    rw [List.foldl_append, trailing_append_singleton]
    by_cases h : c = '\\'
    · simp only [h, List.foldl_cons, List.foldl_nil, escapes, beq_self_eq_true, Bool.and_true, if_true,
        Nat.odd_add_one, ← ih, Bool.not_eq_true, Bool.not_eq_true']
    · simp [h, escapes]

/-- Where a sign separates in the rest of a text, whose first character may be escaped. -/
def SeparatesFrom (escaping : Bool) (cs : List Char) (i : Nat) : Prop :=
  cs[i]? = some '=' ∧ (cs.take i).foldl escapes escaping = false

def FirstFrom (escaping : Bool) (cs : List Char) (i : Nat) : Prop :=
  SeparatesFrom escaping cs i ∧ ∀ j < i, ¬ SeparatesFrom escaping cs j

theorem separatesAt_iff (i : Nat) : SeparatesAt cs i ↔ SeparatesFrom false cs i := by
  rw [SeparatesAt, SeparatesFrom, ← Nat.not_odd_iff_even, ← escaping_iff_odd, Bool.not_eq_true]

variable {escaping : Bool} {c : Char}

theorem separatesFrom_zero : SeparatesFrom escaping (c :: cs) 0 ↔ escaping = false ∧ c = '=' := by
  simp [SeparatesFrom, and_comm]

theorem separatesFrom_succ (i : Nat) :
    SeparatesFrom escaping (c :: cs) (i + 1) ↔ SeparatesFrom (escapes escaping c) cs i := by
  simp [SeparatesFrom]

theorem firstFrom_zero : FirstFrom escaping (c :: cs) 0 ↔ escaping = false ∧ c = '=' := by
  simp [FirstFrom, separatesFrom_zero]

theorem firstFrom_succ (i : Nat) : FirstFrom escaping (c :: cs) (i + 1) ↔
    ¬ (escaping = false ∧ c = '=') ∧ FirstFrom (escapes escaping c) cs i := by
  simp only [FirstFrom, Nat.forall_lt_succ_left, separatesFrom_zero, separatesFrom_succ, and_left_comm]

theorem cutFrom_cons : cutFrom escaping (c :: cs) =
    if escaping = false ∧ c = '=' then some ([], cs)
    else (cutFrom (escapes escaping c) cs).map (Prod.map (c :: ·) id) := by
  cases escaping
  · simp [cutFrom, escapes]
  · simp [cutFrom, escapes]

theorem cutFrom_eq_some_iff : cutFrom escaping cs = some (before, behind) ↔
    cs = before ++ '=' :: behind ∧ FirstFrom escaping cs before.length := by
  induction cs generalizing escaping before with
  | nil => cases escaping <;> simp [cutFrom]
  | cons c cs ih =>
    rw [cutFrom_cons]
    cases before with
    | nil =>
      rw [List.nil_append, List.length_nil, firstFrom_zero]
      split_ifs with here
      · simp [here, eq_comm]
      · simp [here, Prod.ext_iff]
    | cons d before =>
      rw [List.length_cons, firstFrom_succ, List.cons_append, List.cons.injEq]
      split_ifs with here
      · simp [here]
      · have later : (cutFrom (escapes escaping c) cs).map (Prod.map (c :: ·) id) =
            some (d :: before, behind) ↔ c = d ∧ cutFrom (escapes escaping c) cs = some (before, behind) := by
          cases cutFrom (escapes escaping c) cs <;> simp [Prod.ext_iff, and_assoc]
        rw [later, ih, and_assoc]
        simp only [here, not_false_eq_true, true_and]

theorem cut_eq_some_iff : cut cs = some (before, behind) ↔
    cs = before ++ '=' :: behind ∧ FirstSeparator cs before.length := by
  simp only [cut, cutFrom_eq_some_iff, FirstSeparator, FirstFrom, separatesAt_iff]

example : cut "x\\\\=\\=".toList = some ("x\\\\".toList, "\\=".toList) := by decide

end Cutting

theorem firstSeparator_escaped (cs rest : List Char) :
    FirstSeparator (cs.flatMap escapedChar ++ '=' :: rest) (cs.flatMap escapedChar).length :=
  (cut_eq_some_iff.1 (cut_escaped cs rest)).2

theorem length_le_length_flatMap_escapedChar (cs : List Char) :
    cs.length ≤ (cs.flatMap escapedChar).length := by
  induction cs with
  | nil => exact Nat.le_refl _
  | cons c cs ih =>
    rw [List.flatMap_cons, List.length_append, List.length_cons]
    by_cases plain : Plain c
    · rw [escapedChar_of_plain plain, List.length_singleton]
      omega
    · rw [escapedChar_of_not_plain plain, List.length_cons, List.length_singleton]
      omega

theorem escaped_eq_self_iff (text : String) : escaped text = text ↔ ∀ c ∈ text.toList, Plain c := by
  rw [← String.toList_inj, toList_escaped]
  refine ⟨?_, flatMap_escapedChar_of_plain⟩
  generalize text.toList = cs
  intro same
  induction cs with
  | nil => simp
  | cons c cs ih =>
    rw [List.flatMap_cons] at same
    by_cases plain : Plain c
    · rw [escapedChar_of_plain plain] at same
      exact List.forall_mem_cons.2 ⟨plain, ih (List.cons.inj same).2⟩
    · have longer := length_le_length_flatMap_escapedChar cs
      rw [escapedChar_of_not_plain plain] at same
      have := congrArg List.length same
      simp only [List.length_append, List.length_cons, List.length_nil] at this
      omega

theorem counterText_injective : Function.Injective counterText := by
  intro c d same
  have read := readCounter_line c
  rw [same, readCounter_line d] at read
  exact (Option.some.inj read).symm

/-- In the text of a pair the sign between the two is the first that separates, and without their
backslashes what stands before it and behind it are the two. The text of a counter is cut behind its id
and tells its label, its id and its value. A text without signs to escape is listed as it is. -/
theorem escaped_texts_are_read_back :
    (∀ a b : String, FirstSeparator (pairText (a, b)).toList (escaped a).length ∧
      unescaped ((pairText (a, b)).toList.take (escaped a).length) = a.toList ∧
      unescaped ((pairText (a, b)).toList.drop ((escaped a).length + 1)) = b.toList) ∧
    (∀ c : Reading, FirstSeparator (counterText c).toList
      (escaped c.label ++ "[" ++ toString c.id ++ "]").length) ∧
    Function.Injective counterText ∧ ∀ text, escaped text = text ↔ ∀ c ∈ text.toList, Plain c := by
  refine ⟨fun a b => ?_, fun c => ?_, counterText_injective, escaped_eq_self_iff⟩
  · rw [toList_pairText, ← String.length_toList, toList_escaped, List.take_left, ← List.drop_drop,
      List.drop_left]
    exact ⟨firstSeparator_escaped _ _, unescaped_escaped_all _, unescaped_escaped_all _⟩
  · rw [toList_counterText, ← String.length_toList, toList_name]
    exact firstSeparator_escaped _ _

end SharedCounters.Listing
