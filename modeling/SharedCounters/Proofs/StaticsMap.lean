import Mathlib.Data.List.Sort
import Mathlib.Tactic.SplitIfs
import SharedCounters.Format.Statics

/-! Statics as a map. What a label is mapped to decides everything: two maps that agree on every label
are equal, so the order in which pairs were put in does not matter as long as the later of two values of
one label is the same. -/

namespace SharedCounters

theorem lookup_cons_eq {α β : Type} [DecidableEq α] (key a : α) (b : β) (l : List (α × β)) :
    ((a, b) :: l).lookup key = if key = a then some b else l.lookup key := by
  rw [List.lookup_cons]
  by_cases h : key = a
  · simp [h]
  · have ne : (key == a) = false := beq_eq_false_iff_ne.2 h
    rw [ne, if_neg h]

theorem lookup_insertPair (label value key : String) (l : List (String × String)) :
    (insertPair label value l).lookup key = if key = label then some value else l.lookup key := by
  induction l with
  | nil => rw [insertPair, lookup_cons_eq]
  | cons p rest ih =>
    obtain ⟨first, held⟩ := p
    rw [insertPair]
    by_cases before : labelBefore label first
    · rw [if_pos before, lookup_cons_eq]
    · by_cases same : label = first
      · rw [if_neg before, if_pos same, lookup_cons_eq, lookup_cons_eq, same]
        split_ifs <;> rfl
      · rw [if_neg before, if_neg same, lookup_cons_eq, lookup_cons_eq, ih]
        split_ifs with h1 h2
        · exact absurd (h2.symm.trans h1) same
        · rfl
        · rfl
        · rfl

theorem mem_iff_lookup {l : List (String × String)}
    (sorted : l.Pairwise fun p q => labelBefore p.1 q.1) {p : String × String} :
    p ∈ l ↔ l.lookup p.1 = some p.2 := by
  induction l with
  | nil => simp
  | cons q rest ih =>
    obtain ⟨first, held⟩ := q
    obtain ⟨hfirst, hrest⟩ := List.pairwise_cons.1 sorted
    rw [List.mem_cons, lookup_cons_eq, ih hrest]
    split_ifs with same
    · -- no other pair has this label
      have absent : rest.lookup p.1 ≠ some p.2 := fun h =>
        labelBefore_irrefl _ (same ▸ hfirst p ((ih hrest).2 h))
      rw [or_iff_left absent]
      constructor
      · rintro rfl
        rfl
      · intro h
        exact Prod.ext same (Option.some.inj h).symm
    · rw [or_iff_right]
      rintro rfl
      exact same rfl

namespace Statics

theorem get?_insert (s : Statics) (label value key : String) :
    (s.insert label value).get? key = if key = label then some value else s.get? key :=
  lookup_insertPair label value key s.pairs

theorem mem_pairs_iff {s : Statics} {p : String × String} : p ∈ s.pairs ↔ s.get? p.1 = some p.2 :=
  mem_iff_lookup s.sorted

theorem ext_get? {s t : Statics} (h : ∀ label, s.get? label = t.get? label) : s = t := by
  have pairs : s.pairs = t.pairs := by
    have irrefl : Std.Irrefl fun p q : String × String => labelBefore p.1 q.1 :=
      ⟨fun p => labelBefore_irrefl p.1⟩
    have antisymm : Std.Antisymm fun p q : String × String => labelBefore p.1 q.1 :=
      ⟨fun p q h1 h2 => absurd (labelBefore_trans h1 h2) (labelBefore_irrefl p.1)⟩
    refine List.Pairwise.eq_of_mem_iff s.sorted t.sorted fun p => ?_
    rw [mem_pairs_iff, mem_pairs_iff, h]
  cases s
  cases t
  cases pairs
  rfl

/-- Of the values that were given for a label the last one counts. -/
theorem get?_ofList (l : List (String × String)) (label : String) :
    (ofList l).get? label = l.reverse.lookup label := by
  induction l with
  | nil => rfl
  | cons p rest ih =>
    obtain ⟨first, value⟩ := p
    rw [List.reverse_cons, List.lookup_append, ← ih, ofList]
    by_cases h : label = first
    · subst h
      cases known : (ofList rest).get? label with
      | none => simp [get?_insert]
      | some later => simp [known]
    · have other : List.lookup label [(first, value)] = none := by simp [lookup_cons_eq, h]
      rw [other, Option.or_none]
      split_ifs
      · rfl
      · rw [get?_insert, if_neg h]

theorem get?_foldl_insert (l : List (String × String)) (s : Statics) (label : String) :
    (l.foldl (fun s p => s.insert p.1 p.2) s).get? label = (l.reverse.lookup label).or (s.get? label) := by
  induction l generalizing s with
  | nil => rfl
  | cons p rest ih =>
    obtain ⟨first, value⟩ := p
    rw [List.foldl_cons, ih, List.reverse_cons, List.lookup_append, get?_insert, Option.or_assoc,
      lookup_cons_eq]
    split_ifs <;> rfl

theorem ofList_eq_foldl (l : List (String × String)) :
    ofList l = l.foldl (fun s p => s.insert p.1 p.2) empty :=
  ext_get? fun label => by
    rw [get?_ofList, get?_foldl_insert]
    exact (Option.or_none ..).symm

end Statics

end SharedCounters
