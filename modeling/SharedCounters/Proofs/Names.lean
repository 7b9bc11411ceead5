import Mathlib.Logic.Basic
import Mathlib.Tactic.SplitIfs
import SharedCounters.Files.FileSystem

/-! Where paths lead. A file that was made is found at its path, whatever became of its contents since, and
once it is removed again every path leads where it led before. -/

namespace SharedCounters.FileSystem

/-- All that decides where a path leads is as it was. -/
structure SameNames (fs fs' : FileSystem) : Prop where
  entries : fs'.entries = fs.entries
  workingDirectory : fs'.workingDirectory = fs.workingDirectory
  refuses : fs'.refuses = fs.refuses

variable {fs fs' fs'' : FileSystem} {p : Path}

namespace SameNames

theorem refl (fs : FileSystem) : fs.SameNames fs := ⟨rfl, rfl, rfl⟩

theorem trans (h : fs.SameNames fs') (h' : fs'.SameNames fs'') : fs.SameNames fs'' :=
  ⟨h'.entries.trans h.entries, h'.workingDirectory.trans h.workingDirectory, h'.refuses.trans h.refuses⟩

variable (same : fs.SameNames fs')

include same

theorem node?_eq (spot : Location) : fs'.node? spot = fs.node? spot := by
  rw [node?, node?, same.entries]

theorem walk_eq (here : Location) (names : List Name) : fs'.walk here names = fs.walk here names := by
  induction names generalizing here with
  | nil => rfl
  | cons name rest ih => simp only [walk, same.node?_eq, ih]

theorem longRoute_eq (p : Path) : fs'.longRoute p = fs.longRoute p := by
  rw [longRoute, longRoute, same.workingDirectory]

theorem place_eq (p : Path) : fs'.place p = fs.place p := by
  simp only [place, route, same.longRoute_eq, same.walk_eq, same.node?_eq]

theorem find_eq (p : Path) : fs'.find p = fs.find p := by
  simp only [find, route, follow, same.longRoute_eq, same.walk_eq, same.node?_eq]

end SameNames

theorem mem_of_node? {spot : Location} {number : Nat} (h : fs.node? spot = some (.file number)) :
    (spot, .file number) ∈ fs.entries := by
  rw [node?] at h
  split_ifs at h
  · cases h
  · obtain ⟨before, after, e, -⟩ := List.lookup_eq_some_iff.1 h
    rw [e]
    exact List.mem_append_right _ List.mem_cons_self

theorem node?_of_find {entry : Location × Node} (h : fs.find p = .ok entry) :
    fs.node? entry.1 = some entry.2 := by
  simp only [find, follow, bind, Except.bind] at h
  split at h
  · cases h
  · split at h
    · cases h
    · split at h
      · cases h
      · next node there =>
        split_ifs at h
        cases h
        exact there

theorem number_lt_of_find {spot : Location} {number : Nat} (h : fs.find p = .ok (spot, .file number)) :
    number < fs.contents.size :=
  fs.numbered _ _ (mem_of_node? (node?_of_find h))

theorem walk_mono (more : ∀ spot node, fs.node? spot = some node → fs'.node? spot = some node)
    (names : List Name) {here there : Location} (run : fs.walk here names = .ok there) :
    fs'.walk here names = .ok there := by
  induction names generalizing here with
  | nil => exact run
  | cons name rest ih =>
    rw [walk] at run ⊢
    by_cases outside : fs.node? here ≠ some .directory
    · rw [if_pos outside] at run
      cases run
    · rw [if_neg outside] at run
      rw [if_neg (not_not.2 (more _ _ (not_not.1 outside)))]
      split_ifs at run with isDot isDotDot long missing
      · rw [if_pos isDot]
        exact ih run
      · rw [if_neg isDot, if_pos isDotDot]
        exact ih run
      · obtain ⟨node, there⟩ := Option.ne_none_iff_exists'.1 (mt Option.isNone_iff_eq_none.2 missing)
        have present : ¬ (fs'.node? (name :: here)).isNone := by simp [more _ _ there]
        rw [if_neg isDot, if_neg isDotDot, if_neg long, if_neg present]
        exact ih run

theorem walk_append {here there : Location} {names : List Name} (run : fs.walk here names = .ok there)
    (more : List Name) : fs.walk here (names ++ more) = fs.walk there more := by
  induction names generalizing here with
  | nil =>
    cases run
    rfl
  | cons name rest ih =>
    rw [List.cons_append]
    rw [walk] at run ⊢
    split_ifs at run ⊢ with outside isDot isDotDot long missing
    · exact ih run
    · exact ih run
    · exact ih run

section Creation

theorem place_eq_ok_iff {directory : Location} {name : Name} {toDirectory : Bool} :
    fs.place p = .ok (some (directory, name, toDirectory)) ↔ ∃ route before, fs.route p = .ok route ∧
      route.names = before ++ [name] ∧ route.toDirectory = toDirectory ∧
      fs.walk route.start before = .ok directory ∧ fs.node? directory = some .directory ∧
      ¬ (name = dot ∨ name = dotDot) := by
  simp only [place, bind, Except.bind]
  constructor
  · intro h
    split at h
    · cases h
    · next route taken =>
      split at h
      · cases h
      · next last before names =>
        split at h
        · cases h
        · next there walked =>
          split_ifs at h with outside dots
          · cases h
          · cases h
            have e : route.names = before.reverse ++ [name] := by
              rw [← List.reverse_cons, ← names, List.reverse_reverse]
            exact ⟨route, before.reverse, taken, e, rfl, walked, not_not.1 outside, dots⟩
  · rintro ⟨route, before, taken, names, rfl, walked, inside, dots⟩
    have reversed : route.names.reverse = name :: before.reverse := by
      rw [names, List.reverse_append]
      rfl
    simp only [taken, reversed, List.reverse_reverse, walked, if_neg (not_not.2 inside), if_neg dots]
    rfl

/-- What it takes to make a file at a path. -/
structure Vacant (fs : FileSystem) (p : Path) (spot : Location) : Prop where
  placed : ∃ directory name, spot = name :: directory ∧ name.length ≤ maxNameLen ∧
    fs.place p = .ok (some (directory, name, false))
  free : fs.entries.lookup spot = none

variable {file : Nat} {spot : Location}

theorem createFile_eq_ok (h : fs.createFile p = .ok (file, fs')) :
    ∃ spot, fs.Vacant p spot ∧ (file, fs') = fs.addFile spot := by
  simp only [createFile, bind, Except.bind] at h
  split at h
  · cases h
  · next placed =>
    split at h
    · cases h
    · cases h
    · split_ifs at h with long taken
      split at h
      · cases h
      · cases h
        exact ⟨_, ⟨⟨_, _, rfl, Nat.not_lt.1 long, placed⟩, Option.not_isSome_iff_eq_none.1 taken⟩, rfl⟩

namespace Vacant

variable (vacant : fs.Vacant p spot)

include vacant

theorem node?_added : (fs.addFile spot).2.node? spot = some (.file fs.contents.size) := by
  obtain ⟨⟨directory, name, rfl, -⟩, -⟩ := vacant
  exact List.lookup_cons_self

theorem node?_mono (other : Location) (node : Node) (h : fs.node? other = some node) :
    (fs.addFile spot).2.node? other = some node := by
  rw [node?] at h ⊢
  split_ifs at h ⊢
  · exact h
  · have apart : other ≠ spot := by
      rintro rfl
      rw [vacant.free] at h
      cases h
    show List.lookup other ((spot, _) :: fs.entries) = some node
    rw [List.lookup_cons, beq_eq_false_iff_ne.2 apart]
    exact h

theorem place_added : (fs.addFile spot).2.place p = fs.place p := by
  obtain ⟨directory, name, rfl, -, placed⟩ := vacant.placed
  obtain ⟨route, before, taken, names, slash, walked, inside, dots⟩ := place_eq_ok_iff.1 placed
  rw [placed]
  exact place_eq_ok_iff.2 ⟨route, before, taken, names, slash, walk_mono vacant.node?_mono _ walked,
    vacant.node?_mono _ _ inside, dots⟩

theorem find_added : (fs.addFile spot).2.find p = .ok (spot, .file fs.contents.size) := by
  have there := vacant.node?_added
  obtain ⟨directory, name, rfl, short, placed⟩ := vacant.placed
  rw [← vacant.place_added] at placed
  obtain ⟨route, before, taken, names, slash, walked, inside, dots⟩ := place_eq_ok_iff.1 placed
  have last : (fs.addFile (name :: directory)).2.walk directory [name] = .ok (name :: directory) := by
    rw [walk, if_neg (not_not.2 inside), if_neg (fun e => dots (.inl e)), if_neg (fun e => dots (.inr e)),
      if_neg (Nat.not_lt.2 short), if_neg (by simp [there])]
    rfl
  have whole : (fs.addFile (name :: directory)).2.walk route.start route.names = .ok (name :: directory) := by
    rw [names, walk_append walked, last]
  simp only [find, taken, follow, bind, Except.bind, whole, there, slash]
  rfl

/-- If it can be removed at all, removing the new file takes back what making it did. -/
theorem removeFile_added (same : (fs.addFile spot).2.SameNames fs') (willing : fs.refuses (.removal p) = none) :
    ∃ fs'', fs'.removeFile p = .ok fs'' ∧ fs.SameNames fs'' := by
  have there := vacant.node?_added
  have placedStill := vacant.place_added
  have alone : fs.entries.filter (fun entry => entry.1 != spot) = fs.entries := by
    refine List.filter_eq_self.2 fun entry mem => ?_
    rw [bne_comm]
    exact List.lookup_eq_none_iff.1 vacant.free entry mem
  obtain ⟨directory, name, rfl, short, placed⟩ := vacant.placed
  rw [← placedStill, ← same.place_eq] at placed
  rw [← same.node?_eq] at there
  have willing : fs'.refuses (.removal p) = none := by
    rw [same.refuses]
    exact willing
  refine ⟨fs'.dropEntry (name :: directory), ?_, ?_, same.workingDirectory, same.refuses⟩
  · simp only [removeFile, placed, bind, Except.bind, if_neg (Nat.not_lt.2 short), there, willing]
    rfl
  · have e : (fs'.dropEntry (name :: directory)).entries =
        fs'.entries.filter fun entry => entry.1 != name :: directory := rfl
    rw [e, same.entries]
    show List.filter _ ((name :: directory, _) :: fs.entries) = fs.entries
    rw [List.filter_cons, if_neg (by simp), alone]

end Vacant

end Creation

end SharedCounters.FileSystem
