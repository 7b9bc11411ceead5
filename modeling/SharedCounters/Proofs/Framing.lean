import SharedCounters.Proofs.Escapes
import SharedCounters.Proofs.Legibility
import SharedCounters.Proofs.Stores

/-! The lines of a listing. A label or a value brings its own line feeds into the line it is listed in,
and each of them begins another line. Without any, the lines are those of the listing and tell all of it
when they are read back; otherwise there are more lines than there should be. -/

namespace SharedCounters

theorem length_splitOn {α : Type} [BEq α] (sep : α) (xs : List α) :
    (xs.splitOn sep).length = xs.count sep + 1 := by
  induction xs with
  | nil => rfl
  | cons x xs ih =>
    rw [List.splitOn_cons_eq_if_modifyHead, List.count_cons]
    split_ifs
    · rw [List.length_cons, ih]
    · rw [List.length_modifyHead, ih]

namespace Listing

def heading (l : Listing) : List String :=
  [s!"file: {l.file}", s!"version: {l.version}", s!"pid: {l.pid}", s!"started: {l.start}"]

/-- How many line feeds there are in labels and values. -/
def breaks (l : Listing) : Nat :=
  (l.statics.map fun p => p.1.toList.count '\n' + p.2.toList.count '\n').sum +
    (l.counters.map fun c => c.label.toList.count '\n').sum

/-- No label and no value has a line feed. -/
def Unbroken (l : Listing) : Prop :=
  (∀ p ∈ l.statics, '\n' ∉ p.1.toList ∧ '\n' ∉ p.2.toList) ∧ ∀ c ∈ l.counters, '\n' ∉ c.label.toList

def pieces (text : String) : List (List Char) := text.toList.splitOn '\n'

/-- The lines of a listing are its heading, a line for each static and a line for each counter, and
these two tell the statics and the counters. Behind the last line feed there is nothing. -/
def Framed (l : Listing) : Prop := ∃ statics counters : List (List Char),
  pieces l.text = l.heading.map String.toList ++ statics ++ counters ++ [[]] ∧
    statics.map readStatic = l.statics.map some ∧ counters.map readCounter = l.counters.map some

section Counting

theorem count_flatMap_escapedChar (cs : List Char) :
    (cs.flatMap escapedChar).count '\n' = cs.count '\n' := by
  induction cs with
  | nil => rfl
  | cons c cs ih =>
    have one : (escapedChar c).count '\n' = [c].count '\n' := by
      unfold escapedChar
      split_ifs
      · rw [List.count_cons_of_ne (by decide)]
      · rfl
    rw [List.flatMap_cons, List.count_append, one, ih, ← List.count_append, List.singleton_append]

theorem count_repr (n : Nat) : n.repr.toList.count '\n' = 0 := by
  refine List.count_eq_zero.2 fun h => ?_
  rw [Nat.toList_repr] at h
  cases Nat.isDigit_of_mem_toDigits (by decide) (by decide) h

theorem count_toString (value : Int64) : (toString value).toList.count '\n' = 0 := by
  show value.toInt.repr.toList.count '\n' = 0
  rw [Int.repr_eq_if]
  split_ifs
  · exact count_repr _
  · rw [String.toList_append, List.count_append, count_repr]
    rfl

theorem count_static (p : String × String) : ("static: " ++ pairText p).toList.count '\n' =
    p.1.toList.count '\n' + p.2.toList.count '\n' := by
  rw [String.toList_append, toList_pairText, List.count_append, List.count_append,
    List.count_cons_of_ne (by decide), count_flatMap_escapedChar, count_flatMap_escapedChar]
  exact Nat.zero_add _

theorem count_counter (c : Reading) :
    ("counter: " ++ counterText c).toList.count '\n' = c.label.toList.count '\n' := by
  have id : (toString c.id).toList.count '\n' = 0 := count_repr c.id.toNat
  rw [String.toList_append, toList_counterText, List.count_append, List.count_append,
    List.count_cons_of_ne (by decide), count_flatMap_escapedChar, count_toString]
  simp [id]

variable (l : Listing)

theorem lines_eq : l.lines = l.heading ++ l.statics.map ("static: " ++ pairText ·) ++
    l.counters.map ("counter: " ++ counterText ·) := rfl

theorem length_lines : l.lines.length = 4 + l.statics.length + l.counters.length := by
  simp only [lines_eq, List.length_append, List.length_map]
  rfl

theorem count_heading (named : '\n' ∉ l.file.toList) :
    (l.heading.map fun line => line.toList.count '\n').sum = 0 := by
  have file : ("file: " ++ l.file).toList.count '\n' = 0 := by
    rw [String.toList_append, List.count_append, List.count_eq_zero.2 named]
    rfl
  have number : ∀ (title : String) (n : Nat), title.toList.count '\n' = 0 →
      (title ++ n.repr).toList.count '\n' = 0 := fun title n plain => by
    rw [String.toList_append, List.count_append, plain, count_repr]
  have version := number "version: " l.version.toNat rfl
  have pid := number "pid: " l.pid.toNat rfl
  have start := number "started: " l.start.toNat rfl
  show _ + (_ + (_ + (_ + 0))) = 0
  exact congrArg₂ (· + ·) file (congrArg₂ (· + ·) version (congrArg₂ (· + ·) pid start))

theorem count_lines (named : '\n' ∉ l.file.toList) :
    (l.lines.map fun line => line.toList.count '\n').sum = l.breaks := by
  rw [lines_eq, List.map_append, List.map_append, List.sum_append, List.sum_append, count_heading l named,
    Nat.zero_add]
  simp only [List.map_map, Function.comp_def, count_static, count_counter]
  rfl

theorem breaks_eq_zero_iff : l.breaks = 0 ↔ l.Unbroken := by
  simp only [breaks, Unbroken, Nat.add_eq_zero_iff, List.sum_eq_zero_iff, List.forall_mem_map,
    List.count_eq_zero]

end Counting

section Splitting

variable (l : Listing)

theorem toList_text : l.text.toList = l.lines.flatMap fun line => line.toList ++ ['\n'] := by
  rw [text, String.toList_join, List.flatMap_map]
  simp only [String.toList_append]
  rfl

theorem length_pieces (named : '\n' ∉ l.file.toList) :
    (pieces l.text).length = 4 + l.statics.length + l.counters.length + l.breaks + 1 := by
  have ends : ∀ lines : List String, (lines.flatMap fun line => line.toList ++ ['\n']).count '\n' =
      lines.length + (lines.map fun line => line.toList.count '\n').sum := by
    intro lines
    induction lines with
    | nil => rfl
    | cons line lines ih =>
      rw [List.flatMap_cons, List.count_append, List.count_append, ih, List.length_cons, List.map_cons,
        List.sum_cons, List.count_singleton_self]
      omega
  rw [pieces, length_splitOn, toList_text, ends, length_lines, count_lines l named]

/-- Lines without line feeds of their own are found again. -/
theorem splitOn_lines (lines : List String) (whole : ∀ line ∈ lines, '\n' ∉ line.toList) :
    (lines.flatMap fun line => line.toList ++ ['\n']).splitOn '\n' = lines.map String.toList ++ [[]] := by
  induction lines with
  | nil => rfl
  | cons line lines ih =>
    obtain ⟨first, others⟩ := List.forall_mem_cons.1 whole
    rw [List.flatMap_cons, List.append_assoc, List.singleton_append,
      List.splitOn_append_cons_self_of_not_mem first, ih others]
    rfl

theorem framed_iff (named : '\n' ∉ l.file.toList) : l.Framed ↔ l.Unbroken := by
  constructor
  · rintro ⟨statics, counters, found, readStatics, readCounters⟩
    have pairs := congrArg List.length readStatics
    have readings := congrArg List.length readCounters
    have more := l.length_pieces named
    rw [found] at more
    simp only [List.length_append, List.length_map] at more pairs readings
    have heading : l.heading.length = 4 := rfl
    have last : [([] : List Char)].length = 1 := rfl
    exact (breaks_eq_zero_iff l).1 (by omega)
  · intro unbroken
    have none := (count_lines l named).trans ((breaks_eq_zero_iff l).2 unbroken)
    simp only [List.sum_eq_zero_iff, List.forall_mem_map, List.count_eq_zero] at none
    refine ⟨l.statics.map fun p => ("static: " ++ pairText p).toList,
      l.counters.map fun c => ("counter: " ++ counterText c).toList, ?_, ?_, ?_⟩
    · rw [pieces, toList_text, splitOn_lines l.lines none, lines_eq]
      simp only [List.map_append, List.map_map, Function.comp_def]
    · simp only [List.map_map, Function.comp_def, readStatic_line]
    · simp only [List.map_map, Function.comp_def, readCounter_line]

end Splitting

end Listing

theorem Reader.aligned_of_opened {mapping : Mapping} {before after : FileSystem} {r : Reader}
    (opened : ofMapping mapping before = .ok r after) : r.blocks.Aligned := by
  simp only [ofMapping, bind, EStateM.bind, Mapping.read] at opened
  cases run : Blocks.accept mapping.window (before.image mapping.file mapping.len) with
  | error fault => rw [run] at opened; cases opened
  | ok answer =>
    rw [run] at opened
    cases answer with
    | error cause => cases opened
    | ok b =>
      have whole : b.region = mapping.window := Blocks.region_of_accept rfl _ run
      cases opened
      show b.region.base % 8 = 0
      rw [whole]
      rfl

namespace Listing

/-- What a listing tells is what is read. -/
structure Tells (l : Listing) (path : Path) (r : Reader) (fs : FileSystem) : Prop where
  file : l.file = path.display
  version : r.version fs = .ok l.version fs
  pid : r.pid fs = .ok l.pid fs
  start : r.start fs = .ok l.start fs
  statics : r.staticPairs fs = .ok l.statics fs
  counters : r.liveCounters fs = .ok l.counters fs

theorem exists_listing {r : Reader} (aligned : r.blocks.Aligned) (path : Path) (fs : FileSystem) :
    ∃ l, ofReader path r fs = .ok l fs ∧ l.Tells path r fs := by
  have reads := r.blocks.legible aligned (fs.image r.mapping.file r.mapping.len)
  obtain ⟨version, hversion⟩ := reads.version
  obtain ⟨pid, hpid⟩ := reads.pid
  obtain ⟨start, hstart⟩ := reads.start
  obtain ⟨statics, hstatics⟩ := reads.statics
  obtain ⟨counters, hcounters⟩ := reads.listing
  have tells : (⟨path.display, version, pid, start, statics, counters⟩ : Listing).Tells path r fs :=
    ⟨rfl, Mapping.read_eq_ok hversion, Mapping.read_eq_ok hpid, Mapping.read_eq_ok hstart,
      Mapping.read_eq_ok hstatics, Mapping.read_eq_ok hcounters⟩
  refine ⟨_, ?_, tells⟩
  simp only [ofReader, bind, EStateM.bind, tells.version, tells.pid, tells.start, tells.statics,
    tells.counters]
  rfl

/-- Every region that was opened can be listed, whatever its contents are by then. The listing has four
lines, one for each static and each counter, and one more for each line feed in a label or a value; it
has the lines it should have, and they tell the statics and the counters, if and only if there are no
such line feeds. -/
theorem framed_exactly_when_unbroken {mapping : Mapping} {before after : FileSystem} {r : Reader}
    (opened : Reader.ofMapping mapping before = .ok r after) {path : Path}
    (named : '\n' ∉ path.display.toList) (fs : FileSystem) :
    ∃ l, ofReader path r fs = .ok l fs ∧ l.Tells path r fs ∧
      (pieces l.text).length = 4 + l.statics.length + l.counters.length + l.breaks + 1 ∧
      (l.Framed ↔ l.Unbroken) := by
  obtain ⟨l, listed, tells⟩ := exists_listing (Reader.aligned_of_opened opened) path fs
  rw [← tells.file] at named
  exact ⟨l, listed, tells, length_pieces l named, framed_iff l named⟩

section Samples

def samplePath : Path := .ofString "f"

/-- A file of a writer with these statics and, if there is one, a counter, mapped to be read. -/
def sample (given : List (String × String)) (counter : Option (String × Int64)) : Host Mapping := do
  let w ← Writer.make samplePath (.ofList given) 1 ⟨⟨[]⟩, 128⟩ ⟨7, 9⟩
  if let some (label, value) := counter then let _ ← w.add label value
  Mapping.ofPath samplePath

def found {α : Type} (find : Listing → α) (file : Host Mapping) : Option α :=
  (Host.result (do ofReader samplePath (← Reader.ofMapping (← file))) (.ofDirectories [] [])).toOption.map find

theorem exists_of_found {α : Type} {find : Listing → α} {file : Host Mapping} {a : α}
    (h : found find file = some a) : ∃ mapping before r after l,
      file (.ofDirectories [] []) = .ok mapping before ∧ Reader.ofMapping mapping before = .ok r after ∧
      ofReader samplePath r after = .ok l after ∧ l.file = "f" ∧ find l = a := by
  simp only [found, Host.result, bind, EStateM.bind] at h
  cases filed : file (.ofDirectories [] []) with
  | error failure _ => rw [filed] at h; cases h
  | ok mapping before =>
    rw [filed] at h
    cases opened : Reader.ofMapping mapping before with
    | error failure _ => simp only [opened] at h; cases h
    | ok r after =>
      obtain ⟨l, listed, tells⟩ := exists_listing (Reader.aligned_of_opened opened) samplePath after
      simp only [opened, listed] at h
      have name : samplePath.display = "f" := by decide +kernel
      exact ⟨mapping, before, r, after, l, rfl, opened, listed, tells.file.trans name, Option.some.inj h⟩

end Samples

/-- Equals signs, backslashes and brackets do no harm. -/
theorem framed_among_signs : '\n' ∉ samplePath.display.toList ∧ ∃ mapping before r after l,
    sample [("a=\\", "\\b=")] (some ("c[1]=\\", -5)) (.ofDirectories [] []) = .ok mapping before ∧
    Reader.ofMapping mapping before = .ok r after ∧ ofReader samplePath r after = .ok l after ∧
    l.statics = [("a=\\", "\\b=")] ∧ l.counters = [⟨1, "c[1]=\\", -5⟩] ∧ l.Framed := by
  have named : '\n' ∉ samplePath.display.toList := by decide +kernel
  have told : found (fun l => (l.statics, l.counters))
      (sample [("a=\\", "\\b=")] (some ("c[1]=\\", -5))) =
        some ([("a=\\", "\\b=")], [⟨1, "c[1]=\\", -5⟩]) := by decide +kernel
  obtain ⟨mapping, before, r, after, l, filed, opened, listed, -, tells⟩ := exists_of_found told
  obtain ⟨statics, counters⟩ := Prod.mk.inj tells
  obtain ⟨l', listed', -, -, framed⟩ := framed_exactly_when_unbroken opened named after
  cases listed.symm.trans listed'
  refine ⟨named, mapping, before, r, after, l, filed, opened, listed, statics, counters, framed.2 ?_⟩
  rw [Unbroken, statics, counters]
  decide +kernel

/-- A line feed in a label ends its line, and what follows is read as a line of its own. -/
theorem forged_by_a_line_feed : '\n' ∉ samplePath.display.toList ∧ ∃ mapping before r after l,
    sample [("x\nstatic: y", "z")] none (.ofDirectories [] []) = .ok mapping before ∧
    Reader.ofMapping mapping before = .ok r after ∧ ofReader samplePath r after = .ok l after ∧
    l.statics = [("x\nstatic: y", "z")] ∧ l.counters = [] ∧ ¬ l.Framed ∧
    (pieces l.text).length = 4 + 2 + 1 ∧ (pieces l.text).filterMap readStatic = [("y", "z")] := by
  have told : found (fun l => (l.statics, l.counters, (pieces l.text).length,
      (pieces l.text).filterMap readStatic)) (sample [("x\nstatic: y", "z")] none) =
        some ([("x\nstatic: y", "z")], [], 7, [("y", "z")]) := by decide +kernel
  obtain ⟨mapping, before, r, after, l, filed, opened, listed, file, tells⟩ := exists_of_found told
  simp only [Prod.mk.injEq] at tells
  obtain ⟨statics, counters, length, forged⟩ := tells
  have named : '\n' ∉ l.file.toList := by
    rw [file]
    decide +kernel
  refine ⟨by decide +kernel, mapping, before, r, after, l, filed, opened, listed, statics, counters, ?_,
    length, forged⟩
  rw [framed_iff l named, Unbroken, statics, counters]
  decide +kernel

end Listing

end SharedCounters
