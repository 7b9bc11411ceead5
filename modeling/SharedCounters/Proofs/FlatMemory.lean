import Mathlib.Algebra.GroupWithZero.Nat
import SharedCounters.Proofs.Frames
import SharedCounters.Proofs.Steps

/-! Accesses through windows are accesses to one array of bytes. However deeply a window was cut, an access
through it reads and writes the bytes at one place of the whole memory, and what is refused changes nothing;
so a run of accesses through any windows is answered as the array alone answers it. -/

namespace SharedCounters

theorem Memory.write_read {n : Nat} (m : Memory n) {address len : Nat} (fits : address + len ≤ n) :
    m.write address (m.read address len) = m := by
  refine ext_byte fun i _ => ?_
  rw [m.byte_write address _ (by rwa [length_read]), length_read]
  split_ifs with inside
  · rw [List.getD_eq_getElem?_getD, List.getElem?_eq_getElem (by rw [length_read]; omega), getElem_read,
      Option.getD_some, Nat.add_sub_cancel' inside.1]
  · rfl

namespace Window

variable {n : Nat} {α : Type} [Word α] (w : Window n) {offset : Nat}

theorem update_eq (fits : offset + Word.size α ≤ w.len) (aligned : (w.base + offset) % Word.size α = 0)
    (next : α → α) (m : Memory n) : w.update offset next m = .ok (wordAt m (w.base + offset))
      (m.write (w.base + offset) (Word.bytes (next (wordAt m (w.base + offset))))) := by
  simp only [update, w.locate_eq fits aligned]

theorem load_clash (fits : offset + Word.size α ≤ w.len) (aligned : (w.base + offset) % Word.size α = 0)
    {order : Order} {clash : OrderClash} (h : order.loadClash = some clash) (m : Memory n) :
    (w.load offset order : Read n α) m = .error (.order clash) := by
  simp only [load, w.locate_eq fits aligned, h]

theorem store_clash (fits : offset + Word.size α ≤ w.len) (aligned : (w.base + offset) % Word.size α = 0)
    {order : Order} {clash : OrderClash} (h : order.storeClash = some clash) (value : α) (m : Memory n) :
    w.store offset value order m = .error (.order clash) m := by
  simp only [store, w.locate_eq fits aligned, h]

theorem exists_locate_error {size : Nat}
    (misplaced : ¬ (offset + size ≤ w.len ∧ (w.base + offset) % size = 0)) :
    ∃ fault, w.locate offset size = .error fault := by
  unfold locate
  split_ifs with inside aligned
  · exact absurd ⟨inside, aligned⟩ misplaced
  · exact ⟨_, rfl⟩
  · exact ⟨_, rfl⟩

section Refused

variable {fault : Fault} (refused : w.locate offset (Word.size α) = .error fault) (m : Memory n)

include refused

theorem load_error (order : Order) : (w.load offset order : Read n α) m = .error fault := by
  simp only [load, refused]

theorem store_error (value : α) (order : Order) : w.store offset value order m = .error fault m := by
  simp only [store, refused]

theorem update_error (next : α → α) : w.update offset next m = .error fault m := by
  simp only [update, refused]

theorem compareExchange_error [DecidableEq α] (current new : α) :
    w.compareExchange offset current new m = .error fault m := by
  simp only [compareExchange, refused]

end Refused

end Window

/-- The integers that are accessed in one piece. -/
inductive Kind
  | u8 | u32 | u64 | i64
  deriving DecidableEq

namespace Kind

abbrev Value : Kind → Type
  | .u8 => UInt8
  | .u32 => UInt32
  | .u64 => UInt64
  | .i64 => Int64

instance : (k : Kind) → Word k.Value
  | .u8 => inferInstanceAs (Word UInt8)
  | .u32 => inferInstanceAs (Word UInt32)
  | .u64 => inferInstanceAs (Word UInt64)
  | .i64 => inferInstanceAs (Word Int64)

instance : (k : Kind) → DecidableEq k.Value
  | .u8 => inferInstanceAs (DecidableEq UInt8)
  | .u32 => inferInstanceAs (DecidableEq UInt32)
  | .u64 => inferInstanceAs (DecidableEq UInt64)
  | .i64 => inferInstanceAs (DecidableEq Int64)

theorem size_dvd (k : Kind) : Word.size k.Value ∣ 8 := by
  cases k <;> decide

end Kind

/-- What can be asked for at an offset of a window, by the answer it has. -/
inductive Access : Type → Type
  | load (k : Kind) (order : Order) : Access k.Value
  | store (k : Kind) (value : k.Value) (order : Order) : Access Unit
  | swap (k : Kind) (value : k.Value) : Access k.Value
  | add (delta : Int64) : Access Int64
  | exchange (k : Kind) (current new : k.Value) : Access (Exchange k.Value)
  | copyIn (bytes : List UInt8) : Access Unit
  | copyOut (len : Nat) : Access (List UInt8)

namespace Access

variable {n : Nat} {α : Type}

def perform (w : Window n) (offset : Nat) : {α : Type} → Access α → Write n α
  | _, .load k order => liftM (w.load offset order : Read n k.Value)
  | _, .store _ value order => w.store offset value order
  | _, .swap _ value => w.swap offset value
  | _, .add delta => w.fetchAdd offset delta
  | _, .exchange _ current new => w.compareExchange offset current new
  | _, .copyIn bytes => w.storeBytes offset bytes
  | _, .copyOut len => liftM (w.loadBytes offset len)

def size : {α : Type} → Access α → Nat
  | _, .load k _ | _, .store k _ _ | _, .swap k _ | _, .exchange k _ _ => Word.size k.Value
  | _, .add _ => Word.size Int64
  | _, .copyIn bytes => bytes.length
  | _, .copyOut len => len

def unit : {α : Type} → Access α → Nat
  | _, .load k _ | _, .store k _ _ | _, .swap k _ | _, .exchange k _ _ => Word.size k.Value
  | _, .add _ => Word.size Int64
  | _, .copyIn _ | _, .copyOut _ => 1

theorem unit_dvd (a : Access α) : a.unit ∣ 8 := by
  cases a with
  | load k | store k | swap k | exchange k => exact k.size_dvd
  | add => exact Nat.dvd_refl 8
  | copyIn | copyOut => exact Nat.one_dvd 8

def Admitted : {α : Type} → Access α → Prop
  | _, .load _ order => order.loadClash = none
  | _, .store _ _ order => order.storeClash = none
  | _, _ => True

/-- The answer that the bytes give, and the bytes that are there afterwards. -/
def effect : {α : Type} → Access α → List UInt8 → α × List UInt8
  | _, .load _ _, old => (Word.ofBytes old, old)
  | _, .store _ value _, _ => ((), Word.bytes value)
  | _, .swap _ value, old => (Word.ofBytes old, Word.bytes value)
  | _, .add delta, old =>
    (Word.ofBytes old, littleEndian 8 ((ofLittleEndian old + Word.toNat delta) % 2 ^ 64))
  | _, .exchange _ current new, old =>
    if Word.ofBytes old = current then (.swapped current, Word.bytes new) else (.found (Word.ofBytes old), old)
  | _, .copyIn bytes, _ => ((), bytes)
  | _, .copyOut _, old => (old, old)

/-- The access as one to an array of bytes. -/
def onArray (a : Access α) (address : Nat) (bytes : Nat → UInt8) : α × (Nat → UInt8) :=
  let after := a.effect ((List.range' address a.size).map bytes)
  (after.1, fun i => if address ≤ i ∧ i < address + a.size then after.2.getD (i - address) 0 else bytes i)

theorem length_effect (a : Access α) {old : List UInt8} (whole : old.length = a.size) :
    (a.effect old).2.length = a.size := by
  cases a with
  | load k order => exact whole
  | store k value order => exact Word.length_bytes value
  | swap k value => exact Word.length_bytes value
  | add delta => exact length_littleEndian ..
  | exchange k current new =>
    rw [effect]
    split_ifs
    · exact Word.length_bytes new
    · exact whole
  | copyIn bytes => rfl
  | copyOut len => exact whole

theorem bytes_add (a b : Int64) :
    Word.bytes (a + b) = littleEndian 8 ((Word.toNat a + Word.toNat b) % 2 ^ 64) := by
  have sum : Word.toNat (a + b) = (Word.toNat a + Word.toNat b) % 2 ^ 64 :=
    UInt64.toNat_add a.toUInt64 b.toUInt64
  rw [Word.bytes, sum]
  rfl

theorem toNat_wordAt {α : Type} [Word α] (m : Memory n) (address : Nat) :
    Word.toNat (Window.wordAt m address : α) = ofLittleEndian (m.read address (Word.size α)) := by
  have small := ofLittleEndian_lt (m.read address (Word.size α))
  rw [Memory.length_read] at small
  exact Word.toNat_ofNat _ small

section Performing

variable (w : Window n) {offset : Nat} (a : Access α) (m : Memory n)

theorem perform_eq (inside : offset + a.size ≤ w.len) (aligned : (w.base + offset) % a.unit = 0)
    (admitted : a.Admitted) : a.perform w offset m =
      .ok (a.effect (m.read (w.base + offset) a.size)).1
        (m.write (w.base + offset) (a.effect (m.read (w.base + offset) a.size)).2) := by
  -- what is only read is written back
  have same : m.write (w.base + offset) (m.read (w.base + offset) a.size) = m := by
    have fits := w.fits
    exact m.write_read (by omega)
  cases a with
  | load k order =>
    rw [perform, Write.lift_read (w.load_eq inside aligned admitted m)]
    exact congrArg _ same.symm
  | store k value order => exact w.store_eq inside aligned admitted value m
  | swap k value => exact w.update_eq inside aligned (fun _ => value) m
  | add delta =>
    simp only [perform, Window.fetchAdd, w.update_eq inside aligned, effect, bytes_add, toNat_wordAt]
    rfl
  | exchange k current new =>
    rw [perform, w.compareExchange_eq inside aligned]
    by_cases found : (Window.wordAt m (w.base + offset) : k.Value) = current
    · have swapped : (exchange k current new).effect (m.read (w.base + offset) (exchange k current new).size) =
          (.swapped current, Word.bytes new) := if_pos found
      rw [if_pos found, swapped, found]
    · have kept : (exchange k current new).effect (m.read (w.base + offset) (exchange k current new).size) =
          (.found (Window.wordAt m (w.base + offset)),
            m.read (w.base + offset) (exchange k current new).size) := if_neg found
      rw [if_neg found, kept, same]
  | copyIn bytes => exact w.storeBytes_eq inside m
  | copyOut len =>
    have inside : offset + len ≤ w.len := inside
    rw [perform, Write.lift_read (w.loadBytes_eq inside m)]
    exact congrArg _ same.symm

theorem exists_error_of_misplaced
    (misplaced : ¬ (offset + a.size ≤ w.len ∧ (w.base + offset) % a.unit = 0)) :
    ∃ fault, a.perform w offset m = .error fault m := by
  cases a with
  | load k order =>
    obtain ⟨fault, refused⟩ := w.exists_locate_error misplaced
    exact ⟨fault, Write.lift_error (w.load_error refused m order)⟩
  | store k value order =>
    obtain ⟨fault, refused⟩ := w.exists_locate_error misplaced
    exact ⟨fault, w.store_error refused m value order⟩
  | swap k value =>
    obtain ⟨fault, refused⟩ := w.exists_locate_error misplaced
    exact ⟨fault, w.update_error refused m fun _ => value⟩
  | add delta =>
    obtain ⟨fault, refused⟩ := w.exists_locate_error misplaced
    exact ⟨fault, w.update_error refused m fun old => old + delta⟩
  | exchange k current new =>
    obtain ⟨fault, refused⟩ := w.exists_locate_error misplaced
    exact ⟨fault, w.compareExchange_error refused m current new⟩
  | copyIn bytes =>
    have outside : ¬ offset + bytes.length ≤ w.len := fun inside => misplaced ⟨inside, Nat.mod_one _⟩
    exact ⟨_, if_neg outside⟩
  | copyOut len =>
    have outside : ¬ offset + len ≤ w.len := fun inside => misplaced ⟨inside, Nat.mod_one _⟩
    exact ⟨_, Write.lift_error (if_neg outside)⟩

theorem exists_error_of_clash (inside : offset + a.size ≤ w.len) (aligned : (w.base + offset) % a.unit = 0)
    (clash : ¬ a.Admitted) : ∃ fault, a.perform w offset m = .error fault m := by
  cases a with
  | load k order =>
    obtain ⟨cause, h⟩ := Option.ne_none_iff_exists'.1 clash
    exact ⟨.order cause, Write.lift_error (w.load_clash inside aligned h m)⟩
  | store k value order =>
    obtain ⟨cause, h⟩ := Option.ne_none_iff_exists'.1 clash
    exact ⟨.order cause, w.store_clash inside aligned h value m⟩
  | swap | add | exchange | copyIn | copyOut => exact absurd trivial clash

end Performing

theorem perform_onArray (w : Window n) {offset : Nat} (a : Access α) (m : Memory n)
    (inside : offset + a.size ≤ w.len) (aligned : (w.base + offset) % a.unit = 0) (admitted : a.Admitted) :
    ∃ m', a.perform w offset m = .ok (a.onArray (w.base + offset) m.byte).1 m' ∧
      m'.byte = (a.onArray (w.base + offset) m.byte).2 := by
  refine ⟨_, a.perform_eq w m inside aligned admitted, ?_⟩
  have len := a.length_effect (m.length_read (w.base + offset) a.size)
  have fits := w.fits
  funext i
  rw [m.byte_write _ _ (by rw [len]; omega), len]
  rfl

end Access

section Nesting

variable {n : Nat}

/-- The window that is cut out by these offsets and lengths, each out of the one before. -/
def Window.within (w : Window n) : List (Nat × Nat) → Except Fault (Window n)
  | [] => .ok w
  | (offset, len) :: rest =>
    match w.cut offset len with
    | .ok inner => inner.within rest
    | .error fault => .error fault

/-- Each run of bytes lies in the one before, of which the first has this length. -/
def Nested : Nat → List (Nat × Nat) → Prop
  | _, [] => True
  | room, (offset, len) :: rest => (offset + len < 2 ^ 64 ∧ offset + len ≤ room) ∧ Nested len rest

instance decidableNested : (room : Nat) → (cuts : List (Nat × Nat)) → Decidable (Nested room cuts)
  | _, [] => inferInstanceAs (Decidable True)
  | room, (offset, len) :: rest =>
    have := decidableNested len rest
    inferInstanceAs (Decidable ((offset + len < 2 ^ 64 ∧ offset + len ≤ room) ∧ Nested len rest))

def innermost : Nat → List (Nat × Nat) → Nat
  | room, [] => room
  | _, (_, len) :: rest => innermost len rest

/-- Offsets add up, however deep the nesting. -/
theorem Window.within_of_nested (w : Window n) {cuts : List (Nat × Nat)} (nested : Nested w.len cuts) :
    ∃ inner, w.within cuts = .ok inner ∧ inner.base = w.base + (cuts.map Prod.fst).sum ∧
      inner.len = innermost w.len cuts := by
  induction cuts generalizing w with
  | nil => exact ⟨w, rfl, rfl, rfl⟩
  | cons c rest ih =>
    obtain ⟨⟨-, room⟩, nested⟩ := nested
    obtain ⟨inner, cut, base, len⟩ := ih (w.part c.1 c.2 room) nested
    have first : w.cut c.1 c.2 = .ok (w.part c.1 c.2 room) := dif_pos room
    refine ⟨inner, ?_, ?_, len⟩
    · simp only [within, first, cut]
    · rw [base, List.map_cons, List.sum_cons, ← Nat.add_assoc]
      rfl

theorem Window.within_of_not_nested (w : Window n) (addressable : w.len < 2 ^ 64) {cuts : List (Nat × Nat)}
    (astray : ¬ Nested w.len cuts) : ∃ fault, w.within cuts = .error fault := by
  induction cuts generalizing w with
  | nil => exact absurd trivial astray
  | cons c rest ih =>
    by_cases room : c.1 + c.2 ≤ w.len
    · have first : w.cut c.1 c.2 = .ok (w.part c.1 c.2 room) := dif_pos room
      have small : c.1 + c.2 < 2 ^ 64 := Nat.lt_of_le_of_lt room addressable
      obtain ⟨fault, later⟩ := ih (w.part c.1 c.2 room) (Nat.lt_of_le_of_lt (Nat.le_add_left ..) small)
        fun nested => astray ⟨⟨small, room⟩, nested⟩
      exact ⟨fault, by simp only [within, first, later]⟩
    · have first : w.cut c.1 c.2 = .error (.outOfBounds c.2 c.1 w.len) := dif_neg room
      exact ⟨.outOfBounds c.2 c.1 w.len, by simp only [within, first]⟩

end Nesting

/-- An access at an offset of a window that is cut out of the whole memory. -/
structure Step where
  cuts : List (Nat × Nat)
  offset : Nat
  {answer : Type}
  access : Access answer

namespace Step

variable {n : Nat} (s : Step)

def perform : Write n s.answer := fun m =>
  match (Window.whole n).within s.cuts with
  | .ok w => s.access.perform w s.offset m
  | .error fault => .error fault m

def start : Nat := (s.cuts.map Prod.fst).sum

def address : Nat := s.start + s.offset

/-- What a step needs that takes place in a memory of `n` bytes at the address `root`. -/
structure Fits (root n : Nat) : Prop where
  nested : Nested n s.cuts
  small : s.offset + s.access.size < 2 ^ 64
  inside : s.offset + s.access.size ≤ innermost n s.cuts
  aligned : s.access.unit ∣ root + s.address
  admitted : s.access.Admitted

/-- Alignment counts from the address of the memory, which is a multiple of all sizes. -/
theorem aligned_iff {root : Nat} (placed : 8 ∣ root) :
    s.address % s.access.unit = 0 ↔ s.access.unit ∣ root + s.address := by
  rw [Nat.dvd_add_right (Nat.dvd_trans s.access.unit_dvd placed), Nat.dvd_iff_mod_eq_zero]

theorem exists_window (nested : Nested n s.cuts) : ∃ w : Window n,
    (Window.whole n).within s.cuts = .ok w ∧ w.base + s.offset = s.address ∧ w.len = innermost n s.cuts := by
  obtain ⟨w, cut, base, len⟩ := (Window.whole n).within_of_nested nested
  refine ⟨w, cut, ?_, len⟩
  rw [base, Window.whole, Nat.zero_add]
  rfl

theorem perform_of_fits {root : Nat} (placed : 8 ∣ root) (fits : s.Fits root n) (m : Memory n) :
    ∃ m', s.perform m = .ok (s.access.onArray s.address m.byte).1 m' ∧
      m'.byte = (s.access.onArray s.address m.byte).2 := by
  obtain ⟨w, cut, place, len⟩ := s.exists_window fits.nested
  have inside : s.offset + s.access.size ≤ w.len := len ▸ fits.inside
  have aligned := (s.aligned_iff placed).2 fits.aligned
  rw [← place] at aligned
  have done := s.access.perform_onArray w m inside aligned fits.admitted
  rw [place] at done
  simpa only [perform, cut] using done

theorem perform_of_not_fits {root : Nat} (placed : 8 ∣ root) (addressable : n < 2 ^ 64)
    (astray : ¬ s.Fits root n) (m : Memory n) : ∃ fault, s.perform m = .error fault m := by
  by_cases nested : Nested n s.cuts
  · obtain ⟨w, cut, place, len⟩ := s.exists_window nested
    have refused : ∃ fault, s.access.perform w s.offset m = .error fault m := by
      by_cases there : s.offset + s.access.size ≤ w.len ∧ (w.base + s.offset) % s.access.unit = 0
      · obtain ⟨inside, aligned⟩ := there
        refine s.access.exists_error_of_clash w m inside aligned fun admitted => astray ?_
        have fits := w.fits
        rw [place, s.aligned_iff placed] at aligned
        exact ⟨nested, by omega, len ▸ inside, aligned, admitted⟩
      · exact s.access.exists_error_of_misplaced w m there
    simpa only [perform, cut] using refused
  · obtain ⟨fault, cut⟩ := (Window.whole n).within_of_not_nested addressable nested
    exact ⟨fault, by simp only [perform, cut]⟩

/-- Each step that fits is answered by an array of bytes and does to the memory what it does to the array,
and one that does not is refused and changes nothing. -/
def Agree (root : Nat) : List Step → Memory n → (Nat → UInt8) → Prop
  | [], m, bytes => m.byte = bytes
  | s :: rest, m, bytes => m.byte = bytes ∧
    (s.Fits root n → ∃ m', s.perform m = .ok (s.access.onArray s.address bytes).1 m' ∧
      Agree root rest m' (s.access.onArray s.address bytes).2) ∧
    (¬ s.Fits root n → ∃ fault, s.perform m = .error fault m ∧ Agree root rest m bytes)

theorem onArray_outside {root : Nat} (fits : s.Fits root n) (bytes : Nat → UInt8) {i : Nat}
    (outside : i < s.start ∨ s.start + innermost n s.cuts ≤ i) :
    (s.access.onArray s.address bytes).2 i = bytes i := by
  have inside := fits.inside
  refine if_neg ?_
  unfold address
  omega

/-- Whatever accesses are made through whatever windows, one after the other, a memory is an array of
bytes: what fits is answered by the bytes at the place where the offsets add up to, whichever window they
were written through, and changes no byte outside of its window; all else is refused and changes nothing. -/
theorem windows_show_one_array {root : Nat} (placed : 8 ∣ root) (addressable : n < 2 ^ 64)
    (steps : List Step) (m : Memory n) : Agree root steps m m.byte ∧
      ∀ s ∈ steps, s.Fits root n → ∀ bytes i, (i < s.start ∨ s.start + innermost n s.cuts ≤ i) →
        (s.access.onArray s.address bytes).2 i = bytes i := by
  refine ⟨?_, fun s _ fits bytes i outside => s.onArray_outside fits bytes outside⟩
  induction steps generalizing m with
  | nil => rfl
  | cons s rest ih =>
    by_cases fits : s.Fits root n
    · obtain ⟨m', run, bytes⟩ := s.perform_of_fits placed fits m
      exact ⟨rfl, fun _ => ⟨m', run, bytes ▸ ih m'⟩, fun astray => absurd fits astray⟩
    · obtain ⟨fault, run⟩ := s.perform_of_not_fits placed addressable fits m
      exact ⟨rfl, fun fits' => absurd fits' fits, fun _ => ⟨fault, run, ih m⟩⟩

section Sample

/-- A word of eight bytes in a window of a window. -/
def inDepth : Step := ⟨[(4, 12), (4, 8)], 0, .store .u64 0x0102030405060708 .release⟩

def halfAcross : Step := ⟨[(8, 8)], 4, .load .u32 .acquire⟩

def beyondEnd : Step := ⟨[(8, 8)], 6, .copyIn [9, 9, 9]⟩

/-- The offset is aligned and the window is not. -/
def askew : Step := ⟨[(4, 12)], 0, .load .u64 .relaxed⟩

theorem one_array_through_nested_windows : 8 ∣ 4096 ∧ 32 < 2 ^ 64 ∧
    ∃ (m m' : Memory 32) (fault fault' : Fault), inDepth.perform (Memory.zero 32) = .ok () m ∧
      halfAcross.perform m = .ok (0x01020304 : UInt32) m' ∧
      beyondEnd.perform m' = .error fault m' ∧ askew.perform m' = .error fault' m' := by
  have placed : 8 ∣ 4096 := by decide
  obtain ⟨⟨-, store, -⟩, -⟩ := windows_show_one_array placed (show 32 < 2 ^ 64 by decide)
    [inDepth, halfAcross, beyondEnd, askew] (Memory.zero 32)
  obtain ⟨m, stored, -, load, -⟩ := store ⟨by decide, by decide, by decide, by decide, rfl⟩
  obtain ⟨m', loaded, -, -, copy⟩ := load ⟨by decide, by decide, by decide, by decide, rfl⟩
  obtain ⟨fault, copied, -, -, last⟩ := copy fun fits => absurd fits.inside (by decide)
  obtain ⟨fault', refused, -⟩ := last fun fits => absurd fits.aligned (by decide)
  exact ⟨placed, by decide, m, m', fault, fault', stored, loaded, copied, refused⟩

end Sample

end Step

end SharedCounters
