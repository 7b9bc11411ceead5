import Mathlib.Order.Bounds.Basic
import SharedCounters.Proofs.CleanStart
import SharedCounters.Proofs.Pages

/-! The length of a mapping is exact. What the environment makes of any settings has pages a power of two
long, and for such pages the length of a mapping, computed on words, is the least multiple of the page size
from the end of the region on. New files are mapped at this length. -/

namespace SharedCounters

theorem roundUp_le {value unit len : Nat} (dvd : unit ∣ len) (le : value ≤ len) : roundUp value unit ≤ len := by
  obtain ⟨count, rfl⟩ := dvd
  rcases Nat.eq_zero_or_pos unit with rfl | pos
  · exact Nat.zero_le _
  · have quotient : (value + (unit - 1)) / unit < count + 1 := by
      rw [Nat.div_lt_iff_lt_mul pos, Nat.succ_mul, Nat.mul_comm count]
      omega
    rw [roundUp, Nat.mul_comm unit]
    exact Nat.mul_le_mul_right unit (Nat.le_of_lt_succ quotient)

theorem isLeast_roundUp (value : Nat) {unit : Nat} (pos : 0 < unit) :
    IsLeast {len | unit ∣ len ∧ value ≤ len} (roundUp value unit) :=
  ⟨⟨dvd_roundUp .., le_roundUp _ pos⟩, fun _ ⟨dvd, le⟩ => roundUp_le dvd le⟩

theorem Settings.check_of_override {base settings : Settings} {env : Environment}
    (h : base.override env = .ok settings) : settings.check = .ok () := by
  simp only [override, bind, Except.bind] at h
  split at h
  · cases h
  split at h
  · cases h
  split at h
  · cases h
  next checked =>
    cases h
    exact checked

theorem Partition.isLeast_mappedLen (p : Partition) {settings : Settings} (checked : settings.check = .ok ()) :
    IsLeast {len | settings.pageSize.toNat ∣ len ∧ p.extent ≤ len} (p.mappedLen settings.pageSize).toNat := by
  obtain ⟨k, -, e⟩ := Settings.check_eq_ok_iff.1 checked
  rw [p.toNat_mappedLen checked]
  exact isLeast_roundUp p.extent (e ▸ Nat.two_pow_pos k)

/-- A region that was just made is divided as the arguments ask for, and ends within its file, all of which
is mapped. -/
theorem Place.lengths_of_make {place : Place} {statics : Statics} {slots : Nat} {settings : Settings}
    {origin : Origin} {fs fs' : FileSystem} {w : Writer} (there : place.There fs)
    (h : place.make statics slots settings origin fs = .ok w fs') :
    Partition.ofStatics statics slots = .ok w.blocks.partition ∧
      w.mapping.len = (w.blocks.partition.mappedLen settings.pageSize).toNat ∧
      (fs'.bytes w.mapping.file).size = w.mapping.len ∧ w.blocks.partition.extent ≤ w.mapping.len := by
  have ensured := make_ensures there statics slots settings origin
  rw [Ensures, h] at ensured
  obtain ⟨holds, pristine, -⟩ := ensured
  have fits := w.blocks.fits
  rw [holds.whole] at fits
  exact ⟨pristine.divided, pristine.len_eq, holds.size, fits⟩

namespace Settings

/-- Settings that pass have pages a power of two long, and so have those the environment makes of any
others. Rounding the end of any region up to such a page does not wrap and gives the least multiple from
there on, and a new region is mapped at this length, wherever it is made. -/
theorem mapped_lengths_are_exact :
    (∀ base env settings, override base env = .ok settings → ∃ k < 64, settings.pageSize.toNat = 2 ^ k) ∧
    ∀ settings : Settings, (settings.check = .ok () ↔ ∃ k < 64, settings.pageSize.toNat = 2 ^ k) ∧
      (settings.check = .ok () → ∀ p : Partition, p.extent + (settings.pageSize.toNat - 1) < 2 ^ 64 ∧
        IsLeast {len | settings.pageSize.toNat ∣ len ∧ p.extent ≤ len}
          (p.mappedLen settings.pageSize).toNat) ∧
      ∀ (place : Place) statics slots origin fs w fs', place.There fs →
        place.make statics slots settings origin fs = .ok w fs' →
        Partition.ofStatics statics slots = .ok w.blocks.partition ∧
        w.mapping.len = (w.blocks.partition.mappedLen settings.pageSize).toNat ∧
        (fs'.bytes w.mapping.file).size = w.mapping.len ∧ w.blocks.partition.extent ≤ w.mapping.len := by
  refine ⟨fun base env settings h => check_eq_ok_iff.1 (check_of_override h), fun settings => ?_⟩
  refine ⟨check_eq_ok_iff, fun checked p => ?_, fun _ _ _ _ _ _ _ => Place.lengths_of_make⟩
  exact ⟨p.extent_add_lt checked, p.isLeast_mappedLen checked⟩

/-- The longest region with the longest pages, which a variable asks for; and a short region in a file. -/
theorem mapped_lengths_for_longest :
    let env : Environment := fun name =>
      if name = pageSizeVariable then some (Text.utf8 " 9223372036854775808\n") else none
    let settings : Settings := ⟨Path.ofString "/dev/shm", 9223372036854775808⟩
    let p : Partition := ⟨4294967168, 10000, by decide, by decide, by decide, by decide⟩
    override ⟨Path.ofString "/dev/shm", 4097⟩ env = .ok settings ∧
      (∃ k < 64, settings.pageSize.toNat = 2 ^ k) ∧ p.extent + (settings.pageSize.toNat - 1) < 2 ^ 64 ∧
      IsLeast {len | settings.pageSize.toNat ∣ len ∧ p.extent ≤ len} (p.mappedLen settings.pageSize).toNat ∧
      ∃ w fs, Place.make (.path (.ofString "a")) .empty 1 ⟨⟨[]⟩, 512⟩ ⟨1, 2⟩ (.ofDirectories [] []) = .ok w fs ∧
        w.mapping.len = 1024 := by
  intro env settings p
  have set : override ⟨Path.ofString "/dev/shm", 4097⟩ env = .ok settings := by rfl
  obtain ⟨power, lengths⟩ := mapped_lengths_are_exact
  obtain ⟨small, least⟩ := (lengths settings).2.1 (check_of_override set) p
  have ends : (Host.result (Place.make (.path (.ofString "a")) .empty 1 ⟨⟨[]⟩, 512⟩ ⟨1, 2⟩)
      (.ofDirectories [] [])).isOk = true := by
    decide +kernel
  obtain ⟨w, fs, run⟩ := Host.exists_of_result_isOk ends
  have there : Place.There (.ofDirectories [] []) (.path (.ofString "a")) := trivial
  obtain ⟨divided, len, -⟩ := (lengths ⟨⟨[]⟩, 512⟩).2.2 _ _ _ _ _ _ _ there run
  let short : Partition := ⟨128, 1, by decide, by decide, by decide, by decide⟩
  have same : short = w.blocks.partition := Except.ok.inj divided
  have rounded : (short.mappedLen 512).toNat = 1024 := by decide
  rw [← same] at len
  exact ⟨set, power _ _ _ set, small, least, w, fs, run, len.trans rounded⟩

end Settings

end SharedCounters
