import SharedCounters.Files.Host

/-! What holds after an operation on the files, whichever way it ends. There is one rule for each way of
putting operations together, so an operation is followed step by step. -/

namespace SharedCounters

/-- What holds after an operation that succeeds, and after one that fails. -/
def Ensures {ε α : Type} (operation : EStateM ε FileSystem α) (fs : FileSystem)
    (done : α → FileSystem → Prop) (failed : FileSystem → Prop) : Prop :=
  match operation fs with
  | .ok a fs' => done a fs'
  | .error _ fs' => failed fs'

section Ensures

variable {ε α β : Type} {fs : FileSystem} {done : β → FileSystem → Prop} {failed : FileSystem → Prop}

theorem Ensures.bind {first : EStateM ε FileSystem α} {next : α → EStateM ε FileSystem β}
    (between : α → FileSystem → Prop) (h : Ensures first fs between failed)
    (later : ∀ a fs', between a fs' → Ensures (next a) fs' done failed) :
    Ensures (first >>= next) fs done failed := by
  simp only [Ensures, Bind.bind, EStateM.bind] at h later ⊢
  cases run : first fs with
  | ok a fs' =>
    rw [run] at h
    exact later a fs' h
  | error failure fs' =>
    rw [run] at h
    exact h

theorem Ensures.mono {operation : EStateM ε FileSystem β} {done' : β → FileSystem → Prop}
    {failed' : FileSystem → Prop} (h : Ensures operation fs done failed)
    (hd : ∀ a fs', done a fs' → done' a fs') (hf : ∀ fs', failed fs' → failed' fs') :
    Ensures operation fs done' failed' := by
  simp only [Ensures] at h ⊢
  split at h
  · next a fs' run => exact hd a fs' h
  · next failure fs' run => exact hf fs' h

/-- What a failure leaves behind is taken back. -/
theorem Ensures.recover {first : EStateM ε FileSystem β} {amend : ε → EStateM ε FileSystem β}
    (between : FileSystem → Prop) (h : Ensures first fs done between)
    (later : ∀ failure fs', between fs' → Ensures (amend failure) fs' done failed) :
    Ensures (tryCatch first amend) fs done failed := by
  have e : tryCatch first amend = EStateM.tryCatch first amend := rfl
  simp only [Ensures, e] at h later ⊢
  delta EStateM.tryCatch
  dsimp only
  cases run : first fs with
  | ok a fs' =>
    rw [run] at h
    exact h
  | error failure fs' =>
    rw [run] at h
    exact later failure fs' h

theorem ensures_throw {failure : ε} (hf : failed fs) :
    Ensures (throw failure : EStateM ε FileSystem β) fs done failed := hf

theorem ensures_get_bind {next : FileSystem → EStateM ε FileSystem β} (h : Ensures (next fs) fs done failed) :
    Ensures (get >>= next) fs done failed := h

theorem ensures_modify (done : PUnit → FileSystem → Prop) {step : FileSystem → FileSystem}
    (hd : done ⟨⟩ (step fs)) : Ensures (modify step : EStateM ε FileSystem PUnit) fs done failed := hd

theorem ensures_demand (done : PUnit → FileSystem → Prop) {d : Demand} (hd : done ⟨⟩ fs)
    (hf : fs.refuses d ≠ none → failed fs) : Ensures (Host.demand d) fs done failed := by
  simp only [Ensures, Host.demand]
  cases refused : fs.refuses d with
  | some cause => exact hf (by simp [refused])
  | none => exact hd

theorem ensures_request (done : β → FileSystem → Prop) {result : Except BadRequest β}
    (hd : ∀ a, result = .ok a → done a fs) (hf : ∀ cause, result = .error cause → failed fs) :
    Ensures (Host.request result) fs done failed := by
  cases result with
  | ok a => exact hd a rfl
  | error cause => exact hf cause rfl

theorem ensures_change (done : β → FileSystem → Prop)
    {step : FileSystem → Except BadFile (β × FileSystem)}
    (hd : ∀ a fs', step fs = .ok (a, fs') → done a fs') (hf : failed fs) :
    Ensures (Host.change step) fs done failed := by
  simp only [Ensures, Host.change]
  cases run : step fs with
  | ok out => exact hd out.1 out.2 run
  | error cause => exact hf

end Ensures

end SharedCounters
