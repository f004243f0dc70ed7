import NetworkStructure.Run

/-! # Simulation

`Reaches step x P`: some run from `x` ends in a state that satisfies `P`.  One system simulates
another along a relation when it can follow every step of the other, by a run of its own, to a
related state; then it can follow every run (`Simulates.run`). -/

namespace NetworkStructure

variable {σ ℓ τ κ : Type*} {step : σ → ℓ → σ → Prop} {step' : τ → κ → τ → Prop}

/-- Some run from `x` ends in a state that satisfies `P`. -/
def Reaches (step : τ → κ → τ → Prop) (x : τ) (P : τ → Prop) : Prop :=
  ∃ ls y, Run step x ls y ∧ P y

namespace Reaches

variable {x y : τ} {P Q : τ → Prop}

theorem refl (h : P x) : Reaches step' x P := ⟨[], x, .nil x, h⟩

theorem cons {a : κ} (hs : step' x a y) (h : Reaches step' y P) : Reaches step' x P := by
  obtain ⟨ls, z, hrun, hz⟩ := h
  exact ⟨a :: ls, z, .cons hs hrun, hz⟩

theorem bind (h : Reaches step' x P) (hP : ∀ y, P y → Reaches step' y Q) : Reaches step' x Q := by
  obtain ⟨ls, y, hrun, hy⟩ := h
  obtain ⟨ms, z, hrun', hz⟩ := hP y hy
  exact ⟨ls ++ ms, z, hrun.append hrun', hz⟩

end Reaches

/-- `step'` can follow every step of `step`, along the relation `R`. -/
def Simulates (step : σ → ℓ → σ → Prop) (step' : τ → κ → τ → Prop) (R : σ → τ → Prop) : Prop :=
  ∀ s a t x, R s x → step s a t → Reaches step' x (R t)

/-- **A simulation of steps is one of runs.** -/
theorem Simulates.run {R : σ → τ → Prop} (h : Simulates step step' R) {s t : σ} {ls : List ℓ}
    (run : Run step s ls t) {x : τ} (h0 : R s x) : Reaches step' x (R t) := by
  induction run generalizing x with
  | nil => exact .refl h0
  | cons hs _ ih => exact (h _ _ _ _ h0 hs).bind fun y hy => ih hy

end NetworkStructure
