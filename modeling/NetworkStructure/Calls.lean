import Mathlib.Data.List.Basic

/-! # Objects that are called

`calls act s cs` makes the calls `cs` one after another on an object in the state `s`; it has the
answers in their order and the state afterwards, or is `none` where a call is not possible.

An object does what another one says (`calls_map`): where each call gives the same answer on the
abstraction of the state, is possible on both or on neither, and the abstraction of what follows is
what follows the abstraction, the same holds for all sequences of calls.  The condition `I` may
speak of the calls that are still to come, so that it can be a budget which they use up. -/

namespace NetworkStructure

variable {σ τ ι ο : Type*}

def calls (act : σ → ι → Option (ο × σ)) : σ → List ι → Option (List ο × σ)
  | s, [] => some ([], s)
  | s, c :: cs =>
      (act s c).bind fun r => (calls act r.2 cs).map fun rs => (r.1 :: rs.1, rs.2)

/-- The answers, and the abstraction of the state. -/
def abstraction (f : σ → τ) (r : ο × σ) : ο × τ := (r.1, f r.2)

/-- Calls that are given in other words. -/
theorem calls_comap {κ : Type*} (act : σ → ι → Option (ο × σ)) (f : κ → ι) (s : σ) (cs : List κ) :
    calls act s (cs.map f) = calls (fun s c => act s (f c)) s cs := by
  induction cs generalizing s with
  | nil => rfl
  | cons c cs ih => simp only [List.map_cons, calls, ih]

variable {act : σ → ι → Option (ο × σ)} {act' : τ → ι → Option (ο × τ)}

/-- **Refinement**: an object that follows another one in each call follows it in every sequence
of calls. -/
theorem calls_map {f : σ → τ} {I : σ → List ι → Prop}
    (hstep : ∀ s c cs, I s (c :: cs) →
      (act s c).map (abstraction f) = act' (f s) c ∧ ∀ r, act s c = some r → I r.2 cs)
    {s : σ} {cs : List ι} (h : I s cs) :
    (calls act s cs).map (abstraction f) = calls act' (f s) cs := by
  induction cs generalizing s with
  | nil => rfl
  | cons c cs ih =>
      obtain ⟨hact, hnext⟩ := hstep s c cs h
      rw [calls, calls, ← hact]
      cases ha : act s c with
      | none => rfl
      | some r =>
          have hr := ih (hnext r ha)
          simp only [Option.map_some, Option.bind_some, abstraction] at hr ⊢
          rw [← hr]
          cases calls act r.2 cs <;> rfl

/-- **Simulation**: an object that can do each call the other one can do, with the same answer,
can do every sequence of calls that the other one can do. -/
theorem calls_simulation {R : σ → τ → Prop}
    (hstep : ∀ s t c r', R s t → act' t c = some r' →
      ∃ s', act s c = some (r'.1, s') ∧ R s' r'.2)
    {s : σ} {t : τ} {cs : List ι} {r' : List ο × τ} (h : R s t)
    (hr : calls act' t cs = some r') : ∃ s', calls act s cs = some (r'.1, s') ∧ R s' r'.2 := by
  induction cs generalizing s t r' with
  | nil =>
      cases hr
      exact ⟨s, rfl, h⟩
  | cons c cs ih =>
      obtain ⟨r₁, h₁, hrest⟩ := Option.bind_eq_some_iff.mp hr
      obtain ⟨r₂, h₂, rfl⟩ := Option.map_eq_some_iff.mp hrest
      obtain ⟨s₁, hs₁, hR₁⟩ := hstep s t c r₁ h h₁
      obtain ⟨s₂, hs₂, hR₂⟩ := ih hR₁ h₂
      refine ⟨s₂, ?_, hR₂⟩
      rw [calls, hs₁, Option.bind_some, hs₂]
      rfl

/-- **Invariant rule**: what each call keeps holds when all of them have been made.  The invariant
may speak of the calls that are still to come. -/
theorem calls_invariant {I : σ → List ι → Prop}
    (hstep : ∀ s c cs r, I s (c :: cs) → act s c = some r → I r.2 cs)
    {s : σ} {cs : List ι} {r : List ο × σ} (hr : calls act s cs = some r) (h : I s cs) :
    I r.2 [] := by
  induction cs generalizing s r with
  | nil =>
      cases hr
      exact h
  | cons c cs ih =>
      obtain ⟨r₁, h₁, hrest⟩ := Option.bind_eq_some_iff.mp hr
      obtain ⟨r₂, h₂, rfl⟩ := Option.map_eq_some_iff.mp hrest
      exact ih (r := r₂) h₂ (hstep s c cs r₁ h h₁)

end NetworkStructure
