import Mathlib.Data.List.Basic

/-! # Computations that may end in a fault

`Ensures P E x` is the postcondition of a computation `x` that returns a value or stops with a
fault: a value satisfies `P`, a fault satisfies `E`.  The rules follow the structure of the
computation: sequence (`Ensures.bind`), consequence (`Ensures.mono`), and a loop over a list
with an invariant (`ensures_foldlM`). -/

namespace NetworkStructure

universe u v

variable {ε : Type u} {α β : Type v}

/-- A value satisfies `P` and a fault satisfies `E`. -/
def Ensures (P : α → Prop) (E : ε → Prop) : Except ε α → Prop
  | .ok a => P a
  | .error e => E e

variable {P : α → Prop} {Q : β → Prop} {E : ε → Prop}

@[simp] theorem ensures_ok {a : α} : Ensures P E (.ok a) ↔ P a := Iff.rfl

@[simp] theorem ensures_error {e : ε} : Ensures P E (.error e) ↔ E e := Iff.rfl

theorem Ensures.bind {x : Except ε α} {f : α → Except ε β} (hx : Ensures P E x)
    (hf : ∀ a, P a → Ensures Q E (f a)) : Ensures Q E (x >>= f) := by
  cases x with
  | ok a => exact hf a hx
  | error e => exact hx

theorem Ensures.map {x : Except ε α} {f : α → β} (hx : Ensures P E x)
    (hf : ∀ a, P a → Q (f a)) : Ensures Q E (x.map f) := by
  cases x with
  | ok a => exact hf a hx
  | error e => exact hx

theorem Ensures.mono {P' : α → Prop} {E' : ε → Prop} {x : Except ε α} (hx : Ensures P E x)
    (hP : ∀ a, P a → P' a) (hE : ∀ e, E e → E' e) : Ensures P' E' x := by
  cases x with
  | ok a => exact hP a hx
  | error e => exact hE e hx

/-- What a computation ensures of the value it returns. -/
theorem Ensures.of_ok {x : Except ε α} (hx : Ensures P E x) {a : α} (h : x = .ok a) : P a := by
  rwa [h] at hx

/-- **Loop rule**: an invariant that every iteration keeps holds at the end of the loop. -/
theorem ensures_foldlM {σ : Type v} {I : σ → Prop} {f : σ → α → Except ε σ} {xs : List α}
    (hstep : ∀ s, I s → ∀ x ∈ xs, Ensures I E (f s x)) {s : σ} (h0 : I s) :
    Ensures I E (xs.foldlM f s) := by
  induction xs generalizing s with
  | nil => exact h0
  | cons x xs ih =>
      rw [List.foldlM_cons]
      exact (hstep s h0 x (List.mem_cons_self ..)).bind fun t ht =>
        ih (fun s' hs' y hy => hstep s' hs' y (List.mem_cons_of_mem _ hy)) ht

end NetworkStructure
