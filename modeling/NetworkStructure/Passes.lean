import Mathlib.Data.Nat.Notation

/-! # Loops that go back to a label

The body of such a loop either goes back to its label, in another state, or leaves the loop with a
result.  Nothing in the loop itself bounds the number of passes, so it is run with a bound on them
(`loop`).

`loop_total` is the rule for total correctness: a variant that every pass which goes back makes
smaller bounds the passes, and an invariant gives what holds of the result. -/

namespace NetworkStructure

variable {σ β : Type*}

/-- How a pass through the body ends. -/
inductive Pass (σ β : Type*) where
  | again (s : σ)
  | leave (b : β)

namespace Pass

/-- The result of the loop; `none` where it is not left in this number of passes. -/
def loop (body : σ → Pass σ β) : ℕ → σ → Option β
  | 0, _ => none
  | passes + 1, s =>
      match body s with
      | .again t => loop body passes t
      | .leave b => some b

variable {body : σ → Pass σ β} {s t : σ} {b : β}

theorem loop_again (h : body s = .again t) (passes : ℕ) :
    loop body (passes + 1) s = loop body passes t := by
  rw [loop, h]

theorem loop_leave (h : body s = .leave b) (passes : ℕ) :
    loop body (passes + 1) s = some b := by
  rw [loop, h]

/-- **Total correctness**: the loop is left in at most one pass more than the variant says, with a
result that the invariant speaks for. -/
theorem loop_total {I : σ → Prop} {variant : σ → ℕ} {Q : β → Prop}
    (hagain : ∀ s t, I s → body s = .again t → I t ∧ variant t < variant s)
    (hleave : ∀ s b, I s → body s = .leave b → Q b) (hs : I s) :
    ∃ b, Q b ∧ ∀ passes > variant s, loop body passes s = some b := by
  induction hn : variant s using Nat.strongRecOn generalizing s with
  | ind n ih =>
      have hsucc : ∀ passes > n, ∃ k, passes = k + 1 := fun passes hp => ⟨passes - 1, by omega⟩
      cases hb : body s with
      | again t =>
          obtain ⟨ht, hlt⟩ := hagain s t hs hb
          obtain ⟨b, hQ, hloop⟩ := ih (variant t) (hn ▸ hlt) ht rfl
          refine ⟨b, hQ, fun passes hp => ?_⟩
          obtain ⟨k, rfl⟩ := hsucc passes hp
          rw [loop_again hb]
          apply hloop
          omega
      | leave b =>
          refine ⟨b, hleave s b hs hb, fun passes hp => ?_⟩
          obtain ⟨k, rfl⟩ := hsucc passes hp
          exact loop_leave hb k

end Pass
end NetworkStructure
