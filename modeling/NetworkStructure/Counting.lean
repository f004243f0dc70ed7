import Mathlib.Data.Nat.Count

/-! # Counting

`Nat.count p n` is the number of the numbers below `n` with the property `p`.  A system of
numbered parties changes one party at a time: `count_comp_update` says what this does to a
count.  `length_eq_count` counts by a list. -/

namespace NetworkStructure

/-- Changing a function at one point changes a count by what it does there. -/
theorem count_comp_update {α : Type*} (P : α → Prop) [DecidablePred P] (f : ℕ → α) {c n : ℕ}
    (hc : c < n) (x : α) :
    Nat.count (fun d => P (Function.update f c x d)) n + (if P (f c) then 1 else 0) =
      Nat.count (fun d => P (f d)) n + (if P x then 1 else 0) := by
  induction n with
  | zero => exact absurd hc (Nat.not_lt_zero c)
  | succ n ih =>
      rw [Nat.count_succ, Nat.count_succ]
      by_cases hn : c = n
      · subst hn
        have he : Nat.count (fun d => P (Function.update f c x d)) c =
            Nat.count (fun d => P (f d)) c := by
          rw [Nat.count_eq_card_filter_range, Nat.count_eq_card_filter_range]
          refine congrArg _ (Finset.filter_congr fun d hd => ?_)
          rw [Function.update_of_ne (Nat.ne_of_lt (Finset.mem_range.mp hd))]
        rw [he, Function.update_self]
        omega
      · have hlt : c < n := Nat.lt_of_le_of_ne (Nat.le_of_lt_succ hc) hn
        have := ih hlt
        rw [Function.update_of_ne (Ne.symm hn)]
        omega

/-- A list without repetition that has exactly the numbers with a property below a bound. -/
theorem length_eq_count {p : ℕ → Prop} [DecidablePred p] {n : ℕ} {xs : List ℕ} (hx : xs.Nodup)
    (h : ∀ d, d ∈ xs ↔ d < n ∧ p d) : xs.length = Nat.count p n := by
  rw [Nat.count_eq_card_filter_range, ← List.toFinset_card_of_nodup hx]
  congr 1
  ext d
  simp [h]

end NetworkStructure
