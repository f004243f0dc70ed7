import Mathlib.Data.List.Basic

/-! # Searching for a pattern

`search pat s` is `std::search`: the first position at which `pat` occurs in `s`.  A search that
has found nothing need not be repeated from the front when the sequence grows: a pattern of `k + 1`
elements that occurs now ends behind the old end, so that the last `k` old elements are as far back
as one has to look (`search_append`). -/

namespace NetworkStructure

variable {α : Type*} [DecidableEq α] {pat s t : List α} {i : ℕ}

/-- `std::search`; where nothing is found it is `none` instead of the end. -/
def search (pat : List α) : List α → Option ℕ
  | [] => if pat = [] then some 0 else none
  | x :: xs =>
      if pat <+: x :: xs then some 0 else (search pat xs).map (· + 1)

theorem search_eq_none : search pat s = none ↔ ∀ i, ¬ pat <+: s.drop i := by
  induction s with
  | nil =>
      unfold search
      split
      · next h => simp [h]
      · next h => simp [h]
  | cons x xs ih =>
      unfold search
      split
      · next h => exact iff_of_false (Option.some_ne_none _) fun hn => hn 0 h
      · next h =>
        rw [Option.map_eq_none_iff, ih]
        constructor
        · intro hn i
          cases i with
          | zero => exact h
          | succ i => exact hn i
        · exact fun hn i => hn (i + 1)

/-- What is found is an occurrence, and the first one. -/
theorem search_eq_some : search pat s = some i ↔
    pat <+: s.drop i ∧ i ≤ s.length ∧ ∀ j < i, ¬ pat <+: s.drop j := by
  induction s generalizing i with
  | nil =>
      unfold search
      split
      · next h =>
        subst h
        cases i <;> simp
      · next h => simp [h]
  | cons x xs ih =>
      unfold search
      split
      · next h =>
        constructor
        · rintro ⟨⟩
          exact ⟨h, Nat.zero_le _, fun j hj => absurd hj (Nat.not_lt_zero j)⟩
        · rintro ⟨-, -, hfirst⟩
          cases i with
          | zero => rfl
          | succ i => exact absurd h (hfirst 0 (Nat.succ_pos i))
      · next h =>
        rw [Option.map_eq_some_iff]
        constructor
        · rintro ⟨k, hk, rfl⟩
          obtain ⟨hp, hl, hfirst⟩ := ih.mp hk
          refine ⟨hp, Nat.succ_le_succ hl, fun j hj => ?_⟩
          cases j with
          | zero => exact h
          | succ j => exact hfirst j (Nat.lt_of_succ_lt_succ hj)
        · rintro ⟨hp, hl, hfirst⟩
          cases i with
          | zero => exact absurd hp h
          | succ i =>
              exact ⟨i, ih.mpr ⟨hp, Nat.le_of_succ_le_succ hl,
                fun j hj => hfirst (j + 1) (Nat.succ_lt_succ hj)⟩, rfl⟩

/-- Before the last `k` elements a pattern of `k + 1` elements that is new cannot begin. -/
theorem not_prefix_append {k : ℕ} (hk : pat.length = k + 1) (hs : search pat s = none)
    (hi : i + k < s.length) : ¬ pat <+: (s ++ t).drop i := by
  intro hp
  rw [List.drop_append_of_le_length (by omega)] at hp
  refine search_eq_none.mp hs i (List.prefix_of_prefix_length_le hp (List.prefix_append ..) ?_)
  rw [List.length_drop]
  omega

/-- **A search is resumed** at the last `k` elements, for a pattern of `k + 1`. -/
theorem search_append {k : ℕ} (hk : pat.length = k + 1) (hs : search pat s = none)
    (t : List α) : search pat (s ++ t) =
      (search pat ((s ++ t).drop (s.length - k))).map (s.length - k + ·) := by
  have hnot : ∀ j < s.length - k, ¬ pat <+: (s ++ t).drop j :=
    fun j hj => not_prefix_append hk hs (by omega)
  cases hd : search pat ((s ++ t).drop (s.length - k)) with
  | none =>
      rw [search_eq_none] at hd
      rw [Option.map_none, search_eq_none]
      intro j
      rcases Nat.lt_or_ge j (s.length - k) with hj | hj
      · exact hnot j hj
      · have := hd (j - (s.length - k))
        rwa [List.drop_drop, Nat.add_sub_cancel' hj] at this
  | some i =>
      obtain ⟨hp, hl, hfirst⟩ := search_eq_some.mp hd
      rw [List.drop_drop] at hp
      rw [List.length_drop] at hl
      show search pat (s ++ t) = some (s.length - k + i)
      refine search_eq_some.mpr ⟨hp, ?_, fun j hj => ?_⟩
      · rw [List.length_append] at hl ⊢
        omega
      · rcases Nat.lt_or_ge j (s.length - k) with hlt | hge
        · exact hnot j hlt
        · have := hfirst (j - (s.length - k)) (by omega)
          rwa [List.drop_drop, Nat.add_sub_cancel' hge] at this

end NetworkStructure
