import Mathlib.Data.List.TakeWhile

/-! # strtok

`strtok` cuts a token off the front of what is left of a string: it skips separators, and takes
what comes up to the next one.  Called until there is nothing left it gives the nonempty pieces of
the string between separators, in their order (`pieces_strtok`), so a loop over the tokens
can be understood by the pieces. -/

namespace NetworkStructure

variable {α : Type*} [DecidableEq α] (sep : α)

/-- One call: the token, and what is left behind the separator that ends it. -/
def strtok (s : List α) : Option (List α × List α) :=
  match s.dropWhile (· = sep) with
  | [] => none
  | c :: cs => some ((c :: cs).takeWhile (· ≠ sep), ((c :: cs).dropWhile (· ≠ sep)).drop 1)

/-- The nonempty pieces between separators. -/
def pieces (s : List α) : List (List α) := (s.splitOn sep).filter (· ≠ [])

variable {sep} {s t rest : List α}

variable (sep s) in
theorem strtok_cases :
    (strtok sep s = none ∧ s.dropWhile (· = sep) = []) ∨
    ∃ c cs, s.dropWhile (· = sep) = c :: cs ∧ c ≠ sep ∧
      strtok sep s =
        some ((c :: cs).takeWhile (· ≠ sep), ((c :: cs).dropWhile (· ≠ sep)).drop 1) := by
  unfold strtok
  cases h : s.dropWhile (· = sep) with
  | nil => exact .inl ⟨rfl, rfl⟩
  | cons c cs =>
      have hc := List.head?_dropWhile_not (· = sep) s
      rw [h] at hc
      exact .inr ⟨c, cs, rfl, of_decide_eq_false hc, rfl⟩

/-- Each token takes at least one character. -/
theorem strtok_length (h : strtok sep s = some (t, rest)) : rest.length < s.length := by
  obtain ⟨hn, -⟩ | ⟨c, cs, hs, hc, ht⟩ := strtok_cases sep s
  · rw [hn] at h
    cases h
  · rw [ht] at h
    cases h
    have hdrop : (s.dropWhile (· = sep)).length ≤ s.length := (List.dropWhile_sublist _).length_le
    have hrest := (List.dropWhile_sublist (l := cs) (· ≠ sep)).length_le
    rw [hs, List.length_cons] at hdrop
    rw [List.dropWhile_cons_of_pos (by simpa using hc), List.length_drop]
    omega

/-! ### The pieces -/

theorem pieces_sep_cons : pieces sep (sep :: s) = pieces sep s := by
  unfold pieces
  rw [List.splitOn_cons_eq_if_modifyHead, if_pos BEq.rfl, List.filter_cons_of_neg (by simp)]

/-- Separators at the front do not matter. -/
theorem pieces_dropWhile : pieces sep (s.dropWhile (· = sep)) = pieces sep s := by
  induction s with
  | nil => rfl
  | cons c cs ih =>
      by_cases hc : c = sep
      · subst hc
        rw [List.dropWhile_cons_of_pos (by simp), ih, pieces_sep_cons]
      · rw [List.dropWhile_cons_of_neg (by simpa using hc)]

/-- A piece at the front, up to the end or to a separator. -/
theorem pieces_append (ht : t ≠ []) (hsep : sep ∉ t) (hrest : ∀ c ∈ rest.head?, c = sep) :
    pieces sep (t ++ rest) = t :: pieces sep (rest.drop 1) := by
  unfold pieces
  cases rest with
  | nil =>
      rw [List.append_nil, List.splitOn_eq_singleton hsep, List.filter_cons_of_pos (by simpa)]
      rfl
  | cons c cs =>
      obtain rfl : c = sep := hrest c rfl
      rw [List.splitOn_append_cons_self_of_not_mem hsep, List.filter_cons_of_pos (by simpa)]
      rfl

/-- Up to the first separator there is one piece. -/
theorem pieces_takeWhile {c : α} {cs : List α} (hc : c ≠ sep) : pieces sep (c :: cs) =
    (c :: cs).takeWhile (· ≠ sep) :: pieces sep (((c :: cs).dropWhile (· ≠ sep)).drop 1) := by
  have hnil : (c :: cs).takeWhile (· ≠ sep) ≠ [] := by
    rw [List.takeWhile_cons_of_pos (by simpa using hc)]
    exact List.cons_ne_nil _ _
  have hmem : sep ∉ (c :: cs).takeWhile (· ≠ sep) := by
    intro h
    simpa using List.mem_takeWhile_imp h
  have hrest : ∀ d ∈ ((c :: cs).dropWhile (· ≠ sep)).head?, d = sep := by
    intro d hd
    have hnot := List.head?_dropWhile_not (· ≠ sep) (c :: cs)
    rw [Option.mem_def.mp hd] at hnot
    exact not_not.mp (of_decide_eq_false hnot)
  rw [← pieces_append hnil hmem hrest, List.takeWhile_append_dropWhile]

/-- **A call of `strtok` takes the first piece.** -/
theorem pieces_strtok (s : List α) : pieces sep s =
    match strtok sep s with
    | none => []
    | some (t, rest) => t :: pieces sep rest := by
  rw [← pieces_dropWhile]
  obtain ⟨hn, hs⟩ | ⟨c, cs, hs, hc, ht⟩ := strtok_cases sep s
  · rw [hn, hs]
    rfl
  · rw [ht, hs]
    exact pieces_takeWhile hc

end NetworkStructure
