import Mathlib.Data.List.Basic

/-! # Spans of a vector

`span xs i j` are the elements of `xs` at the indices `i, …, j - 1`, `copyTo xs i data` writes
`data` over the elements from index `i` on (`std::copy` into a vector), and `resize xs n z`
changes the length to `n`, filling with `z`.  The lemmas say what a span of the result is. -/

namespace NetworkStructure

variable {α : Type*}

def span (xs : List α) (i j : ℕ) : List α := (xs.drop i).take (j - i)

def copyTo (xs : List α) (i : ℕ) (data : List α) : List α :=
  xs.take i ++ data ++ xs.drop (i + data.length)

def resize (xs : List α) (n : ℕ) (z : α) : List α :=
  xs.take n ++ List.replicate (n - xs.length) z

@[simp] theorem span_self (xs : List α) (i : ℕ) : span xs i i = [] := by simp [span]

theorem length_span {xs : List α} {i j : ℕ} (h : j ≤ xs.length) :
    (span xs i j).length = j - i := by
  simp only [span, List.length_take, List.length_drop]
  omega

theorem span_drop (xs : List α) (i j n : ℕ) : span xs (i + n) j = (span xs i j).drop n := by
  simp only [span, List.drop_take, List.drop_drop]
  congr 1
  omega

theorem length_copyTo {xs data : List α} {i : ℕ} (h : i + data.length ≤ xs.length) :
    (copyTo xs i data).length = xs.length := by
  simp only [copyTo, List.length_append, List.length_take, List.length_drop]
  omega

theorem add_length_le_copyTo {xs data : List α} {i : ℕ} (h : i ≤ xs.length) :
    i + data.length ≤ (copyTo xs i data).length := by
  simp only [copyTo, List.length_append, List.length_take]
  omega

theorem length_le_copyTo (xs : List α) (i : ℕ) (data : List α) :
    xs.length ≤ (copyTo xs i data).length := by
  simp only [copyTo, List.length_append, List.length_take, List.length_drop]
  omega

theorem length_resize (xs : List α) (n : ℕ) (z : α) : (resize xs n z).length = n := by
  simp only [resize, List.length_append, List.length_take, List.length_replicate]
  omega

/-- A span that ends where the copied data ends. -/
theorem span_copyTo {xs data : List α} {i j : ℕ} (hij : i ≤ j) (hj : j ≤ xs.length) :
    span (copyTo xs j data) i (j + data.length) = span xs i j ++ data := by
  have hd : List.drop i (copyTo xs j data) =
      List.drop i (xs.take j) ++ (data ++ xs.drop (j + data.length)) := by
    rw [copyTo, List.append_assoc, List.drop_append_of_le_length]
    rw [List.length_take]
    omega
  have hs : span xs i j = List.drop i (xs.take j) := by rw [span, List.drop_take]
  have hl : (List.drop i (xs.take j)).length = j - i := by
    simp only [List.length_drop, List.length_take]
    omega
  rw [span, hd, hs, ← List.append_assoc, List.take_append_of_le_length, List.take_of_length_le]
  all_goals simp only [List.length_append, hl]; omega

/-- A span that begins where the copied data begins. -/
theorem span_copyTo_front {xs data : List α} {i j : ℕ} (hij : i + data.length ≤ j)
    (hj : j ≤ xs.length) :
    span (copyTo xs i data) i j = data ++ span xs (i + data.length) j := by
  have hd : List.drop i (copyTo xs i data) = data ++ xs.drop (i + data.length) := by
    rw [copyTo, List.append_assoc]
    refine List.drop_left' ?_
    rw [List.length_take]
    omega
  have hn : j - i = data.length + (j - (i + data.length)) := by omega
  rw [span, span, hd, hn, List.take_length_add_append]

theorem span_take (xs : List α) (i j n : ℕ) : (span xs i j).take n = span xs i (min (i + n) j) := by
  rw [span, span, List.take_take]
  congr 1
  omega

/-- Growing a vector keeps the spans inside it. -/
theorem span_resize {xs : List α} {i j n : ℕ} {z : α} (hj : j ≤ xs.length)
    (hn : xs.length ≤ n) : span (resize xs n z) i j = span xs i j := by
  rw [resize, List.take_of_length_le hn, span, span]
  by_cases hi : i ≤ xs.length
  · rw [List.drop_append_of_le_length hi, List.take_append_of_le_length]
    simp only [List.length_drop]
    omega
  · rw [show j - i = 0 by omega, List.take_zero, List.take_zero]

end NetworkStructure
