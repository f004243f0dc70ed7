import Mathlib.Data.List.Basic
import Mathlib.Data.List.Induction
import Mathlib.Tactic.Common

/-! # Frames on a stream

A reader takes a frame from the front of what has arrived, or waits for more.  It is stable when
what arrives later does not change the frame that it has taken, and does not come out of it
(`Stable`).

A receiver that reads as many frames as it can whenever something arrives, and keeps the rest, gets
the same frames however the stream is cut into pieces (`receive_eq`): those of the stream as a
whole.  What it has after a part of the stream is a beginning of what it has in the end. -/

namespace NetworkStructure

variable {α β : Type*}

/-- The frames that are read, and what is left. -/
def readFrames (read : List β → Option (α × List β)) (s : List β) : List α × List β :=
  go s.length s
where
  /-- At most `n` frames. -/
  go : ℕ → List β → List α × List β
    | 0, s => ([], s)
    | n + 1, s =>
        match read s with
        | none => ([], s)
        | some (a, rest) => (a :: (go n rest).1, (go n rest).2)

/-- The frames that a receiver has got after the pieces, and what it has kept. -/
def receive (read : List β → Option (α × List β)) (pieces : List (List β)) : List α × List β :=
  pieces.foldl (fun got piece =>
    let r := readFrames read (got.2 ++ piece)
    (got.1 ++ r.1, r.2)) ([], [])

/-- Later bytes are left as they are, and a frame is not empty. -/
structure Stable (read : List β → Option (α × List β)) : Prop where
  append : ∀ {s a rest} (more : List β), read s = some (a, rest) →
    read (s ++ more) = some (a, rest ++ more)
  shorter : ∀ {s a rest}, read s = some (a, rest) → rest.length < s.length

variable {read : List β → Option (α × List β)}

theorem readFrames.go_none {s : List β} (h : read s = none) (n : ℕ) :
    readFrames.go read n s = ([], s) := by
  cases n with
  | zero => rfl
  | succ n => simp only [readFrames.go, h]

/-- The bound does not matter where it is large enough. -/
theorem Stable.go_eq (h : Stable read) {n : ℕ} {s : List β} (hn : s.length ≤ n) :
    readFrames.go read n s = readFrames read s := by
  have key : ∀ n m (s : List β), s.length ≤ n → s.length ≤ m →
      readFrames.go read n s = readFrames.go read m s := by
    intro n
    induction n with
    | zero =>
        intro m s hn _
        have hnone : read s = none := by
          cases hr : read s with
          | none => rfl
          | some r => exact absurd (h.shorter hr) (by omega)
        rw [readFrames.go_none hnone, readFrames.go_none hnone]
    | succ n ih =>
        intro m s hn hm
        cases hr : read s with
        | none => rw [readFrames.go_none hr, readFrames.go_none hr]
        | some r =>
            have hlt := h.shorter hr
            obtain ⟨m, rfl⟩ : ∃ k, m = k + 1 := ⟨m - 1, by omega⟩
            simp only [readFrames.go, hr]
            rw [ih m r.2 (by omega) (by omega)]
  exact key n s.length s hn (Nat.le_refl _)

theorem readFrames_none {s : List β} (h : read s = none) : readFrames read s = ([], s) :=
  readFrames.go_none h _

theorem Stable.readFrames_some (h : Stable read) {s : List β} {a : α} {rest : List β}
    (hr : read s = some (a, rest)) :
    readFrames read s = (a :: (readFrames read rest).1, (readFrames read rest).2) := by
  have hlt := h.shorter hr
  obtain ⟨n, hn⟩ : ∃ n, s.length = n + 1 := ⟨s.length - 1, by omega⟩
  rw [readFrames, hn]
  simp only [readFrames.go, hr]
  rw [h.go_eq (by omega)]

/-- **Reading goes on** where it has stopped, when more arrives. -/
theorem Stable.readFrames_append (h : Stable read) (s more : List β) :
    readFrames read (s ++ more) =
      ((readFrames read s).1 ++ (readFrames read ((readFrames read s).2 ++ more)).1,
        (readFrames read ((readFrames read s).2 ++ more)).2) := by
  induction hlen : s.length using Nat.strongRecOn generalizing s with
  | ind n ih =>
      cases hr : read s with
      | none =>
          rw [readFrames_none hr]
          rfl
      | some r =>
          obtain ⟨a, rest⟩ := r
          have hlt := h.shorter hr
          rw [h.readFrames_some (h.append more hr), h.readFrames_some hr,
            ih rest.length (hlen ▸ hlt) rest rfl]
          rfl

/-- **The pieces do not matter.** -/
theorem Stable.receive_eq (h : Stable read) (pieces : List (List β)) :
    receive read pieces = readFrames read pieces.flatten := by
  induction pieces using List.reverseRecOn with
  | nil => rfl
  | append_singleton pieces piece ih =>
      have hstep : receive read (pieces ++ [piece]) =
          ((receive read pieces).1 ++ (readFrames read ((receive read pieces).2 ++ piece)).1,
            (readFrames read ((receive read pieces).2 ++ piece)).2) := by
        unfold receive
        rw [List.foldl_append]
        rfl
      rw [hstep, ih, List.flatten_append, List.flatten_singleton, ← h.readFrames_append]

/-- What has been received of a part of the stream is a beginning of what is received in the
end. -/
theorem Stable.receive_prefix (h : Stable read) (pieces later : List (List β)) :
    (receive read pieces).1 <+: (receive read (pieces ++ later)).1 := by
  rw [h.receive_eq, h.receive_eq, List.flatten_append, h.readFrames_append]
  exact List.prefix_append ..

/-- **Round trip** of a stream of frames. -/
theorem Stable.readFrames_flatMap (h : Stable read) {frame : α → List β} {as : List α}
    (hframe : ∀ a ∈ as, ∀ rest, read (frame a ++ rest) = some (a, rest)) (rest : List β)
    (hrest : read rest = none) : readFrames read (as.flatMap frame ++ rest) = (as, rest) := by
  induction as with
  | nil => exact readFrames_none hrest
  | cons a as ih =>
      rw [List.forall_mem_cons] at hframe
      rw [List.flatMap_cons, List.append_assoc, h.readFrames_some (hframe.1 _), ih hframe.2]

end NetworkStructure
