import Mathlib.Data.List.Basic
import Mathlib.Data.Nat.Notation

/-! # Writing through a moving pointer

An `OutBuffer` is a piece of memory with a pointer that goes through it.  To write behind the end
is a fault.  `putAll_eq` says when a number of writes goes well, and what they leave; a loop that
reads what it writes from somewhere else is a number of reads and then of writes
(`foldlM_read`). -/

namespace NetworkStructure

/-- A cell that was never written is `none`; `pos` is where the pointer stands. -/
structure OutBuffer (α : Type*) where
  cells : List (Option α)
  pos : ℕ := 0

namespace OutBuffer

variable {α ι κ : Type*}

/-- `*(ptr++) = a`; `none` behind the end. -/
def put (out : OutBuffer α) (a : α) : Option (OutBuffer α) :=
  if out.pos < out.cells.length then
    some { cells := out.cells.set out.pos (some a), pos := out.pos + 1 }
  else none

/-- `memcpy(ptr, as, n)` and `ptr += n`. -/
def putAll (out : OutBuffer α) (as : List α) : Option (OutBuffer α) := as.foldlM put out

/-- The buffer with `as` where the pointer stood. -/
def filled (out : OutBuffer α) (as : List α) : OutBuffer α where
  cells := out.cells.take out.pos ++ as.map some ++ out.cells.drop (out.pos + as.length)
  pos := out.pos + as.length

theorem putAll_append (out : OutBuffer α) (as bs : List α) :
    out.putAll (as ++ bs) = out.putAll as >>= fun out => out.putAll bs := List.foldlM_append

theorem filled_put {out : OutBuffer α} (h : out.pos < out.cells.length) (a : α) (as : List α) :
    filled { cells := out.cells.set out.pos (some a), pos := out.pos + 1 } as =
      out.filled (a :: as) := by
  have hlen : (out.cells.take out.pos).length = out.pos := by
    rw [List.length_take]
    omega
  have htake : (out.cells.set out.pos (some a)).take (out.pos + 1) =
      out.cells.take out.pos ++ [some a] := by
    rw [List.take_set, List.take_succ_eq_append_getElem h,
      List.set_append_right _ _ (Nat.le_of_eq hlen), hlen, Nat.sub_self]
    rfl
  have hdrop : (out.cells.set out.pos (some a)).drop (out.pos + 1 + as.length) =
      out.cells.drop (out.pos + (as.length + 1)) := by
    rw [List.drop_set_of_lt (by omega)]
    congr 1
    omega
  unfold filled
  simp only [htake, hdrop, List.map_cons, List.length_cons, List.append_assoc,
    List.singleton_append, mk.injEq, true_and]
  omega

/-- **The writes go well exactly if there is room for all of them.** -/
theorem putAll_eq {out : OutBuffer α} (h : out.pos ≤ out.cells.length) (as : List α) :
    out.putAll as =
      if out.pos + as.length ≤ out.cells.length then some (out.filled as) else none := by
  induction as generalizing out with
  | nil =>
      rw [if_pos (by simpa using h)]
      show some out = some (filled out [])
      simp [filled]
  | cons a as ih =>
      unfold putAll
      rw [List.foldlM_cons]
      unfold put
      split
      · next hlt =>
        refine (ih (by rwa [List.length_set])).trans ?_
        rw [filled_put hlt, List.length_set, List.length_cons]
        congr 1
        simp only [eq_iff_iff]
        omega
      · next hge =>
        rw [if_neg (by rw [List.length_cons]; omega)]
        rfl

/-- From the beginning of memory with enough room. -/
theorem putAll_start {cells : List (Option α)} {as : List α} (h : as.length ≤ cells.length) :
    OutBuffer.putAll { cells } as =
      some { cells := as.map some ++ cells.drop as.length, pos := as.length } := by
  rw [putAll_eq (Nat.zero_le _), if_pos (by rwa [Nat.zero_add])]
  unfold filled
  rw [Nat.zero_add, List.take_zero, List.nil_append]

/-- A loop that reads and writes. -/
theorem foldlM_read (read : ι → Option α) (ks : List ι) (out : OutBuffer α) :
    ks.foldlM (fun out k => read k >>= out.put) out = ks.mapM read >>= out.putAll := by
  induction ks generalizing out with
  | nil => rfl
  | cons k ks ih =>
      rw [List.foldlM_cons, List.mapM_cons]
      cases read k with
      | none => rfl
      | some a =>
          have hput : ∀ as, out.putAll (a :: as) = (out.put a).bind fun out => out.putAll as :=
            fun as => List.foldlM_cons
          show ((out.put a).bind fun out => ks.foldlM _ out) =
            ((ks.mapM read).bind fun as => some (a :: as)).bind out.putAll
          calc ((out.put a).bind fun out => ks.foldlM _ out)
              = (out.put a).bind fun out => (ks.mapM read).bind out.putAll :=
                congrArg _ (funext ih)
            _ = (ks.mapM read).bind fun as => (out.put a).bind fun out => out.putAll as :=
                Option.bind_comm ..
            _ = (ks.mapM read).bind fun as => (some (a :: as)).bind out.putAll :=
                congrArg _ (funext fun as => (hput as).symm)
            _ = ((ks.mapM read).bind fun as => some (a :: as)).bind out.putAll :=
                (Option.bind_assoc ..).symm

/-- A loop in a loop. -/
theorem foldlM_rows {β : Type*} (f : β → κ → Option β) (row : ι → List κ) (is : List ι) (b : β) :
    is.foldlM (fun b i => (row i).foldlM f b) b = (is.flatMap row).foldlM f b := by
  induction is generalizing b with
  | nil => rfl
  | cons i is ih =>
      rw [List.foldlM_cons, List.flatMap_cons, List.foldlM_append]
      exact congrArg _ (funext ih)

end OutBuffer
end NetworkStructure
