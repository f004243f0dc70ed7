import Mathlib.Data.Int.Notation
import Mathlib.Data.List.Perm.Basic
import NetworkStructure.Epoll

/-! # FdManager

A list of the descriptors of the clients that are connected.  `Insert` appends, `Delete` erases
the first occurrence, and `Find` answers with the descriptor itself, or with -1. -/

namespace NetworkStructure

structure FdManager where
  maxSize_ : ℕ
  fdVec_ : List Fd := []
deriving DecidableEq, Repr

namespace FdManager

variable (m : FdManager) (fd : Fd)

/-- The answer and the manager afterwards.  The test lets the list grow to `maxSize_ + 1`. -/
def insert : ℤ × FdManager :=
  if m.fdVec_.length ≤ m.maxSize_ then (0, { m with fdVec_ := m.fdVec_ ++ [fd] }) else (-1, m)

def delete : ℤ × FdManager :=
  if fd ∈ m.fdVec_ then (0, { m with fdVec_ := m.fdVec_.erase fd }) else (-1, m)

def find : ℤ := if fd ∈ m.fdVec_ then (fd : ℤ) else -1

/-- Has a result type, but returns nothing. -/
def clearAll : FdManager := { m with fdVec_ := [] }

def getTotalCount : ℕ := m.fdVec_.length

@[simp] theorem insert_maxSize_ : (m.insert fd).2.maxSize_ = m.maxSize_ := by
  unfold insert
  split <;> rfl

@[simp] theorem delete_maxSize_ : (m.delete fd).2.maxSize_ = m.maxSize_ := by
  unfold delete
  split <;> rfl

@[simp] theorem delete_fdVec_ : (m.delete fd).2.fdVec_ = m.fdVec_.erase fd := by
  unfold delete
  split
  · rfl
  · next h => exact (List.erase_of_not_mem h).symm

variable {m fd}

theorem insert_fdVec_ (h : m.fdVec_.length ≤ m.maxSize_) :
    (m.insert fd).2.fdVec_ = m.fdVec_ ++ [fd] := by
  unfold insert
  rw [if_pos h]

/-- Descriptor 0 is never found. -/
theorem find_pos : 0 < m.find fd ↔ fd ∈ m.fdVec_ ∧ 0 < fd := by
  unfold find
  split
  · next h => simp [h]
  · next h => simp [h]

end FdManager
end NetworkStructure
