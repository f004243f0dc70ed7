import Mathlib.Data.List.Basic

/-! # A queue that is emptied in batches

Producers `push` at the end of `pending`.  The consumer `swap`s `pending` into its own
`batch` and then `take`s the batch item by item, while producers go on pushing.  `taken` is the
history of the items taken.

* Nothing is lost, duplicated or reordered: `contents = taken ++ batch ++ pending` is the list
  of all pushes (`contents_push`, `contents_swap`, `contents_take`).
* A batch is closed when it is swapped out: `begun = taken ++ batch` changes only by `swap`
  (`begun_push`, `begun_take`), so an item pushed later is not taken before the next swap. -/

namespace NetworkStructure

structure BatchQueue (α : Type*) where
  taken : List α := []
  batch : List α := []
  pending : List α := []

namespace BatchQueue

variable {α : Type*} (q : BatchQueue α)

def push (a : α) : BatchQueue α := { q with pending := q.pending ++ [a] }

def swap : BatchQueue α := { q with batch := q.batch ++ q.pending, pending := [] }

def take : BatchQueue α :=
  match q.batch with
  | [] => q
  | a :: rest => { q with taken := q.taken ++ [a], batch := rest }

/-- Everything that was ever pushed, in order. -/
def contents : List α := q.taken ++ q.batch ++ q.pending

/-- What was pushed before the last swap. -/
def begun : List α := q.taken ++ q.batch

@[simp] theorem contents_push (a : α) : (q.push a).contents = q.contents ++ [a] := by
  simp [contents, push]

@[simp] theorem contents_swap : q.swap.contents = q.contents := by simp [contents, swap]

@[simp] theorem contents_take : q.take.contents = q.contents := by
  unfold take
  split
  · rfl
  · next h => simp [contents, h]

@[simp] theorem begun_push (a : α) : (q.push a).begun = q.begun := rfl

@[simp] theorem begun_swap : q.swap.begun = q.contents := by simp [begun, contents, swap]

@[simp] theorem begun_take : q.take.begun = q.begun := by
  unfold take
  split
  · rfl
  · next h => simp [begun, h]

theorem taken_prefix_begun : q.taken <+: q.begun := ⟨q.batch, rfl⟩

end BatchQueue
end NetworkStructure
