import Mathlib.Algebra.Group.Nat.Defs
import Mathlib.Data.List.Basic
import Mathlib.Data.List.TakeDrop
import Mathlib.Tactic.Common

/-! # A queue that is served in rounds

In each round the first `size` items of a queue are served, and go to its end.  Between two rounds
items may leave the queue, and others may join it at the end.  A round that serves as many items as
it can doubles `size`.

An item that stays in the queue is served soon, whatever else comes and goes: each round that does
not serve it serves `size` items that stood before it, and doubles `size` (`served_of_lt`).  And
`size` does not grow above twice the number of items there are (`size_le`). -/

namespace NetworkStructure

/-- The queue between two rounds. -/
structure RoundRobin (α : Type*) where
  size : ℕ
  queue : List α := []

/-- What happens between two rounds: which items stay, and which join. -/
structure Arrivals (α : Type*) where
  stays : α → Bool
  joining : List α

namespace RoundRobin

variable {α : Type*} (q : RoundRobin α)

/-- The queue at the next round. -/
def waiting (a : Arrivals α) : List α := q.queue.filter a.stays ++ a.joining

/-- The items that are served. -/
def served (a : Arrivals α) : List α := (q.waiting a).take q.size

def next (a : Arrivals α) : RoundRobin α where
  size := if (q.served a).length = q.size then q.size * 2 else q.size
  queue := (q.waiting a).drop q.size ++ q.served a

/-- The rounds one after another: what waits, and what is served, in each. -/
def rounds (q : RoundRobin α) : List (Arrivals α) → List (List α × List α)
  | [] => []
  | a :: as => (q.waiting a, q.served a) :: (q.next a).rounds as

/-- The queue after the rounds. -/
def after (q : RoundRobin α) (as : List (Arrivals α)) : RoundRobin α := as.foldl next q

variable {q} {a : Arrivals α} {as : List (Arrivals α)} {x : α}

theorem served_length : (q.served a).length = min q.size (q.waiting a).length := List.length_take

/-- The round is full. -/
theorem next_size_of_le (h : q.size ≤ (q.waiting a).length) : (q.next a).size = q.size * 2 := by
  unfold next
  rw [served_length, Nat.min_eq_left h]
  exact if_pos rfl

theorem next_size_of_lt (h : (q.waiting a).length < q.size) : (q.next a).size = q.size := by
  unfold next
  rw [served_length, Nat.min_eq_right (Nat.le_of_lt h)]
  exact if_neg (Nat.ne_of_lt h)

theorem le_next_size : q.size ≤ (q.next a).size := by
  rcases Nat.lt_or_ge (q.waiting a).length q.size with h | h
  · exact Nat.le_of_eq (next_size_of_lt h).symm
  · rw [next_size_of_le h]
    omega

theorem mem_served {pre post : List α} (hw : q.waiting a = pre ++ x :: post)
    (hlt : pre.length < q.size) : x ∈ q.served a := by
  obtain ⟨n, hn⟩ : ∃ n, q.size - pre.length = n + 1 := ⟨q.size - pre.length - 1, by omega⟩
  rw [served, hw, List.take_append, hn, List.take_succ_cons]
  exact List.mem_append_right _ (List.mem_cons_self ..)

/-- A full round serves only what stood before the item. -/
theorem next_waiting {pre post : List α} (hw : q.waiting a = pre ++ x :: post)
    (hle : q.size ≤ pre.length) {b : Arrivals α} (hb : b.stays x = true) :
    ∃ pre' post', (q.next a).waiting b = pre' ++ x :: post' ∧
      pre'.length + q.size ≤ pre.length := by
  refine ⟨(pre.drop q.size).filter b.stays,
    (post ++ q.served a).filter b.stays ++ b.joining, ?_, ?_⟩
  · have hqueue : (q.next a).queue = pre.drop q.size ++ x :: (post ++ q.served a) := by
      show (q.waiting a).drop q.size ++ q.served a = _
      rw [hw, List.drop_append_of_le_length hle, List.append_assoc, List.cons_append]
    rw [waiting, hqueue, List.filter_append, List.filter_cons_of_pos hb, List.append_assoc,
      List.cons_append]
  · have hlen := List.length_filter_le b.stays (pre.drop q.size)
    rw [List.length_drop] at hlen
    omega

/-- **No item starves**: one with `pre` before it is served within as many rounds as it takes the
doubled sizes to exceed their number. -/
theorem served_of_lt {pre post : List α} (hw : q.waiting a = pre ++ x :: post)
    (hstays : ∀ b ∈ as, b.stays x = true)
    (hlt : pre.length + q.size < q.size * 2 ^ (as.length + 1)) :
    ∃ r ∈ q.rounds (a :: as), x ∈ r.2 := by
  induction as generalizing q a pre post with
  | nil =>
      refine ⟨_, List.mem_singleton.mpr rfl, mem_served hw ?_⟩
      rw [List.length_nil, Nat.zero_add, Nat.pow_one] at hlt
      omega
  | cons b bs ih =>
      rcases Nat.lt_or_ge pre.length q.size with hpre | hpre
      · exact ⟨_, List.mem_cons_self .., mem_served hw hpre⟩
      · obtain ⟨hb, hbs⟩ := List.forall_mem_cons.mp hstays
        obtain ⟨pre', post', hw', hlen⟩ := next_waiting hw hpre hb
        have hsize : (q.next a).size = q.size * 2 := next_size_of_le (by
          rw [hw, List.length_append]
          omega)
        have hlt' : pre'.length + (q.next a).size < (q.next a).size * 2 ^ (bs.length + 1) := by
          rw [hsize, Nat.mul_assoc, ← Nat.pow_succ', Nat.succ_eq_add_one]
          rw [List.length_cons] at hlt
          omega
        obtain ⟨r, hr, hx⟩ := ih hw' hbs hlt'
        exact ⟨r, List.mem_cons_of_mem _ hr, hx⟩

/-- **The size stays bounded**, where at most `N` items wait at a time. -/
theorem size_le {N : ℕ} (hN : ∀ r ∈ q.rounds as, r.1.length ≤ N) :
    q.size ≤ (q.after as).size ∧ (q.after as).size ≤ max q.size (2 * N) := by
  induction as generalizing q with
  | nil => exact ⟨Nat.le_refl _, Nat.le_max_left ..⟩
  | cons a as ih =>
      obtain ⟨ha, has⟩ := List.forall_mem_cons.mp hN
      obtain ⟨hge, hle⟩ := ih (q := q.next a) has
      show q.size ≤ ((q.next a).after as).size ∧ ((q.next a).after as).size ≤ _
      rcases Nat.lt_or_ge (q.waiting a).length q.size with h | h
      · rw [next_size_of_lt h] at hge hle
        exact ⟨hge, hle⟩
      · rw [next_size_of_le h] at hge hle
        have : (q.waiting a).length ≤ N := ha
        omega

end RoundRobin
end NetworkStructure
