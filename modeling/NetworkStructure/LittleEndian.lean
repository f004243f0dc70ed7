import Mathlib.Algebra.Ring.Nat

/-! # Little-endian numbers

The numbers of a binary file, written and read byte by byte from the least significant end.
Reading is a parser: it consumes the bytes of a number from the front of a list, and fails where
the list is too short. -/

namespace NetworkStructure

/-- The `n` bytes of `x`. -/
def leBytes : ℕ → ℕ → List UInt8
  | 0, _ => []
  | n + 1, x => UInt8.ofNat x :: leBytes n (x / 256)

/-- The number that the bytes stand for. -/
def leValue : List UInt8 → ℕ
  | [] => 0
  | b :: bs => b.toNat + 256 * leValue bs

@[simp] theorem leBytes_length (n x : ℕ) : (leBytes n x).length = n := by
  induction n generalizing x with
  | zero => rfl
  | succ n ih => rw [leBytes, List.length_cons, ih]

theorem leValue_leBytes {n x : ℕ} (h : x < 256 ^ n) : leValue (leBytes n x) = x := by
  induction n generalizing x with
  | zero => exact (Nat.lt_one_iff.mp h).symm
  | succ n ih =>
      have hx : x / 256 < 256 ^ n := Nat.div_lt_of_lt_mul (by rwa [Nat.mul_comm, ← Nat.pow_succ])
      rw [leBytes, leValue, ih hx, UInt8.toNat_ofNat']
      exact Nat.mod_add_div x 256

theorem leValue_lt (bs : List UInt8) : leValue bs < 256 ^ bs.length := by
  induction bs with
  | nil => exact Nat.one_pos
  | cons b bs ih =>
      have hb := b.toNat_lt
      rw [leValue, List.length_cons, Nat.pow_succ]
      omega

theorem leBytes_leValue (bs : List UInt8) : leBytes bs.length (leValue bs) = bs := by
  induction bs with
  | nil => rfl
  | cons b bs ih =>
      have hb := b.toNat_lt
      have hlow : UInt8.ofNat (b.toNat + 256 * leValue bs) = b := by
        apply UInt8.toNat_inj.mp
        rw [UInt8.toNat_ofNat']
        omega
      have hrest : (b.toNat + 256 * leValue bs) / 256 = leValue bs := by omega
      rw [List.length_cons, leValue, leBytes, hlow, hrest, ih]

/-- Reads a number of `n` bytes. -/
def leRead (n : ℕ) : StateT (List UInt8) Option ℕ := fun bs =>
  if n ≤ bs.length then some (leValue (bs.take n), bs.drop n) else none

theorem leRead_append {n x : ℕ} (h : x < 256 ^ n) (rest : List UInt8) :
    (leRead n).run (leBytes n x ++ rest) = some (x, rest) := by
  have hl := leBytes_length n x
  have htake : (leBytes n x ++ rest).take n = leBytes n x := by
    rw [List.take_append_of_le_length (Nat.le_of_eq hl.symm),
      List.take_of_length_le (Nat.le_of_eq hl)]
  have hdrop : (leBytes n x ++ rest).drop n = rest := List.drop_left' hl
  show (if n ≤ (leBytes n x ++ rest).length then _ else _) = _
  rw [if_pos (by rw [List.length_append, hl]; exact Nat.le_add_right ..), htake, hdrop,
    leValue_leBytes h]

end NetworkStructure
