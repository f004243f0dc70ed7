import NetworkStructure.LittleEndian
import Mathlib.Data.Int.Notation

/-! # Text in a stream of bytes

What `sprintf` prints for `%d`, and a parser for streams that mix text with binary fields: fixed
text, a number of bytes, everything up to a delimiter, and a decimal number.  Like `leRead`, each
of them consumes its field from the front of the stream, and the `_append` lemmas say that it
gives back what has been written and leaves the rest. -/

namespace NetworkStructure

def ascii (cs : List Char) : List UInt8 := cs.map fun c => UInt8.ofNat c.toNat

/-- `%d`. -/
def decimal (x : ℤ) : List UInt8 :=
  if x < 0 then 0x2D :: ascii (Nat.toDigits 10 x.natAbs) else ascii (Nat.toDigits 10 x.natAbs)

def isDigit (b : UInt8) : Bool := 0x30 ≤ b && b ≤ 0x39

/-- The number that the digits stand for. -/
def digitsValue (bs : List UInt8) : ℕ := bs.foldl (fun n b => 10 * n + (b.toNat - 48)) 0

/-! ### Reading -/

/-- Reads the bytes `bs`. -/
def readText (bs : List UInt8) : StateT (List UInt8) Option Unit := fun s =>
  if s.take bs.length = bs then some ((), s.drop bs.length) else none

/-- Reads `n` bytes. -/
def readBytes (n : ℕ) : StateT (List UInt8) Option (List UInt8) := fun s =>
  if n ≤ s.length then some (s.take n, s.drop n) else none

/-- Reads up to the first `d`, and `d` itself. -/
def readUntil (d : UInt8) : StateT (List UInt8) Option (List UInt8) := fun s =>
  if d ∈ s then some (s.takeWhile (· ≠ d), (s.dropWhile (· ≠ d)).drop 1) else none

/-- Reads digits as far as there are any. -/
def readDigits : StateT (List UInt8) Option ℕ := fun s =>
  if (s.takeWhile isDigit).isEmpty then none
  else some (digitsValue (s.takeWhile isDigit), s.dropWhile isDigit)

/-- Reads a decimal number, which may have a sign. -/
def readDecimal : StateT (List UInt8) Option ℤ := fun s =>
  if s.head? = some 0x2D then (readDigits.run s.tail).map fun r => (-(r.1 : ℤ), r.2)
  else (readDigits.run s).map fun r => ((r.1 : ℤ), r.2)

variable {bs rest : List UInt8}

@[simp] theorem readText_append : (readText bs).run (bs ++ rest) = some ((), rest) := by
  show (if (bs ++ rest).take bs.length = bs then _ else _) = _
  rw [List.take_left, if_pos rfl, List.drop_left]

theorem readBytes_append {n : ℕ} (h : bs.length = n) :
    (readBytes n).run (bs ++ rest) = some (bs, rest) := by
  subst h
  show (if bs.length ≤ (bs ++ rest).length then _ else _) = _
  rw [if_pos (by rw [List.length_append]; exact Nat.le_add_right ..), List.take_left,
    List.drop_left]

theorem readUntil_append {d : UInt8} (h : d ∉ bs) :
    (readUntil d).run (bs ++ d :: rest) = some (bs, rest) := by
  have hall : ∀ b ∈ bs, decide (b ≠ d) = true :=
    fun b hb => decide_eq_true fun he => h (he ▸ hb)
  show (if d ∈ bs ++ d :: rest then _ else _) = _
  rw [if_pos (List.mem_append_right bs List.mem_cons_self), List.takeWhile_append_of_pos hall,
    List.dropWhile_append_of_pos hall, List.takeWhile_cons_of_neg (by simp),
    List.dropWhile_cons_of_neg (by simp), List.append_nil]
  rfl

/-! ### Decimal numbers -/

/-- The byte of a digit. -/
theorem toNat_of_isDigit {c : Char} (h : c.isDigit = true) :
    (UInt8.ofNat c.toNat).toNat = c.toNat ∧ 48 ≤ c.toNat ∧ c.toNat ≤ 57 := by
  have hc : 48 ≤ c.toNat ∧ c.toNat ≤ 57 := by
    simp only [Char.isDigit, Bool.and_eq_true, decide_eq_true_eq] at h
    exact h
  refine ⟨?_, hc⟩
  rw [UInt8.toNat_ofNat']
  omega

theorem isDigit_ascii {n : ℕ} {b : UInt8} (h : b ∈ ascii (Nat.toDigits 10 n)) :
    isDigit b = true := by
  obtain ⟨c, hc, rfl⟩ := List.mem_map.mp h
  obtain ⟨hn, hlow, hhigh⟩ :=
    toNat_of_isDigit (Nat.isDigit_of_mem_toDigits (by decide) (by decide) hc)
  unfold isDigit
  rw [Bool.and_eq_true, decide_eq_true_eq, decide_eq_true_eq, UInt8.le_iff_toNat_le,
    UInt8.le_iff_toNat_le, hn]
  exact ⟨hlow, hhigh⟩

theorem digitsValue_ascii (n : ℕ) : digitsValue (ascii (Nat.toDigits 10 n)) = n := by
  have h : ∀ (cs : List Char) (init : ℕ), (∀ c ∈ cs, c.isDigit = true) →
      (ascii cs).foldl (fun n b => 10 * n + (b.toNat - 48)) init =
        Nat.ofDigitChars 10 cs init := by
    intro cs
    induction cs with
    | nil => exact fun _ _ => Nat.ofDigitChars_nil.symm
    | cons c cs ih =>
        intro init hall
        rw [List.forall_mem_cons] at hall
        rw [Nat.ofDigitChars_cons, ← ih _ hall.2, ascii, List.map_cons, List.foldl_cons,
          (toNat_of_isDigit hall.1).1]
        rfl
  unfold digitsValue
  rw [h _ _ fun c hc => Nat.isDigit_of_mem_toDigits (by decide) (by decide) hc,
    Nat.ofDigitChars_ten_toDigits]

/-- Digits are read up to a byte that is none. -/
theorem readDigits_append {n : ℕ} {b : UInt8} (hb : isDigit b = false) :
    readDigits.run (ascii (Nat.toDigits 10 n) ++ b :: rest) = some (n, b :: rest) := by
  have hall : ∀ b ∈ ascii (Nat.toDigits 10 n), isDigit b = true := fun b hb => isDigit_ascii hb
  have hb' : ¬ isDigit b = true := by
    rw [hb]
    exact Bool.false_ne_true
  have hne : (ascii (Nat.toDigits 10 n)).isEmpty = false := by
    rw [List.isEmpty_eq_false_iff, ascii, ne_eq, List.map_eq_nil_iff]
    exact Nat.toDigits_ne_nil
  show (if (List.takeWhile isDigit _).isEmpty = true then _ else _) = _
  rw [List.takeWhile_append_of_pos hall, List.dropWhile_append_of_pos hall,
    List.takeWhile_cons_of_neg hb', List.dropWhile_cons_of_neg hb', List.append_nil, hne,
    digitsValue_ascii]
  rfl

theorem readDecimal_run (s : List UInt8) : readDecimal.run s =
    if s.head? = some 0x2D then (readDigits.run s.tail).map fun r => (-(r.1 : ℤ), r.2)
    else (readDigits.run s).map fun r => ((r.1 : ℤ), r.2) := rfl

/-- **A printed number is read back**, up to a byte that is no digit. -/
theorem readDecimal_append (x : ℤ) {b : UInt8} (hb : isDigit b = false) :
    readDecimal.run (decimal x ++ b :: rest) = some (x, b :: rest) := by
  rw [readDecimal_run]
  unfold decimal
  split
  · next hneg =>
    rw [if_pos (by rfl), List.cons_append, List.tail_cons, readDigits_append hb, Option.map_some]
    have hx : -((x.natAbs : ℕ) : ℤ) = x := by omega
    simp only [hx]
  · next hpos =>
    have hhead : (ascii (Nat.toDigits 10 x.natAbs) ++ b :: rest).head? ≠ some 0x2D := by
      intro h
      cases hd : ascii (Nat.toDigits 10 x.natAbs) with
      | nil => exact Nat.toDigits_ne_nil (List.map_eq_nil_iff.mp hd)
      | cons d ds =>
          rw [hd, List.cons_append, List.head?_cons] at h
          have hdig := isDigit_ascii (n := x.natAbs) (hd ▸ List.mem_cons_self (a := d) (l := ds))
          rw [Option.some.inj h] at hdig
          exact absurd hdig (by decide)
    rw [if_neg hhead, readDigits_append hb, Option.map_some]
    have hx : ((x.natAbs : ℕ) : ℤ) = x := by omega
    simp only [hx]

/-- No byte of it is zero. -/
theorem ne_zero_of_mem_decimal {x : ℤ} {b : UInt8} (h : b ∈ decimal x) : b ≠ 0 := by
  have hdigit : ∀ n, b ∈ ascii (Nat.toDigits 10 n) → b ≠ 0 := by
    rintro n hm rfl
    exact absurd (isDigit_ascii hm) (by decide)
  unfold decimal at h
  split at h
  · rcases List.mem_cons.mp h with rfl | hm
    · decide
    · exact hdigit _ hm
  · exact hdigit _ h

end NetworkStructure
