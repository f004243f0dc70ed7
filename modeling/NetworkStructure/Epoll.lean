import Mathlib.Data.List.Basic

/-! # The kernel side of epoll

An epoll instance keeps, for each file descriptor added to it, the event mask asked for and
the user data (`epoll_data`) to hand back.  Only what `epoll_ctl(2)` and `epoll_wait(2)`
document is stated here:

* `EPOLL_CTL_ADD` fails (`EEXIST`) on a descriptor that is present, `EPOLL_CTL_MOD` and
  `EPOLL_CTL_DEL` fail (`ENOENT`) on one that is absent; a call that fails changes nothing;
* a wait reports a descriptor with some of the events asked for; `EPOLLERR` and `EPOLLHUP`
  are reported whether asked for or not;
* closing the last descriptor of an open file removes it from the set. -/

namespace NetworkStructure

/-- A file descriptor. -/
abbrev Fd := ℕ

/-- An event mask (`uint32_t events` of `struct epoll_event`). -/
abbrev Mask := BitVec 32

def EPOLLIN : Mask := 0x001
def EPOLLPRI : Mask := 0x002
def EPOLLOUT : Mask := 0x004
def EPOLLERR : Mask := 0x008
def EPOLLHUP : Mask := 0x010
def EPOLLRDHUP : Mask := 0x2000

/-- `m` has one of the bits of `k`: the C test `m & k`. -/
def Mask.test (m k : Mask) : Bool := decide (m &&& k ≠ 0)

theorem Mask.test_eq_false {m k : Mask} : Mask.test m k = false ↔ m &&& k = 0 := by
  simp [Mask.test]

@[simp] theorem Mask.test_zero (k : Mask) : Mask.test 0 k = false := by simp [Mask.test]

theorem Mask.or_ne_zero {k : Mask} (hk : k ≠ 0) (m : Mask) : m ||| k ≠ 0 :=
  fun h => hk (BitVec.or_eq_zero_iff.mp h).2

theorem Mask.test_or_self {k : Mask} (hk : k ≠ 0) (m : Mask) : Mask.test (m ||| k) k = true := by
  have h : (m ||| k) &&& k = k := by ext i hi; simp; grind
  simpa [Mask.test, h] using hk

theorem Mask.test_and_not_self (m k : Mask) : Mask.test (m &&& ~~~k) k = false := by
  rw [Mask.test_eq_false]
  ext i hi
  simp

theorem Mask.test_or_of_disjoint {k l : Mask} (h : k &&& l = 0) (m : Mask) :
    Mask.test (m ||| k) l = Mask.test m l := by
  have e : (m ||| k) &&& l = m &&& l := by
    ext i hi
    have := congrArg (·.getLsbD i) h
    simp [hi] at this ⊢
    grind
  simp [Mask.test, e]

theorem Mask.test_and_not_of_disjoint {k l : Mask} (h : k &&& l = 0) (m : Mask) :
    Mask.test (m &&& ~~~k) l = Mask.test m l := by
  have e : (m &&& ~~~k) &&& l = m &&& l := by
    ext i hi
    have := congrArg (·.getLsbD i) h
    simp [hi] at this ⊢
    grind
  simp [Mask.test, e]

theorem Mask.ne_zero_of_test {m k : Mask} (h : Mask.test m k = true) : m ≠ 0 := by
  rintro rfl
  rw [Mask.test_zero] at h
  cases h

/-- `struct epoll_event`: the mask asked for and `data.ptr`, a pointer of type `ι`. -/
structure EpollEvent (ι : Type) where
  events : Mask
  ptr : ι
deriving DecidableEq, Repr

/-- The interest set of one epoll instance. -/
abbrev InterestSet (ι : Type) := Fd → Option (EpollEvent ι)

inductive CtlOp where
  | EPOLL_CTL_ADD
  | EPOLL_CTL_DEL
  | EPOLL_CTL_MOD
deriving DecidableEq, Repr

variable {ι : Type}

/-- `epoll_ctl(2)`; `none` when the call fails. -/
def epoll_ctl (op : CtlOp) (fd : Fd) (event : EpollEvent ι) (k : InterestSet ι) :
    Option (InterestSet ι) :=
  match op, k fd with
  | .EPOLL_CTL_ADD, none => some (Function.update k fd (some event))
  | .EPOLL_CTL_MOD, some _ => some (Function.update k fd (some event))
  | .EPOLL_CTL_DEL, some _ => some (Function.update k fd none)
  | _, _ => none

/-- The reports of one `epoll_wait(2)`: at most one for each descriptor, each of a descriptor
in the set and of events asked for, or of `EPOLLERR` and `EPOLLHUP`. -/
def ValidReport (k : InterestSet ι) (report : List (Fd × Mask)) : Prop :=
  (report.map Prod.fst).Nodup ∧
    ∀ r ∈ report, ∃ e, k r.1 = some e ∧ r.2 &&& ~~~(e.events ||| EPOLLERR ||| EPOLLHUP) = 0

instance decidableExistsSome {α : Type} (o : Option α) (p : α → Prop) [DecidablePred p] :
    Decidable (∃ a, o = some a ∧ p a) :=
  match o with
  | none => isFalse fun ⟨_, h, _⟩ => nomatch h
  | some a =>
      decidable_of_iff (p a) ⟨fun h => ⟨a, rfl, h⟩, fun ⟨_, h, hp⟩ => Option.some.inj h ▸ hp⟩

instance decidableValidReport (k : InterestSet ι) (report : List (Fd × Mask)) :
    Decidable (ValidReport k report) := inferInstanceAs (Decidable (_ ∧ _))

end NetworkStructure
