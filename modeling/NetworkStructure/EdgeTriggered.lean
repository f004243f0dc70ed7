import NetworkStructure.Run
import NetworkStructure.SocketCalls

/-! # Edge-triggered epoll

With `EPOLLET` a descriptor is reported once for everything that has arrived since it was
reported last.  `EdgeKernel` counts what waits on each descriptor (completed connections on a
listening socket, bytes on another) and remembers for which descriptors a report is outstanding;
arrivals come at any time between two steps of a thread.

A thread loses something when it returns to `epoll_wait` while something waits that is not
going to be reported.  No system call brings this about (`settled_of_call`); it comes from
handling a report without fetching everything.  So for a thread that makes one `accept` or one
`read` for each report, `Attentive.step` tells the events after which something is left. -/

namespace NetworkStructure

/-! ### The kernel -/

structure EdgeKernel extends Descriptors where
  /-- The connections, or the bytes, that have arrived and have not been fetched. -/
  waiting : Fd → ℕ := fun _ => 0
  /-- The peer has closed. -/
  ended : Fd → Bool := fun _ => false
  /-- The descriptor is going to be reported. -/
  outstanding : Fd → Bool := fun _ => false
  /-- The process has exited. -/
  exited : Bool := false

namespace EdgeKernel

/-- `epoll_ctl` looks at the descriptor anew. -/
def epollCtl (k : EdgeKernel) (op : CtlOp) (fd : Fd) (event : EpollEvent Fd) : EdgeKernel :=
  match epoll_ctl op fd event k.interest with
  | none => k
  | some interest =>
      { k with
        interest := interest
        outstanding := Function.update k.outstanding fd
          ((interest fd).isSome && (decide (0 < k.waiting fd) || k.ended fd)) }

/-- A system call; `none` when it cannot have this answer.  `accept` answers with a descriptor
that is not in use, and what arrives on it before it is registered counts as arriving after. -/
def call (k : EdgeKernel) : Syscall → Option EdgeKernel
  | .accept (some listenFd) (some fd) =>
      if 0 < k.waiting listenFd ∧ fd ∉ k.opened ∧ k.interest fd = none then
        some { k with
          opened := insert fd k.opened
          waiting := Function.update
            (Function.update k.waiting listenFd (k.waiting listenFd - 1)) fd 0
          ended := Function.update k.ended fd false }
      else none
  | .accept none (some _) => none
  | .accept _ none => some k
  | .read fd len (.count n) =>
      if n ≤ len ∧ n ≤ k.waiting fd ∧ (n = 0 → k.waiting fd = 0 ∧ k.ended fd = true) then
        some { k with waiting := Function.update k.waiting fd (k.waiting fd - n) }
      else none
  | .read _ _ (.failed _) => some k
  | .shutdown _ => some k
  | .close fd =>
      some { k with
        opened := k.opened.erase fd
        interest := Function.update k.interest fd none
        outstanding := Function.update k.outstanding fd false }
  | .epoll_ctl op fd event => some (k.epollCtl op fd event)
  | .exit _ => some { k with exited := true }

def run (k : EdgeKernel) (calls : List Syscall) : Option EdgeKernel := calls.foldlM call k

/-- `n` connections, or bytes, arrive. -/
def arrive (k : EdgeKernel) (fd : Fd) (n : ℕ) : EdgeKernel :=
  { k with
    waiting := Function.update k.waiting fd (k.waiting fd + n)
    outstanding := Function.update k.outstanding fd (k.interest fd).isSome }

/-- The peer closes. -/
def hangUp (k : EdgeKernel) (fd : Fd) : EdgeKernel :=
  { k with
    ended := Function.update k.ended fd true
    outstanding := Function.update k.outstanding fd (k.interest fd).isSome }

/-- What `epoll_wait` reports: descriptors with an outstanding report, as readable when something
waits. -/
def Reports (k : EdgeKernel) (report : List (Fd × Mask)) : Prop :=
  ValidReport k.interest report ∧ report.length ≤ MAX_EVENTS ∧ ∀ r ∈ report,
    k.outstanding r.1 = true ∧ (0 < k.waiting r.1 → Mask.test r.2 EPOLLIN = true)

instance (k : EdgeKernel) (report : List (Fd × Mask)) : Decidable (k.Reports report) :=
  inferInstanceAs (Decidable (_ ∧ _))

/-- The descriptors are reported. -/
def reported (k : EdgeKernel) (report : List (Fd × Mask)) : EdgeKernel :=
  { k with outstanding := fun fd => k.outstanding fd && decide (fd ∉ report.map Prod.fst) }

/-- Nothing waits on the descriptor without being reported. -/
def Settled (k : EdgeKernel) (fd : Fd) : Prop :=
  k.interest fd ≠ none → k.outstanding fd = false → k.waiting fd = 0

/-- The kernels agree on a descriptor. -/
structure SameAt (k k' : EdgeKernel) (fd : Fd) : Prop where
  interest : k'.interest fd = k.interest fd
  waiting : k'.waiting fd = k.waiting fd
  outstanding : k'.outstanding fd = k.outstanding fd

variable {k k' k'' : EdgeKernel} {fd d : Fd} {c : Syscall} {calls : List Syscall}

theorem SameAt.rfl : SameAt k k fd := ⟨Eq.refl _, Eq.refl _, Eq.refl _⟩

theorem SameAt.trans (h₁ : SameAt k k' fd) (h₂ : SameAt k' k'' fd) : SameAt k k'' fd :=
  ⟨h₂.interest.trans h₁.interest, h₂.waiting.trans h₁.waiting,
    h₂.outstanding.trans h₁.outstanding⟩

theorem SameAt.settled (h : SameAt k k' fd) : k'.Settled fd ↔ k.Settled fd := by
  unfold Settled
  rw [h.interest, h.waiting, h.outstanding]

theorem run_cons : k.run (c :: calls) = some k'' ↔
    ∃ k', k.call c = some k' ∧ k'.run calls = some k'' := by
  unfold run
  rw [List.foldlM_cons]
  exact Option.bind_eq_some_iff

theorem run_nil : k.run [] = some k' ↔ k = k' := Option.some_inj

/-! ### What a system call does -/

/-- A system call is about the descriptor. -/
def Concerns (c : Syscall) (d : Fd) : Prop :=
  match c with
  | .accept listenFd answer => listenFd = some d ∨ answer = some d
  | .read fd _ _ | .shutdown fd | .close fd | .epoll_ctl _ fd _ => fd = d
  | .exit _ => False

section Cases

variable {listenFd : Option Fd} {a : Fd} {len n : ℕ} {e : Errno}

theorem call_accept_none (h : k.call (.accept listenFd none) = some k') : k' = k := by
  cases listenFd <;> cases h <;> rfl

theorem call_accept_some (h : k.call (.accept listenFd (some a)) = some k') :
    ∃ l, listenFd = some l ∧ k.interest a = none ∧ k' = { k with
      opened := insert a k.opened
      waiting := Function.update (Function.update k.waiting l (k.waiting l - 1)) a 0
      ended := Function.update k.ended a false } := by
  cases listenFd with
  | none => cases h
  | some l =>
      simp only [call] at h
      split at h
      · next hg =>
        cases h
        exact ⟨l, rfl, hg.2.2, rfl⟩
      · cases h

theorem call_read_count (h : k.call (.read fd len (.count n)) = some k') :
    k' = { k with waiting := Function.update k.waiting fd (k.waiting fd - n) } := by
  simp only [call] at h
  split at h
  · cases h
    rfl
  · cases h

theorem call_read_failed (h : k.call (.read fd len (.failed e)) = some k') : k' = k := by
  cases h
  rfl

end Cases

theorem sameAt_epollCtl {op : CtlOp} {event : EpollEvent Fd} (hd : fd ≠ d) :
    SameAt k (k.epollCtl op fd event) d := by
  unfold epollCtl
  cases h : epoll_ctl op fd event k.interest with
  | none => exact .rfl
  | some interest =>
      refine ⟨?_, Eq.refl _, Function.update_of_ne (Ne.symm hd) _ _⟩
      cases op <;> cases hk : k.interest fd <;> simp [epoll_ctl, hk] at h <;>
        simp [← h, Ne.symm hd]

/-- A system call leaves the other descriptors alone. -/
theorem sameAt_of_call (h : k.call c = some k') (hc : ¬ Concerns c d) : SameAt k k' d := by
  cases c with
  | accept listenFd answer =>
      cases answer with
      | none => exact call_accept_none h ▸ .rfl
      | some a =>
          obtain ⟨l, rfl, -, rfl⟩ := call_accept_some h
          have hl : d ≠ l := fun he => hc (.inl (congrArg some he.symm))
          have ha : d ≠ a := fun he => hc (.inr (congrArg some he.symm))
          exact ⟨rfl, by simp [hl, ha], rfl⟩
  | read fd len answer =>
      have hd : d ≠ fd := fun he => hc he.symm
      cases answer with
      | failed e => exact call_read_failed h ▸ .rfl
      | count n => exact call_read_count h ▸ ⟨rfl, by simp [hd], rfl⟩
  | shutdown fd | exit status =>
      cases h
      exact ⟨rfl, rfl, rfl⟩
  | close fd =>
      have hd : d ≠ fd := fun he => hc he.symm
      cases h
      exact ⟨by simp [hd], rfl, by simp [hd]⟩
  | epoll_ctl op fd event =>
      cases h
      exact sameAt_epollCtl hc

/-- What is registered anew is reported if something waits. -/
theorem settled_epollCtl {op : CtlOp} {event : EpollEvent Fd} (hs : k.Settled fd) :
    (k.epollCtl op fd event).Settled fd := by
  unfold epollCtl
  cases hctl : epoll_ctl op fd event k.interest with
  | none => exact hs
  | some interest =>
      intro hi ho
      have hi : interest fd ≠ none := hi
      have ho : Function.update k.outstanding fd
        ((interest fd).isSome && (decide (0 < k.waiting fd) || k.ended fd)) fd = false := ho
      rw [Function.update_self, Option.isSome_iff_ne_none.mpr hi] at ho
      show k.waiting fd = 0
      by_contra hn
      simp [Nat.pos_of_ne_zero hn] at ho

/-- No system call makes something wait unreported. -/
theorem settled_of_call (h : k.call c = some k') (hs : k.Settled d) : k'.Settled d := by
  by_cases hc : Concerns c d
  swap
  · exact (sameAt_of_call h hc).settled.mpr hs
  cases c with
  | accept listenFd answer =>
      cases answer with
      | none => exact call_accept_none h ▸ hs
      | some a =>
          obtain ⟨l, rfl, -, rfl⟩ := call_accept_some h
          intro hi ho
          have h0 := hs hi ho
          by_cases ha : d = a
          · simp [ha]
          · by_cases hl : d = l <;> simp_all
  | read fd len answer =>
      obtain rfl : fd = d := hc
      cases answer with
      | failed e => exact call_read_failed h ▸ hs
      | count n =>
          obtain rfl := call_read_count h
          intro hi ho
          simp [hs hi ho]
  | shutdown fd | exit status =>
      cases h
      exact hs
  | close fd =>
      obtain rfl : fd = d := hc
      cases h
      exact fun hi => absurd (Function.update_self ..) hi
  | epoll_ctl op fd event =>
      obtain rfl : fd = d := hc
      cases h
      exact settled_epollCtl hs

/-- The epoll event of a descriptor carries the descriptor. -/
def Labels (c : Syscall) : Prop :=
  match c with
  | .epoll_ctl _ fd event => event.ptr = fd
  | _ => True

theorem ptr_of_call (h : k.call c = some k') (hc : Labels c)
    (hp : ∀ d e, k.interest d = some e → e.ptr = d) :
    ∀ d e, k'.interest d = some e → e.ptr = d := by
  cases c with
  | accept listenFd answer =>
      cases answer with
      | none => exact call_accept_none h ▸ hp
      | some a =>
          obtain ⟨l, -, -, rfl⟩ := call_accept_some h
          exact hp
  | read fd len answer =>
      cases answer with
      | failed e => exact call_read_failed h ▸ hp
      | count n => exact call_read_count h ▸ hp
  | shutdown fd | exit status =>
      cases h
      exact hp
  | close fd =>
      cases h
      intro d e he
      by_cases hd : d = fd
      · simp [hd] at he
      · exact hp d e (by simpa [hd] using he)
  | epoll_ctl op fd event =>
      cases h
      intro d e he
      by_cases hd : fd = d
      swap
      · exact hp d e ((sameAt_epollCtl hd).interest ▸ he)
      subst hd
      unfold epollCtl at he
      cases hctl : epoll_ctl op fd event k.interest with
      | none =>
          rw [hctl] at he
          exact hp fd e he
      | some interest =>
          rw [hctl] at he
          have he : interest fd = some e := he
          cases op <;> cases hk : k.interest fd <;> simp [epoll_ctl, hk] at hctl <;>
            simp [← hctl] at he <;> exact he ▸ hc

theorem exited_of_call (h : k.call c = some k') :
    k'.exited = true ↔ k.exited = true ∨ ∃ status, c = .exit status := by
  cases c with
  | accept listenFd answer =>
      cases answer with
      | none => simp [call_accept_none h]
      | some a =>
          obtain ⟨l, -, -, rfl⟩ := call_accept_some h
          simp
  | read fd len answer =>
      cases answer with
      | failed e => simp [call_read_failed h]
      | count n => simp [call_read_count h]
  | shutdown fd | exit status | close fd =>
      cases h
      simp
  | epoll_ctl op fd event =>
      cases h
      unfold epollCtl
      split <;> simp

/-! ### Sequences of system calls -/

theorem sameAt_of_run (h : k.run calls = some k') (hc : ∀ c ∈ calls, ¬ Concerns c d) :
    SameAt k k' d := by
  induction calls generalizing k with
  | nil => exact run_nil.mp h ▸ .rfl
  | cons c calls ih =>
      obtain ⟨k₁, h₁, h⟩ := run_cons.mp h
      exact (sameAt_of_call h₁ (hc c (List.mem_cons_self ..))).trans
        (ih h fun c hm => hc c (List.mem_cons_of_mem _ hm))

theorem settled_of_run (h : k.run calls = some k') (hs : k.Settled d) : k'.Settled d := by
  induction calls generalizing k with
  | nil => exact run_nil.mp h ▸ hs
  | cons c calls ih =>
      obtain ⟨k₁, h₁, h⟩ := run_cons.mp h
      exact ih h (settled_of_call h₁ hs)

theorem ptr_of_run (h : k.run calls = some k') (hc : ∀ c ∈ calls, Labels c)
    (hp : ∀ d e, k.interest d = some e → e.ptr = d) :
    ∀ d e, k'.interest d = some e → e.ptr = d := by
  induction calls generalizing k with
  | nil => exact run_nil.mp h ▸ hp
  | cons c calls ih =>
      obtain ⟨k₁, h₁, h⟩ := run_cons.mp h
      exact ih h (fun c hm => hc c (List.mem_cons_of_mem _ hm))
        (ptr_of_call h₁ (hc c (List.mem_cons_self ..)) hp)

theorem exited_of_run (h : k.run calls = some k') :
    k'.exited = true ↔ k.exited = true ∨ ∃ status, .exit status ∈ calls := by
  induction calls generalizing k with
  | nil => simp [run_nil.mp h]
  | cons c calls ih =>
      obtain ⟨k₁, h₁, h⟩ := run_cons.mp h
      rw [ih h, exited_of_call h₁]
      simp only [List.mem_cons, exists_or, or_assoc, eq_comm]

/-- A descriptor that is deleted, shut down and closed, in whatever order, is not registered in
the end. -/
theorem interest_of_run (h : k.run calls = some k')
    (hc : ∀ c ∈ calls, c = delete_event fd ∨ c = .shutdown fd ∨ c = .close fd)
    (hd : k.interest fd = none ∨ delete_event fd ∈ calls) : k'.interest fd = none := by
  induction calls generalizing k with
  | nil => exact run_nil.mp h ▸ hd.resolve_right List.not_mem_nil
  | cons c calls ih =>
      obtain ⟨k₁, h₁, h⟩ := run_cons.mp h
      refine ih h (fun c hm => hc c (List.mem_cons_of_mem _ hm)) ?_
      rcases hc c (List.mem_cons_self ..) with rfl | rfl | rfl
      · cases h₁
        left
        unfold epollCtl
        cases hk : k.interest fd <;> simp [epoll_ctl, hk]
      · cases h₁
        exact hd.imp_right (List.mem_of_ne_of_mem (by simp [delete_event]))
      · cases h₁
        exact .inl (Function.update_self ..)

end EdgeKernel

/-! ### One call for each report -/

/-- What a thread may do with the event of a descriptor: one `accept`, then something with the
new descriptor or the end of the process; or one `read`, after which the descriptor may be
released. -/
inductive Attends (fd : Fd) (revents : Mask) : List Syscall → Prop
  | idle (hr : Mask.test revents EPOLLIN = false) : Attends fd revents []
  | accept {answer : Option Fd} {calls : List Syscall}
      (hc : ∀ c ∈ calls, c = .exit 1 ∨
        ∃ d, answer = some d ∧ (c = add_event d ∨ c = .shutdown d ∨ c = .close d)) :
      Attends fd revents (.accept (some fd) answer :: calls)
  | read {len : ℕ} {answer : ReadResult} {calls : List Syscall}
      (hc : ∀ c ∈ calls, c = delete_event fd ∨ c = .shutdown fd ∨ c = .close fd)
      (hd : calls = [] ∨ delete_event fd ∈ calls) :
      Attends fd revents (.read fd len answer :: calls)

/-- How many connections or bytes a system call fetches. -/
def Syscall.fetched : Syscall → ℕ
  | .accept _ (some _) => 1
  | .read _ _ (.count n) => n
  | _ => 0

/-- Of `n` connections or bytes that wait on `fd` the calls leave nothing that is still of
interest. -/
def TakesAll (fd : Fd) (n : ℕ) (calls : List Syscall) : Prop :=
  calls = [] ∨ .exit 1 ∈ calls ∨ delete_event fd ∈ calls ∨ ∃ c ∈ calls, n ≤ c.fetched

variable {fd : Fd} {revents : Mask} {calls : List Syscall} {k k' : EdgeKernel}

theorem Attends.labels (h : Attends fd revents calls) : ∀ c ∈ calls, EdgeKernel.Labels c := by
  cases h with
  | idle _ => exact nofun
  | accept hc =>
      intro c hm
      rcases List.mem_cons.mp hm with rfl | hm
      · trivial
      · rcases hc c hm with rfl | ⟨d, -, rfl | rfl | rfl⟩ <;> trivial
  | read hc _ =>
      intro c hm
      rcases List.mem_cons.mp hm with rfl | hm
      · trivial
      · rcases hc c hm with rfl | rfl | rfl <;> trivial

/-- The other descriptors of the interest set are left alone. -/
theorem Attends.sameAt (h : Attends fd revents calls) (hr : k.run calls = some k') {d : Fd}
    (hd : d ≠ fd) (hi : k.interest d ≠ none) : k.SameAt k' d := by
  cases h with
  | idle _ => exact EdgeKernel.run_nil.mp hr ▸ .rfl
  | @accept answer calls hc =>
      have hne : answer ≠ some d := by
        rintro rfl
        obtain ⟨k₁, h₁, -⟩ := EdgeKernel.run_cons.mp hr
        obtain ⟨-, -, hfresh, -⟩ := EdgeKernel.call_accept_some h₁
        exact hi hfresh
      refine EdgeKernel.sameAt_of_run hr fun c hm => ?_
      rcases List.mem_cons.mp hm with rfl | hm
      · exact fun hcon => hcon.elim (fun he => hd (Option.some.inj he).symm) hne
      · rcases hc c hm with rfl | ⟨e, he, rfl | rfl | rfl⟩
        · exact fun hcon => hcon
        all_goals
          rintro rfl
          exact hne he
  | read hc _ =>
      refine EdgeKernel.sameAt_of_run hr fun c hm => ?_
      rcases List.mem_cons.mp hm with rfl | hm
      · exact fun hcon => hd hcon.symm
      · rcases hc c hm with rfl | rfl | rfl <;> exact fun hcon => hd hcon.symm

/-- Fetching is what makes a registered descriptor settled. -/
theorem EdgeKernel.settled_of_fetched {n : ℕ} (hi : k.interest fd ≠ none)
    (hi' : k'.interest fd = k.interest fd) (ho : k'.outstanding fd = k.outstanding fd)
    (hw : k'.waiting fd = k.waiting fd - n) :
    k'.Settled fd ↔ k.outstanding fd = true ∨ k.waiting fd ≤ n := by
  unfold Settled
  rw [hi', ho, hw, Nat.sub_eq_zero_iff_le, ← Bool.not_eq_false]
  exact ⟨fun h => or_iff_not_imp_left.mpr fun ho => h hi (not_not.mp ho),
    fun h _ ho => h.resolve_left fun hn => hn ho⟩

/-- After an `accept` that leaves the process running there is nothing left if one connection was
waiting and has been accepted. -/
theorem takesAll_accept {answer : Option Fd} {n : ℕ}
    (hc : ∀ c ∈ calls, ∃ d, answer = some d ∧ (c = add_event d ∨ c = .shutdown d ∨ c = .close d)) :
    TakesAll fd n (.accept (some fd) answer :: calls) ↔
      n ≤ Syscall.fetched (.accept (some fd) answer) := by
  have hno : Syscall.exit 1 ∉ Syscall.accept (some fd) answer :: calls := by
    intro hm
    obtain ⟨d, -, h | h | h⟩ := hc _ (List.mem_of_ne_of_mem (by simp) hm) <;> cases h
  have hdel : delete_event fd ∉ Syscall.accept (some fd) answer :: calls := by
    intro hm
    obtain ⟨d, -, h | h | h⟩ := hc _ (List.mem_of_ne_of_mem (by simp [delete_event]) hm) <;>
      simp [delete_event, add_event] at h
  unfold TakesAll
  simp only [reduceCtorEq, hno, hdel, false_or, List.exists_mem_cons_iff]
  refine ⟨fun h => h.elim id ?_, .inl⟩
  rintro ⟨c, hm, hle⟩
  have hzero : c.fetched = 0 := by
    obtain ⟨d, -, rfl | rfl | rfl⟩ := hc c hm <;> rfl
  exact Nat.le_trans (hzero ▸ hle) (Nat.zero_le _)

theorem takesAll_read {len n : ℕ} {answer : ReadResult} :
    TakesAll fd n [.read fd len answer] ↔ n ≤ Syscall.fetched (.read fd len answer) := by
  simp [TakesAll, delete_event]

/-- The event of a listening socket. -/
theorem settled_iff_accept {answer : Option Fd}
    (hc : ∀ c ∈ calls, c = .exit 1 ∨
      ∃ d, answer = some d ∧ (c = add_event d ∨ c = .shutdown d ∨ c = .close d))
    (hr : k.run (.accept (some fd) answer :: calls) = some k') (hi : k.interest fd ≠ none)
    (hx : k.exited = false) :
    (k'.exited = false → k'.Settled fd) ↔
      k.outstanding fd = true ∨ TakesAll fd (k.waiting fd) (.accept (some fd) answer :: calls) := by
  have hexit := EdgeKernel.exited_of_run hr
  by_cases he : .exit 1 ∈ calls
  · have he : Syscall.exit 1 ∈ Syscall.accept (some fd) answer :: calls := List.mem_cons_of_mem _ he
    have hx' : k'.exited = true := hexit.mpr (.inr ⟨1, he⟩)
    exact iff_of_true (fun h => absurd h (by simp [hx'])) (.inr (.inr (.inl he)))
  · have hc : ∀ c ∈ calls,
        ∃ d, answer = some d ∧ (c = add_event d ∨ c = .shutdown d ∨ c = .close d) :=
      fun c hm => (hc c hm).resolve_left fun h => he (h ▸ hm)
    have hx' : k'.exited = false := by
      rw [Bool.eq_false_iff, Ne, hexit]
      rintro (h | ⟨status, hm⟩)
      · exact Bool.false_ne_true (hx.symm.trans h)
      · obtain ⟨d, -, h | h | h⟩ := hc _ (List.mem_of_ne_of_mem (by simp) hm) <;> cases h
    rw [takesAll_accept hc]
    obtain ⟨k₁, h₁, hr₁⟩ := EdgeKernel.run_cons.mp hr
    have hsettled : k'.Settled fd ↔ k.outstanding fd = true ∨
        k.waiting fd ≤ Syscall.fetched (.accept (some fd) answer) := by
      cases answer with
      | none =>
          obtain rfl := EdgeKernel.call_accept_none h₁
          have hs : k₁.SameAt k' fd := EdgeKernel.sameAt_of_run hr₁ fun c hm => by
            obtain ⟨d, hd, -⟩ := hc c hm
            cases hd
          exact EdgeKernel.settled_of_fetched hi hs.interest hs.outstanding hs.waiting
      | some a =>
          obtain ⟨l, hl, hfresh, rfl⟩ := EdgeKernel.call_accept_some h₁
          obtain rfl : fd = l := Option.some.inj hl
          have ha : fd ≠ a := by
            rintro rfl
            exact hi hfresh
          have hs := EdgeKernel.sameAt_of_run (d := fd) hr₁ fun c hm => by
            obtain ⟨d, hd, rfl | rfl | rfl⟩ := hc c hm
            all_goals
              cases hd
              exact fun hcon => ha hcon.symm
          exact EdgeKernel.settled_of_fetched hi hs.interest hs.outstanding
            (hs.waiting.trans (by simp [ha, Syscall.fetched]))
    exact ⟨fun h => hsettled.mp (h hx'), fun h _ => hsettled.mpr h⟩

/-- The event of another socket. -/
theorem settled_iff_read {len : ℕ} {answer : ReadResult}
    (hc : ∀ c ∈ calls, c = delete_event fd ∨ c = .shutdown fd ∨ c = .close fd)
    (hd : calls = [] ∨ delete_event fd ∈ calls)
    (hr : k.run (.read fd len answer :: calls) = some k') (hi : k.interest fd ≠ none)
    (hx : k.exited = false) :
    (k'.exited = false → k'.Settled fd) ↔
      k.outstanding fd = true ∨ TakesAll fd (k.waiting fd) (.read fd len answer :: calls) := by
  have hexit := EdgeKernel.exited_of_run hr
  obtain ⟨k₁, h₁, hr₁⟩ := EdgeKernel.run_cons.mp hr
  rcases hd with rfl | hd
  · obtain rfl := EdgeKernel.run_nil.mp hr₁
    have hx' : k₁.exited = false := by
      rw [Bool.eq_false_iff]
      intro h
      simpa [hx] using hexit.mp h
    have hsettled : k₁.Settled fd ↔ k.outstanding fd = true ∨
        k.waiting fd ≤ Syscall.fetched (.read fd len answer) := by
      cases answer with
      | failed e =>
          obtain rfl := EdgeKernel.call_read_failed h₁
          exact EdgeKernel.settled_of_fetched hi rfl rfl rfl
      | count n =>
          obtain rfl := EdgeKernel.call_read_count h₁
          exact EdgeKernel.settled_of_fetched hi rfl rfl (Function.update_self ..)
    rw [takesAll_read]
    exact ⟨fun h => hsettled.mp (h hx'), fun h _ => hsettled.mpr h⟩
  · have hnone := EdgeKernel.interest_of_run hr₁ hc (.inr hd)
    exact iff_of_true (fun _ hi' => absurd hnone hi')
      (.inr (.inr (.inr (.inl (List.mem_cons_of_mem _ hd)))))

/-- **What an event leaves behind**: the descriptor is settled after it exactly when it is going
to be reported again, or the calls took everything. -/
theorem Attends.settled_iff (h : Attends fd revents calls) (hr : k.run calls = some k')
    (hi : k.interest fd ≠ none) (hx : k.exited = false)
    (hidle : Mask.test revents EPOLLIN = false → k.outstanding fd = false → k.waiting fd = 0) :
    (k'.exited = false → k'.Settled fd) ↔
      k.outstanding fd = true ∨ TakesAll fd (k.waiting fd) calls := by
  cases h with
  | idle hrev =>
      obtain rfl := EdgeKernel.run_nil.mp hr
      exact iff_of_true (fun _ _ => hidle hrev) (.inr (.inl rfl))
  | accept hc => exact settled_iff_accept hc hr hi hx
  | read hc hd => exact settled_iff_read hc hd hr hi hx

/-! ### A thread -/

/-- A thread that waits for edge-triggered reports, and the events of the last one that are still
to be handled. -/
structure EdgeThread (σ : Type) where
  state : σ
  kernel : EdgeKernel
  events : List (Fd × Mask) := []

/-- The arrivals come from outside. -/
inductive EdgeAction where
  | arrive (fd : Fd) (n : ℕ)
  | hangUp (fd : Fd)
  | epoll_wait (report : List (Fd × Mask))
  | event (accepted : Option Fd) (read : ReadResult)
deriving Repr

namespace EdgeThread

variable {σ : Type}

/-- The thread is about to call `epoll_wait`. -/
def AtHead (t : EdgeThread σ) : Prop := t.kernel.exited = false ∧ t.events = []

instance (t : EdgeThread σ) : Decidable t.AtHead := inferInstanceAs (Decidable (_ ∧ _))

/-- One step; `none` when it is not possible. -/
def act (handler : EventHandler σ) (t : EdgeThread σ) : EdgeAction → Option (EdgeThread σ)
  | .arrive fd n =>
      if 0 < n ∧ t.kernel.ended fd = false then some { t with kernel := t.kernel.arrive fd n }
      else none
  | .hangUp fd => some { t with kernel := t.kernel.hangUp fd }
  | .epoll_wait report =>
      if t.AtHead ∧ t.kernel.Reports report then
        some { t with
          kernel := t.kernel.reported report
          events := t.kernel.harvest report }
      else none
  | .event accepted read =>
      match t.events with
      | [] => none
      | (fd, revents) :: rest =>
          if t.kernel.exited then none
          else
            let r := handler t.state fd revents accepted read
            (t.kernel.run r.2).map fun k => { state := r.1, kernel := k, events := rest }

/-- Nothing waits, on any registered descriptor, without being reported. -/
def Drained (t : EdgeThread σ) : Prop := ∀ fd, t.kernel.Settled fd

/-- The same of the descriptors whose event is not still to be handled. -/
def Caught (t : EdgeThread σ) : Prop :=
  t.kernel.exited = false → ∀ fd ∉ t.events.map Prod.fst, t.kernel.Settled fd

theorem Caught.drained {t : EdgeThread σ} (h : t.Caught) (ht : t.AtHead) : t.Drained :=
  fun fd => h ht.1 fd (by simp [ht.2])

/-- What the thread takes for each event, by its state, what waits, the event and the answers. -/
abbrev Takes (σ : Type) := σ → ℕ → Fd → Mask → Option Fd → ReadResult → Prop

/-- The event that is handled is going to be reported again, or everything is taken. -/
def Prompt (takes : Takes σ) (t : EdgeThread σ) : EdgeAction → Prop
  | .event accepted read => ∀ r ∈ t.events.head?, t.kernel.outstanding r.1 = true ∨
      takes t.state (t.kernel.waiting r.1) r.1 r.2 accepted read
  | _ => True

instance (takes : Takes σ) [∀ s n fd revents accepted read,
    Decidable (takes s n fd revents accepted read)] (t : EdgeThread σ) (a : EdgeAction) :
    Decidable (t.Prompt takes a) :=
  match a with
  | .event accepted read => inferInstanceAs (Decidable (∀ r ∈ t.events.head?,
      t.kernel.outstanding r.1 = true ∨
        takes t.state (t.kernel.waiting r.1) r.1 r.2 accepted read))
  | .arrive _ _ | .hangUp _ | .epoll_wait _ => isTrue trivial

/-- A handler that attends to each event by one call; `takes` says when that is enough. -/
structure Attentive (handler : EventHandler σ) (J : σ → Prop) (takes : Takes σ) : Prop where
  keeps : ∀ {s : σ} (fd : Fd) (revents : Mask) (accepted : Option Fd) (read : ReadResult), J s →
    J (handler s fd revents accepted read).1
  attends : ∀ {s : σ} (fd : Fd) (revents : Mask) (accepted : Option Fd) (read : ReadResult), J s →
    Attends fd revents (handler s fd revents accepted read).2
  takes_iff : ∀ {s : σ} (n : ℕ) (fd : Fd) (revents : Mask) (accepted : Option Fd)
    (read : ReadResult), J s → (takes s n fd revents accepted read ↔
      TakesAll fd n (handler s fd revents accepted read).2)

/-- The invariant of the thread. -/
structure Watchful (J : σ → Prop) (t : EdgeThread σ) : Prop where
  state : J t.state
  ptr : ∀ fd e, t.kernel.interest fd = some e → e.ptr = fd
  nodup : (t.events.map Prod.fst).Nodup
  registered : ∀ r ∈ t.events, t.kernel.interest r.1 ≠ none
  /-- Where the event is not one of reading, nothing has been waiting. -/
  idle : ∀ r ∈ t.events, Mask.test r.2 EPOLLIN = false → t.kernel.outstanding r.1 = false →
    t.kernel.waiting r.1 = 0

variable {handler : EventHandler σ} {J : σ → Prop} {takes : Takes σ} {t t' : EdgeThread σ}
  {a : EdgeAction}

/-- Something happens on a descriptor that leaves it to be reported, if it is registered. -/
theorem Watchful.outside (h : t.Watchful J) {k : EdgeKernel} {fd : Fd}
    (hx : k.exited = t.kernel.exited) (hi : k.interest = t.kernel.interest)
    (hsame : ∀ d, d ≠ fd → t.kernel.SameAt k d)
    (ho : k.outstanding fd = (t.kernel.interest fd).isSome) :
    Watchful J { t with kernel := k } ∧ (t.Caught → Caught { t with kernel := k }) := by
  have hself : k.interest fd ≠ none → k.outstanding fd = true := fun hne => by
    rw [ho, Option.isSome_iff_ne_none, ← hi]
    exact hne
  constructor
  · constructor
    case state => exact h.state
    case ptr => exact fun d e he => h.ptr d e (hi ▸ he)
    case nodup => exact h.nodup
    case registered => exact fun r hr => hi.symm ▸ h.registered r hr
    case idle =>
        intro r hr hm hout
        by_cases hd : r.1 = fd
        · have := hself (hd ▸ hi.symm ▸ h.registered r hr)
          rw [← hd] at this
          exact absurd (this.symm.trans hout) (by decide)
        · have hs := hsame r.1 hd
          exact hs.waiting.trans (h.idle r hr hm (hs.outstanding.symm.trans hout))
  · intro hc hx' d hd
    by_cases hdf : d = fd
    · intro hi' hout
      exact absurd ((hself (hdf ▸ hi')).symm.trans (hdf ▸ hout)) (by decide)
    · exact (hsame d hdf).settled.mpr (hc (hx.symm.trans hx') d hd)

theorem Watchful.epoll_wait (h : t.Watchful J) (hh : t.AtHead) {report : List (Fd × Mask)}
    (hr : t.kernel.Reports report) :
    Watchful J { t with
        kernel := t.kernel.reported report, events := t.kernel.harvest report } ∧
      (t.Caught → Caught { t with
        kernel := t.kernel.reported report, events := t.kernel.harvest report }) := by
  obtain ⟨hv, -, hreport⟩ := hr
  have he := Descriptors.harvest_eq h.ptr hv
  rw [he]
  constructor
  · constructor
    case state => exact h.state
    case ptr => exact h.ptr
    case nodup => exact hv.1
    case registered =>
        intro r hm
        obtain ⟨e, he, -⟩ := hv.2 r hm
        exact fun hn => nomatch he.symm.trans hn
    case idle =>
        intro r hm hmask _
        show t.kernel.waiting r.1 = 0
        by_contra hne
        rw [(hreport r hm).2 (Nat.pos_of_ne_zero hne)] at hmask
        cases hmask
  · intro hc hx d hd hi hout
    apply hc hx d (by simp [hh.2]) hi
    have hd : d ∉ report.map Prod.fst := hd
    have hout : (t.kernel.outstanding d && decide (d ∉ report.map Prod.fst)) = false := hout
    simpa [hd] using hout

/-- The first event of a batch is handled, and the kernel becomes `k`. -/
theorem Watchful.event (h : t.Watchful J) (ha : Attentive handler J takes) {fd : Fd}
    {revents : Mask} {rest : List (Fd × Mask)} (he : t.events = (fd, revents) :: rest)
    (hx : t.kernel.exited = false) {accepted : Option Fd} {read : ReadResult} {k : EdgeKernel}
    (hk : t.kernel.run (handler t.state fd revents accepted read).2 = some k) :
    Watchful J { state := (handler t.state fd revents accepted read).1, kernel := k,
                 events := rest } ∧
      (t.Caught → (Caught { state := (handler t.state fd revents accepted read).1, kernel := k,
                            events := rest } ↔ t.Prompt takes (.event accepted read))) := by
  have hatt := ha.attends fd revents accepted read h.state
  have hmem : (fd, revents) ∈ t.events := he ▸ List.mem_cons_self ..
  have hi := h.registered _ hmem
  have hiff := hatt.settled_iff hk hi hx (h.idle _ hmem)
  rw [← ha.takes_iff _ fd revents accepted read h.state] at hiff
  have hnd := h.nodup
  rw [he, List.map_cons, List.nodup_cons] at hnd
  have hin : ∀ r ∈ rest, r ∈ t.events := fun r hr => he ▸ List.mem_cons_of_mem _ hr
  -- the other descriptors of the batch are left alone
  have hsame : ∀ r ∈ rest, t.kernel.SameAt k r.1 := fun r hr =>
    hatt.sameAt hk (fun hf => hnd.1 (List.mem_map.mpr ⟨r, hr, hf⟩)) (h.registered r (hin r hr))
  constructor
  · constructor
    case state => exact ha.keeps fd revents accepted read h.state
    case ptr => exact EdgeKernel.ptr_of_run hk hatt.labels h.ptr
    case nodup => exact hnd.2
    case registered => exact fun r hr => (hsame r hr).interest ▸ h.registered r (hin r hr)
    case idle =>
        intro r hr hm ho
        have hs := hsame r hr
        exact hs.waiting.trans (h.idle r (hin r hr) hm (hs.outstanding.symm.trans ho))
  · intro hc
    have hprompt : t.Prompt takes (.event accepted read) ↔ t.kernel.outstanding fd = true ∨
        takes t.state (t.kernel.waiting fd) fd revents accepted read := by
      simp [Prompt, he]
    rw [hprompt, ← hiff]
    constructor
    · exact fun hc' hx' => hc' hx' fd hnd.1
    · intro hset hx' d hd
      by_cases hdf : d = fd
      · exact hdf ▸ hset hx'
      · refine EdgeKernel.settled_of_run hk (hc hx d ?_)
        rw [he, List.map_cons, List.mem_cons]
        exact not_or.mpr ⟨hdf, hd⟩

/-- **One step**: nothing is left behind after it exactly when it is prompt. -/
theorem Attentive.step (ha : Attentive handler J takes) (h : t.Watchful J)
    (hs : t.act handler a = some t') :
    t'.Watchful J ∧ (t.Caught → (t'.Caught ↔ t.Prompt takes a)) := by
  cases a with
  | arrive fd n =>
      simp only [act] at hs
      split at hs
      · cases hs
        have := h.outside (k := t.kernel.arrive fd n) rfl rfl (fun d hd =>
          ⟨rfl, by simp [EdgeKernel.arrive, hd], by simp [EdgeKernel.arrive, hd]⟩)
          (Function.update_self ..)
        exact ⟨this.1, fun hc => iff_of_true (this.2 hc) trivial⟩
      · cases hs
  | hangUp fd =>
      cases hs
      have := h.outside (k := t.kernel.hangUp fd) rfl rfl (fun d hd =>
        ⟨rfl, rfl, by simp [EdgeKernel.hangUp, hd]⟩) (Function.update_self ..)
      exact ⟨this.1, fun hc => iff_of_true (this.2 hc) trivial⟩
  | epoll_wait report =>
      simp only [act] at hs
      split at hs
      · next hg =>
        cases hs
        have := h.epoll_wait hg.1 hg.2
        exact ⟨this.1, fun hc => iff_of_true (this.2 hc) trivial⟩
      · cases hs
  | event accepted read =>
      simp only [act] at hs
      split at hs
      · cases hs
      · next fd revents rest he =>
        split at hs
        · cases hs
        · next hx =>
          obtain ⟨k, hk, rfl⟩ := Option.map_eq_some_iff.mp hs
          exact h.event ha he (Bool.eq_false_iff.mpr hx) hk

/-! ### Runs -/

/-- **Draining**: where every step is prompt the thread never returns to `epoll_wait` with
something left behind, and after every step the prompt runs are the ones that leave nothing. -/
theorem Attentive.drained_iff (ha : Attentive handler J takes) {s : EdgeThread σ}
    (h : s.Watchful J) (hc : s.Caught) {ls : List EdgeAction} :
    (RunWith (fun s a t => s.act handler a = some t) (fun s a _ => s.Prompt takes a) s ls t →
      t.AtHead → t.Drained) ∧
    (RunWith (fun s a t => s.act handler a = some t) (fun _ _ t => t.Caught) s ls t ↔
      RunWith (fun s a t => s.act handler a = some t) (fun s a _ => s.Prompt takes a) s ls t) := by
  have hkeep : ∀ (s : EdgeThread σ) a t, s.Watchful J ∧ s.Caught → s.act handler a = some t →
      s.Prompt takes a → t.Watchful J ∧ t.Caught := fun s a t h hs hp =>
    ⟨(ha.step h.1 hs).1, ((ha.step h.1 hs).2 h.2).mpr hp⟩
  constructor
  · exact fun run hh => (run.invariant hkeep ⟨h, hc⟩).2.drained hh
  · exact runWith_iff hkeep (fun s a t h hs => (ha.step h.1 hs).2 h.2) ⟨h, hc⟩

end EdgeThread
end NetworkStructure
