import Mathlib.Data.Finset.Basic
import NetworkStructure.Epoll
import NetworkStructure.TcpConnection

/-! # The system calls of the socket threads

`TcpServerSocket`, `TcpInterfaceSocket` and `IPC` serve their clients from threads that wait for
`epoll_wait(2)` and handle one event after another.  What a thread does with an event is a
function of its own state and of the answers it gets, and it returns the system calls that it
makes, in order: two models of the kernel interpret them, the descriptors that are open
(`FdBooks.lean`) and the arrivals that edge-triggered reports stand for (`EdgeTriggered.lean`).

A descriptor held in an `int` is an `Option Fd`, where `none` is -1. -/

namespace NetworkStructure

def EPOLLET : Mask := 0x80000000

/-- What `read(2)` answers: a number of bytes, zero at the end of file, or -1 and `errno`. -/
inductive ReadResult where
  | count (n : ℕ)
  | failed (e : Errno)
deriving DecidableEq, Repr

/-- `read(2)` reads no more than it is asked for. -/
def ReadResult.atMost (len : ℕ) : ReadResult → Bool
  | .count n => decide (n ≤ len)
  | .failed _ => true

/-- A system call, with its answer where the thread reads it. -/
inductive Syscall where
  | accept (listenFd : Option Fd) (answer : Option Fd)
  | read (fd : Fd) (len : ℕ) (answer : ReadResult)
  | shutdown (fd : Fd)
  | close (fd : Fd)
  | epoll_ctl (op : CtlOp) (fd : Fd) (event : EpollEvent Fd)
  | exit (status : ℕ)
deriving DecidableEq, Repr

/-- `add_event(epollfd, fd, EPOLLIN|EPOLLET)`. -/
def add_event (fd : Fd) : Syscall := .epoll_ctl .EPOLL_CTL_ADD fd ⟨EPOLLIN ||| EPOLLET, fd⟩

/-- `delete_event(epollfd, fd, EPOLLIN|EPOLLET)`. -/
def delete_event (fd : Fd) : Syscall := .epoll_ctl .EPOLL_CTL_DEL fd ⟨EPOLLIN ||| EPOLLET, fd⟩

/-- What a thread does with one event: its state afterwards and its system calls.  The arguments
are the descriptor and the events reported, and the answers of `accept(2)` and `read(2)`. -/
abbrev EventHandler (σ : Type) :=
  σ → Fd → Mask → Option Fd → ReadResult → σ × List Syscall

/-! ### The kernel's side -/

/-- The accepted sockets that are open, and the interest set. -/
structure Descriptors where
  opened : Finset Fd := ∅
  interest : InterestSet Fd := fun _ => none

/-- What a system call does to the descriptors; `epoll_ctl` may fail. -/
def Descriptors.call (k : Descriptors) : Syscall → Descriptors
  | .accept _ (some fd) => { k with opened := insert fd k.opened }
  | .accept _ none | .read _ _ _ | .shutdown _ | .exit _ => k
  | .close fd =>
      { opened := k.opened.erase fd, interest := Function.update k.interest fd none }
  | .epoll_ctl op fd event =>
      { k with interest := (epoll_ctl op fd event k.interest).getD k.interest }

def Descriptors.run (k : Descriptors) (calls : List Syscall) : Descriptors := calls.foldl call k

/-- `events[i].data.fd` and `events[i].events`. -/
def Descriptors.harvest (k : Descriptors) (report : List (Fd × Mask)) : List (Fd × Mask) :=
  report.filterMap fun r => (k.interest r.1).map fun e => (e.ptr, r.2)

/-- `data.fd` is the descriptor that is reported. -/
theorem Descriptors.harvest_eq {k : Descriptors}
    (hptr : ∀ fd e, k.interest fd = some e → e.ptr = fd) {report : List (Fd × Mask)}
    (hr : ValidReport k.interest report) : k.harvest report = report := by
  have hall := hr.2
  clear hr
  induction report with
  | nil => rfl
  | cons r report ih =>
      obtain ⟨e, he, -⟩ := hall r (List.mem_cons_self ..)
      have hp := hptr r.1 e he
      have ih := ih fun x hx => hall x (List.mem_cons_of_mem _ hx)
      simp only [harvest, List.filterMap_cons, he, Option.map_some, hp] at ih ⊢
      rw [ih]

def MAX_EVENTS : ℕ := 100

end NetworkStructure
