import Mathlib.Data.Finset.Option
import NetworkStructure.FdBooks
import NetworkStructure.Handles

/-! # The end of the socket threads

When its flag is cleared a socket thread takes its listening sockets from the interest set,
closes the connections that its books list, and then the listening sockets themselves; `Stop` and
the destructor close again what is left to close.  Descriptors are handles: `socket(2)` and
`accept(2)` acquire them and `close(2)` releases them.

While the loop runs, a thread closes only what is open, in every run.  Whether its end is proper
too, and leaves nothing open, depends on the books alone (`socketThread_life`): an entry that has
stayed is closed a second time, and a socket without an entry is not closed at all. -/

namespace NetworkStructure

/-! ### Closing everything -/

namespace FdManager

variable (m : FdManager)

/-- `GetVal(num)`, which does not check the index. -/
def getVal (num : ℕ) : Fd := m.fdVec_.getD num 0

/-- `CloseAllConnections()` of both classes. -/
def closeAllConnections : FdManager × List Syscall :=
  (m.clearAll, (List.range m.getTotalCount).flatMap fun i =>
    [.shutdown (m.getVal i), .close (m.getVal i)])

end FdManager

/-- `Close()` of both classes: the member `socketFd` afterwards.  Descriptor 0 is taken for
none. -/
def closeSocketFd (socketFd : Option Fd) : Option Fd × List Syscall :=
  match socketFd with
  | none => (none, [])
  | some fd => if 0 < fd then (none, [.shutdown fd, .close fd]) else (some fd, [])

namespace TcpInterfaceSocket

variable (i : TcpInterfaceSocket)

def closeAllConnections : TcpInterfaceSocket × List Syscall :=
  ({ i with pIfcFdVec_ := i.pIfcFdVec_.closeAllConnections.1 },
    i.pIfcFdVec_.closeAllConnections.2)

/-- `Close()`. -/
def closeSocket : TcpInterfaceSocket × List Syscall :=
  ({ i with socketFd := (closeSocketFd i.socketFd).1 }, (closeSocketFd i.socketFd).2)

end TcpInterfaceSocket

namespace TcpServerSocket

variable (s : TcpServerSocket)

/-- `CloseAllConnections()`, which does not test the pointer. -/
def closeAllConnections : TcpServerSocket × List Syscall :=
  match s.pDevFdVec_ with
  | none => (s, [])
  | some m => ({ s with pDevFdVec_ := some m.closeAllConnections.1 }, m.closeAllConnections.2)

/-- `Close()`. -/
def closeSocket : TcpServerSocket × List Syscall :=
  ({ s with socketFd := (closeSocketFd s.socketFd).1 }, (closeSocketFd s.socketFd).2)

/-- What `NoneConcurrentThread` does after its loop. -/
def noneConcurrentEnd : TcpServerSocket × List Syscall :=
  let r₁ := s.closeAllConnections
  let r₂ := r₁.1.closeSocket
  (r₂.1, (s.socketFd.map delete_event).toList ++ r₁.2 ++ r₂.2)

/-- What `ConcurrentThread` does after its loop. -/
def concurrentEnd : TcpServerSocket × List Syscall :=
  match s.pInterfaceSocket with
  | none => (s, [])
  | some i =>
      let r₁ := i.closeAllConnections
      let r₂ := r₁.1.closeSocket
      let r₃ := { s with pInterfaceSocket := some r₂.1 }.closeAllConnections
      let r₄ := r₃.1.closeSocket
      (r₄.1, (i.socketFd.map delete_event).toList ++ (s.socketFd.map delete_event).toList ++
        r₁.2 ++ r₂.2 ++ r₃.2 ++ r₄.2)

def threadEnd : TcpServerSocket × List Syscall :=
  match s.serverType with
  | .TCP_SERVER_TYPE_CONCURRENT => s.concurrentEnd
  | .TCP_SERVER_TYPE_NONE_CONCURRENT => s.noneConcurrentEnd

/-- `Stop()`, where the thread has come to its end. -/
def stop : TcpServerSocket × List Syscall :=
  match s.serverType with
  | .TCP_SERVER_TYPE_CONCURRENT => (s, [])
  | .TCP_SERVER_TYPE_NONE_CONCURRENT => s.closeSocket

/-- The destructor: `Close()` and `Stop()`. -/
def destroy : TcpServerSocket × List Syscall :=
  let r₁ := s.closeSocket
  let r₂ := r₁.1.stop
  (r₂.1, r₁.2 ++ r₂.2)

/-- The end of the thread, `Stop()` and the destructor. -/
def finish : TcpServerSocket × List Syscall :=
  let r₁ := s.threadEnd
  let r₂ := r₁.1.stop
  let r₃ := r₂.1.destroy
  (r₃.1, r₁.2 ++ r₂.2 ++ r₃.2)

end TcpServerSocket

/-! ### Descriptors as handles -/

def Syscall.handle : Syscall → List (HandleOp Fd)
  | .accept _ (some fd) => [.acquire fd]
  | .close fd => [.release fd]
  | .accept _ none | .read _ _ _ | .shutdown _ | .epoll_ctl _ _ _ | .exit _ => []

def handles (calls : List Syscall) : List (HandleOp Fd) := calls.flatMap Syscall.handle

theorem handles_append (xs ys : List Syscall) : handles (xs ++ ys) = handles xs ++ handles ys :=
  List.flatMap_append ..

/-! ### The calls of an event -/

namespace TcpServerSocket

variable (s : TcpServerSocket)

/-- The members that no event changes. -/
def fixed : TcpServerType × Option Fd × Option (Option Fd) :=
  (s.serverType, s.socketFd, s.pInterfaceSocket.map (·.socketFd))

/-- The calls that an event leads to, as far as they concern descriptors. -/
inductive EventCalls (fd : Fd) (accepted : Option Fd) : List Syscall → Prop
  | nothing {calls : List Syscall} (run : ∀ k : Descriptors, k.run calls = k)
      (none : handles calls = []) : EventCalls fd accepted calls
  | admitted {c : Fd} (listenFd : Option Fd) (hl : s.Listens fd) (hc : accepted = some c) :
      EventCalls fd accepted [.accept listenFd (some c), add_event c]
  | refused {c : Fd} (listenFd : Option Fd) (hl : s.Listens fd) (hc : accepted = some c) :
      EventCalls fd accepted [.accept listenFd (some c), .shutdown c, .close c]
  /-- The client on descriptor 0 is refused and stays open. -/
  | neglected (listenFd : Option Fd) (hl : s.Listens fd) (hc : accepted = some 0) :
      EventCalls fd accepted [.accept listenFd (some 0)]
  | ended {calls : List Syscall} (hl : ¬ s.Listens fd) (closes : ∀ k, Closes k fd calls)
      (one : handles calls = [.release fd]) : EventCalls fd accepted calls
  /-- Only taken from the interest set. -/
  | dropped (read : ReadResult) (hl : ¬ s.Listens fd) :
      EventCalls fd accepted [.read fd 512 read, delete_event fd]

variable {s} {fd : Fd} {revents : Mask} {accepted : Option Fd} {read : ReadResult}

theorem insertOrClose_cases (m : FdManager) (n : ℕ) (c : Fd) :
    (m.insertOrClose n c).1 = some c ∧ (m.insertOrClose n c).2.2 = [] ∨
      (m.insertOrClose n c).1 = none ∧ ((m.insertOrClose n c).2.2 = [.shutdown c, .close c] ∨
        c = 0 ∧ (m.insertOrClose n c).2.2 = []) := by
  unfold FdManager.insertOrClose
  split
  · exact .inl ⟨rfl, rfl⟩
  · refine .inr ⟨rfl, ?_⟩
    unfold FdManager.close
    split
    · exact .inl rfl
    · next h0 => exact .inr ⟨Nat.eq_zero_of_not_pos h0, rfl⟩

/-- Both classes accept in the same way. -/
theorem EventCalls.accept (m : FdManager) (n : ℕ) (listenFd : Option Fd) {c : Fd}
    (hl : s.Listens fd) (hc : accepted = some c) :
    s.EventCalls fd accepted (.accept listenFd (some c) :: (m.insertOrClose n c).2.2 ++
      ((m.insertOrClose n c).1.map add_event).toList) := by
  rcases insertOrClose_cases m n c with ⟨h₁, h₂⟩ | ⟨h₁, h₂ | ⟨rfl, h₂⟩⟩
  · rw [h₁, h₂]
    exact .admitted listenFd hl hc
  · rw [h₁, h₂]
    exact .refused listenFd hl hc
  · rw [h₁, h₂]
    exact .neglected listenFd hl hc

theorem accept_fixed : (s.accept accepted).2.1.fixed = s.fixed := by
  unfold TcpServerSocket.accept
  split
  · rfl
  · split <;> rfl

theorem accept_calls (hl : s.Listens fd) :
    s.EventCalls fd accepted
      ((s.accept accepted).2.2 ++ ((s.accept accepted).1.map add_event).toList) := by
  cases hm : s.pDevFdVec_ with
  | none =>
      have h : s.accept accepted = (none, s, []) := by
        unfold TcpServerSocket.accept
        rw [hm]
      rw [h]
      exact .nothing (fun _ => rfl) rfl
  | some m =>
      cases accepted with
      | none =>
          rw [accept_none hm]
          exact .nothing (fun _ => rfl) rfl
      | some c =>
          rw [accept_some hm]
          exact .accept m s.maxConnections s.socketFd hl rfl

theorem ifcAccept_calls (i : TcpInterfaceSocket) (hl : s.Listens fd) :
    s.EventCalls fd accepted
      ((i.accept accepted).2.2 ++ ((i.accept accepted).1.map add_event).toList) := by
  cases accepted with
  | none => exact .nothing (fun _ => rfl) rfl
  | some c => exact .accept i.pIfcFdVec_ i.maxConnections i.socketFd hl rfl

theorem checkFd_fixed : (s.checkFd fd).2.fixed = s.fixed := by
  unfold checkFd
  split <;> rfl

theorem EventCalls.reset (hl : ¬ s.Listens fd) :
    s.EventCalls fd accepted [.read fd 512 read, .close fd, delete_event fd] :=
  .ended hl (fun _ => closes_reset read) rfl

theorem EventCalls.terminated (hl : ¬ s.Listens fd) {calls : List Syscall}
    (hc : calls = [.shutdown fd, .close fd] ∨ calls = [.shutdown fd, .shutdown fd, .close fd]) :
    s.EventCalls fd accepted (.read fd 512 read :: delete_event fd :: calls) := by
  refine .ended hl (fun _ => closes_terminated read hc) ?_
  rcases hc with rfl | rfl <;> rfl

theorem terminated_fixed : (s.terminated fd).1.fixed = s.fixed := by
  unfold TcpServerSocket.terminated
  split
  · exact checkFd_fixed
  · split
    · rfl
    · next i hi =>
      split
      · simp [fixed, hi, TcpInterfaceSocket.close, TcpInterfaceSocket.checkFd]
      · rfl

theorem terminated_cases :
    (s.terminated fd).2 = [] ∨ (s.terminated fd).2 = [.shutdown fd, .close fd] ∨
      (s.terminated fd).2 = [.shutdown fd, .shutdown fd, .close fd] := by
  unfold TcpServerSocket.terminated
  split
  · exact .inr (.inl rfl)
  · split
    · exact .inl rfl
    · split
      · next h =>
        have h0 : 0 < fd := by
          unfold TcpInterfaceSocket.checkFd FdManager.checkFd at h
          split at h
          · next hf => exact (FdManager.find_pos.mp hf).2
          · exact absurd h (by simp)
        refine .inr (.inr ?_)
        simp [TcpInterfaceSocket.close, FdManager.close, h0]
      · exact .inl rfl

/-- The calls of an event of a client, in both threads. -/
theorem client_calls {r closing : TcpServerSocket × List Syscall}
    (hr : r = match read with
      | .failed e =>
          if e = .ECONNRESET then (s, [.read fd 512 read, .close fd, delete_event fd])
          else (s, [.read fd 512 read])
      | .count 0 => closing
      | .count (_ + 1) => (s, [.read fd 512 read]))
    (hl : ¬ s.Listens fd) (hf : closing.1.fixed = s.fixed)
    (hc : s.EventCalls fd accepted closing.2) :
    r.1.fixed = s.fixed ∧ s.EventCalls fd accepted r.2 := by
  subst hr
  cases read with
  | failed e =>
      dsimp only
      split
      · exact ⟨rfl, .reset hl⟩
      · exact ⟨rfl, .nothing (fun _ => rfl) rfl⟩
  | count n =>
      cases n with
      | zero => exact ⟨hf, hc⟩
      | succ n => exact ⟨rfl, .nothing (fun _ => rfl) rfl⟩

theorem noneConcurrentEvent_calls (hi : s.pInterfaceSocket = none) :
    (s.noneConcurrentEvent fd revents accepted read).1.fixed = s.fixed ∧
      s.EventCalls fd accepted (s.noneConcurrentEvent fd revents accepted read).2 := by
  unfold noneConcurrentEvent
  split
  · next hfd =>
    have h : s.EventCalls fd accepted _ := accept_calls (.inl hfd)
    have hf : (s.accept accepted).2.1.fixed = s.fixed := accept_fixed
    cases hr : (s.accept accepted).1 with
    | none => exact ⟨by simpa [hr] using hf, by simpa [hr] using h⟩
    | some c => exact ⟨by simpa [hr] using hf, by simpa [hr] using h⟩
  · next hfd =>
    have hl : ¬ s.Listens fd := by
      rintro (hs | hs)
      · exact hfd hs
      · rw [hi] at hs
        cases hs
    split
    · exact client_calls rfl hl checkFd_fixed (.terminated hl (.inl rfl))
    · exact ⟨rfl, .nothing (fun _ => rfl) rfl⟩

theorem concurrentEvent_calls :
    (s.concurrentEvent fd revents accepted read).1.fixed = s.fixed ∧
      s.EventCalls fd accepted (s.concurrentEvent fd revents accepted read).2 := by
  unfold concurrentEvent
  split
  · next hfd =>
    have h : s.EventCalls fd accepted _ := accept_calls (.inl hfd)
    have hf : (s.accept accepted).2.1.fixed = s.fixed := accept_fixed
    cases hr : (s.accept accepted).1 with
    | none => exact ⟨by simpa [hr, fixed] using hf, by simpa [hr] using h⟩
    | some c => exact ⟨by simpa [hr, fixed] using hf, by simpa [hr] using h⟩
  · next hfd =>
    split
    · next hifc =>
      cases hi : s.pInterfaceSocket with
      | none =>
          rw [hi] at hifc
          cases hifc
      | some i =>
          have h : s.EventCalls fd accepted _ := ifcAccept_calls i (.inr hifc)
          have hf : (i.accept accepted).2.1.socketFd = i.socketFd := by cases accepted <;> rfl
          cases hr : (i.accept accepted).1 with
          | none => exact ⟨by simp [fixed, hr, hi, hf], by simpa [hr] using h⟩
          | some c => exact ⟨by simp [fixed, hr, hi, hf], by simpa [hr] using h⟩
    · next hifc =>
      have hl : ¬ s.Listens fd := fun hs => hs.elim hfd hifc
      split
      · refine client_calls rfl hl terminated_fixed ?_
        show s.EventCalls fd accepted (.read fd 512 read :: delete_event fd ::
          (s.terminated fd).2)
        have hcases : (s.terminated fd).2 = [] ∨ (s.terminated fd).2 = [.shutdown fd, .close fd] ∨
            (s.terminated fd).2 = [.shutdown fd, .shutdown fd, .close fd] := terminated_cases
        rcases hcases with h | h
        · rw [h]
          exact .dropped read hl
        · exact .terminated hl h
      · exact ⟨rfl, .nothing (fun _ => rfl) rfl⟩

/-- The server without concurrency has no interface socket. -/
def Shaped (s : TcpServerSocket) : Prop :=
  s.pInterfaceSocket = none ↔ s.serverType = .TCP_SERVER_TYPE_NONE_CONCURRENT

/-- **One event**: what stays, and the calls. -/
theorem event_calls (hs : s.Shaped) :
    (s.event fd revents accepted read).1.fixed = s.fixed ∧
      s.EventCalls fd accepted (s.event fd revents accepted read).2 := by
  unfold TcpServerSocket.event
  cases ht : s.serverType with
  | TCP_SERVER_TYPE_CONCURRENT => exact concurrentEvent_calls
  | TCP_SERVER_TYPE_NONE_CONCURRENT => exact noneConcurrentEvent_calls (hs.mpr ht)

/-- The listening sockets. -/
def listenFds (s : TcpServerSocket) : Finset Fd :=
  s.socketFd.toFinset ∪ (s.pInterfaceSocket.bind (·.socketFd)).toFinset

theorem mem_listenFds : fd ∈ s.listenFds ↔ s.Listens fd := by
  simp only [listenFds, Listens, Finset.mem_union, Option.mem_toFinset, Option.mem_def]
  exact or_congr eq_comm eq_comm

theorem listenFds_of_fixed {t : TcpServerSocket} (h : t.fixed = s.fixed) :
    t.listenFds = s.listenFds := by
  obtain ⟨-, h₁, h₂⟩ : t.serverType = s.serverType ∧ t.socketFd = s.socketFd ∧
      t.pInterfaceSocket.map (·.socketFd) = s.pInterfaceSocket.map (·.socketFd) := by
    simpa [fixed] using h
  have hbind : ∀ o : Option TcpInterfaceSocket,
      o.bind (·.socketFd) = (o.map (·.socketFd)).join := fun o => by cases o <;> rfl
  rw [listenFds, listenFds, h₁, hbind, hbind, h₂]

theorem Shaped.of_fixed {t : TcpServerSocket} (hs : s.Shaped) (h : t.fixed = s.fixed) :
    t.Shaped := by
  obtain ⟨h₁, -, h₂⟩ : t.serverType = s.serverType ∧ t.socketFd = s.socketFd ∧
      t.pInterfaceSocket.map (·.socketFd) = s.pInterfaceSocket.map (·.socketFd) := by
    simpa [fixed] using h
  have hnone : t.pInterfaceSocket = none ↔ s.pInterfaceSocket = none := by
    rw [← Option.map_eq_none_iff (f := (·.socketFd)), h₂, Option.map_eq_none_iff]
  rw [Shaped, h₁, hnone]
  exact hs

/-- What the calls of an event do, where `k` are the descriptors before. -/
structure Effect (s : TcpServerSocket) (k : Descriptors) (fd : Fd) (calls : List Syscall) :
    Prop where
  kept : ∀ d ∈ k.opened, d ≠ fd → d ∈ (k.run calls).opened
  interest : ∀ d e, (k.run calls).interest d = some e →
    (k.interest d = some e ∧ (d = fd → d ∈ s.listenFds ∨ d ∈ (k.run calls).opened)) ∨
      e.ptr = d ∧ d ∈ (k.run calls).opened
  apart : Disjoint (k.run calls).opened s.listenFds
  proper : Proper (k.opened ∪ s.listenFds) (handles calls)
  held : heldAfter (k.opened ∪ s.listenFds) (handles calls) =
    (k.run calls).opened ∪ s.listenFds

variable {k : Descriptors} {calls : List Syscall}

/-- A client is accepted and stays open. -/
theorem effect_acquire {c : Fd} (hf : fd ∈ s.listenFds) (hc : c ∉ k.opened)
    (hl : c ∉ s.listenFds) (hd : Disjoint k.opened s.listenFds)
    (ho : (k.run calls).opened = insert c k.opened) (hh : handles calls = [.acquire c])
    (hi : ∀ d e, (k.run calls).interest d = some e →
      k.interest d = some e ∨ d = c ∧ e.ptr = d) : s.Effect k fd calls where
  kept d hm _ := by
    rw [ho]
    exact Finset.mem_insert_of_mem hm
  interest d e he := by
    rcases hi d e he with he | ⟨rfl, hp⟩
    · exact .inl ⟨he, fun hfd => .inl (hfd ▸ hf)⟩
    · rw [ho]
      exact .inr ⟨hp, Finset.mem_insert_self d k.opened⟩
  apart := by
    rw [ho, Finset.disjoint_insert_left]
    exact ⟨hl, hd⟩
  proper := by
    rw [hh]
    exact ⟨fun hm => (Finset.mem_union.mp hm).elim hc hl, trivial⟩
  held := by
    rw [hh, ho]
    exact (Finset.insert_union ..).symm

/-- **The effect of an event**: it is on a socket that is open, and `accept(2)` has answered with
one that is not. -/
theorem EventCalls.effect (h : s.EventCalls fd accepted calls)
    (hf : s.Listens fd ∨ fd ∈ k.opened)
    (ha : ∀ c, accepted = some c → c ∉ k.opened ∧ ¬ s.Listens c)
    (hd : Disjoint k.opened s.listenFds) : s.Effect k fd calls := by
  simp only [← mem_listenFds] at hf ha
  cases h with
  | nothing run hnone =>
      constructor
      case kept => exact fun d hm _ => by rwa [run]
      case interest =>
          intro d e he
          rw [run] at he ⊢
          exact .inl ⟨he, fun hfd => hfd ▸ hf⟩
      case apart => rwa [run]
      case proper =>
          rw [hnone]
          trivial
      case held => rw [hnone, run, heldAfter_nil]
  | @admitted c listenFd hl hc =>
      obtain ⟨ho, hn⟩ := ha c hc
      exact effect_acquire (mem_listenFds.mpr hl) ho hn hd rfl rfl fun d e he =>
        interest_add_event (k := k.call (.accept listenFd (some c))) he
  | neglected listenFd hl hc =>
      obtain ⟨ho, hn⟩ := ha 0 hc
      exact effect_acquire (mem_listenFds.mpr hl) ho hn hd rfl rfl fun d e he => .inl he
  | @refused c listenFd hl hc =>
      obtain ⟨ho, hn⟩ := ha c hc
      have he : (k.run [.accept listenFd (some c), .shutdown c, .close c]).opened = k.opened :=
        Finset.erase_insert ho
      have hh : c ∉ k.opened ∪ s.listenFds := fun hm => (Finset.mem_union.mp hm).elim ho hn
      constructor
      case kept => exact fun d hm _ => by rwa [he]
      case interest =>
          intro d e hi
          have hi := interest_close (k := k.run [.accept listenFd (some c), .shutdown c]) hi
          exact .inl ⟨hi.1, fun hfd => .inl (hfd ▸ mem_listenFds.mpr hl)⟩
      case apart => rwa [he]
      case proper => exact ⟨hh, Finset.mem_insert_self .., trivial⟩
      case held =>
          rw [he]
          exact Finset.erase_insert hh
  | ended hl closes one =>
      have hl : fd ∉ s.listenFds := fun hm => hl (mem_listenFds.mp hm)
      have ho := hf.resolve_left hl
      constructor
      case kept =>
          intro d hm hne
          rw [(closes k).opened]
          exact Finset.mem_erase_of_ne_of_mem hne hm
      case interest =>
          intro d e he
          have hi := (closes k).interest d e he
          exact .inl ⟨hi.1, fun hfd => absurd hfd hi.2⟩
      case apart =>
          rw [(closes k).opened]
          exact hd.mono_left (Finset.erase_subset ..)
      case proper =>
          rw [one]
          exact ⟨Finset.mem_union_left _ ho, trivial⟩
      case held =>
          rw [one, (closes k).opened]
          show (k.opened ∪ s.listenFds).erase fd = k.opened.erase fd ∪ s.listenFds
          rw [Finset.erase_union_distrib, Finset.erase_eq_of_notMem hl]
  | dropped read hl =>
      constructor
      case kept => exact fun d hm _ => hm
      case interest =>
          intro d e he
          exact .inl ⟨interest_delete_event (k := k) he, fun hfd => hfd ▸ hf⟩
      case apart => exact hd
      case proper => trivial
      case held => rfl

end TcpServerSocket

/-! ### Steps and runs -/

namespace SocketThread

/-- The calls of a step. -/
def syscalls (s : SocketThread) : SocketAction → List Syscall
  | .epoll_wait _ => []
  | .event accepted read =>
      match s.events with
      | [] => []
      | (fd, revents) :: _ => (s.socket.event fd revents accepted read).2

/-- The calls of the steps from `s` on. -/
def trace : SocketThread → List SocketAction → List Syscall
  | _, [] => []
  | s, a :: ls =>
      match s.act a with
      | none => []
      | some t => s.syscalls a ++ t.trace ls

/-- The sockets of the thread that are open. -/
def held (s : SocketThread) : Finset Fd := s.kernel.opened ∪ s.socket.listenFds

/-- The invariant of every run. -/
structure Tended (s : SocketThread) : Prop where
  shaped : s.socket.Shaped
  watched : s.Watched
  apart : Disjoint s.kernel.opened s.socket.listenFds

variable {s t : SocketThread} {a : SocketAction} {ls : List SocketAction}

theorem listens_of_fixed {s t : TcpServerSocket} (h : t.fixed = s.fixed) (fd : Fd) :
    t.Listens fd ↔ s.Listens fd := by
  rw [← TcpServerSocket.mem_listenFds, TcpServerSocket.listenFds_of_fixed h,
    TcpServerSocket.mem_listenFds]

/-- **One step** closes only what is open, and what it opens is new. -/
theorem Tended.step (h : s.Tended) (hs : SocketStep s a t) :
    t.Tended ∧ t.socket.fixed = s.socket.fixed ∧ Proper s.held (handles (s.syscalls a)) ∧
      heldAfter s.held (handles (s.syscalls a)) = t.held := by
  unfold SocketStep act at hs
  cases a with
  | epoll_wait report =>
      dsimp only at hs
      split at hs
      · next hr =>
        cases hs
        exact ⟨⟨h.shaped, h.watched.harvest hr.2.1, h.apart⟩, rfl, trivial, rfl⟩
      · cases hs
  | event accepted read =>
      dsimp only at hs
      split at hs
      · cases hs
      · next fd revents rest he =>
        split at hs
        · next hc =>
          cases hs
          have hcalled : (s.socket.event fd revents accepted read).1.fixed = s.socket.fixed ∧
              s.socket.EventCalls fd accepted (s.socket.event fd revents accepted read).2 :=
            TcpServerSocket.event_calls h.shaped
          obtain ⟨hfix, hcalls⟩ := hcalled
          have heff := hcalls.effect (h.watched.events (fd, revents) (by simp [he]))
            hc.1 h.apart
          have hnd := h.watched.nodup
          rw [he, List.map_cons, List.nodup_cons] at hnd
          have hlis := TcpServerSocket.listenFds_of_fixed hfix
          simp only [syscalls, he, held, hlis]
          refine ⟨⟨h.shaped.of_fixed hfix, ⟨?_, ?_, hnd.2⟩, ?_⟩, hfix, heff.proper, heff.held⟩
          · intro d e hd
            rw [listens_of_fixed hfix]
            rcases heff.interest d e hd with ⟨hk, hself⟩ | ⟨hp, ho⟩
            · obtain ⟨hp, ho⟩ := h.watched.interest d e hk
              refine ⟨hp, ?_⟩
              by_cases hdf : d = fd
              · exact (hself hdf).imp_left TcpServerSocket.mem_listenFds.mp
              · exact ho.imp_right fun ho => heff.kept d ho hdf
            · exact ⟨hp, .inr ho⟩
          · intro r hr
            have hne : r.1 ≠ fd := by
              intro hrf
              have hr : r ∈ rest := hr
              have hm : r.1 ∈ rest.map Prod.fst := List.mem_map_of_mem hr
              rw [hrf] at hm
              exact hnd.1 hm
            rw [listens_of_fixed hfix]
            have := h.watched.events r (by rw [he]; exact List.mem_cons_of_mem _ hr)
            exact this.imp_right fun ho => heff.kept r.1 ho hne
          · rw [hlis]
            exact heff.apart
        · cases hs

/-- **A whole run** closes only what is open. -/
theorem Tended.run (h : s.Tended) (run : Run SocketStep s ls t) :
    t.Tended ∧ t.socket.fixed = s.socket.fixed ∧ Proper s.held (handles (s.trace ls)) ∧
      heldAfter s.held (handles (s.trace ls)) = t.held := by
  induction run with
  | nil s => exact ⟨h, rfl, trivial, rfl⟩
  | @cons s u t a ls hs hrun ih =>
      obtain ⟨hu, hfix, hproper, hheld⟩ := h.step hs
      obtain ⟨ht, hfix', hproper', hheld'⟩ := ih hu
      have htrace : s.trace (a :: ls) = s.syscalls a ++ u.trace ls := by
        simp only [trace, show s.act a = some u from hs]
      rw [htrace, handles_append, proper_append, heldAfter_append, hheld]
      exact ⟨ht, hfix'.trans hfix, ⟨hproper, hproper'⟩, hheld'⟩

end SocketThread

/-! ### The end -/

theorem range_flatMap_getD {β : Type*} (l : List Fd) (f : Fd → List β) :
    (List.range l.length).flatMap (fun i => f (l.getD i 0)) = l.flatMap f := by
  have hl : (List.range l.length).map (l.getD · 0) = l := by
    apply List.ext_getElem
    · simp
    · intro i h₁ h₂
      simp [List.getD_eq_getElem?_getD, h₂]
  conv_rhs => rw [← hl]
  rw [List.flatMap_map]

/-- `CloseAllConnections` closes each entry once. -/
theorem FdManager.handles_closeAllConnections (m : FdManager) :
    handles m.closeAllConnections.2 = m.fdVec_.map .release := by
  have h := range_flatMap_getD m.fdVec_ fun fd => [Syscall.shutdown fd, .close fd]
  refine (congrArg NetworkStructure.handles h).trans ?_
  clear h
  induction m.fdVec_ with
  | nil => rfl
  | cons fd l ih =>
      rw [List.flatMap_cons, handles_append, ih]
      rfl

theorem closeSocketFd_of_pos {fd : Fd} (h0 : 0 < fd) :
    closeSocketFd (some fd) = (none, [.shutdown fd, .close fd]) := if_pos h0

/-- The calls that take descriptors away. -/
inductive Syscall.Ends : Syscall → Prop
  | shutdown (fd : Fd) : Ends (.shutdown fd)
  | close (fd : Fd) : Ends (.close fd)
  | delete (fd : Fd) : Ends (delete_event fd)

theorem Descriptors.run_interest_of_ends {k : Descriptors} {calls : List Syscall}
    (h : ∀ c ∈ calls, c.Ends) {d : Fd} {e : EpollEvent Fd}
    (he : (k.run calls).interest d = some e) :
    k.interest d = some e ∧ .release d ∉ handles calls := by
  induction calls generalizing k with
  | nil => exact ⟨he, List.not_mem_nil⟩
  | cons c calls ih =>
      obtain ⟨hc, hcalls⟩ := List.forall_mem_cons.mp h
      obtain ⟨hi, hn⟩ := ih (k := k.call c) hcalls he
      cases hc with
      | shutdown fd => exact ⟨hi, hn⟩
      | close fd =>
          obtain ⟨hi, hne⟩ := interest_close hi
          refine ⟨hi, fun hm => (List.mem_append.mp hm).elim (fun hm => ?_) hn⟩
          obtain rfl := HandleOp.release.inj (List.mem_singleton.mp hm)
          exact hne rfl
      | delete fd => exact ⟨interest_delete_event hi, hn⟩

theorem FdManager.closeAllConnections_ends (m : FdManager) :
    ∀ c ∈ m.closeAllConnections.2, c.Ends := by
  intro c hc
  obtain ⟨i, -, hi⟩ := List.mem_flatMap.mp hc
  rcases List.mem_cons.mp hi with rfl | hi
  · exact .shutdown _
  · obtain rfl := List.mem_singleton.mp hi
    exact .close _

namespace TcpServerSocket

variable {s : TcpServerSocket} {socketFd ifcFd : Fd}

theorem closeSocket_of_pos (hs : s.socketFd = some socketFd) (h0 : 0 < socketFd) :
    s.closeSocket = ({ s with socketFd := none }, [.shutdown socketFd, .close socketFd]) := by
  rw [closeSocket, hs, closeSocketFd_of_pos h0]

theorem closeSocket_of_none (hs : s.socketFd = none) : s.closeSocket = (s, []) := by
  obtain ⟨⟩ := s
  cases hs
  rfl

theorem stop_of_none (hs : s.socketFd = none) : s.stop = (s, []) := by
  unfold stop
  split
  · rfl
  · exact closeSocket_of_none hs

/-- What the thread has closed is not closed again. -/
theorem finish_of_none (hs : s.threadEnd.1.socketFd = none) : s.finish = s.threadEnd := by
  unfold finish destroy
  simp only [stop_of_none hs, closeSocket_of_none hs, List.append_nil]

/-- What `CloseAllConnections` does to the server, as far as the end is concerned. -/
structure ClosedAll (s : TcpServerSocket) : Prop where
  fixed : s.closeAllConnections.1.fixed = s.fixed
  handles : handles s.closeAllConnections.2 = s.devFds.map .release
  ends : ∀ c ∈ s.closeAllConnections.2, c.Ends

theorem closedAll (s : TcpServerSocket) : s.ClosedAll := by
  cases hm : s.pDevFdVec_ with
  | none =>
      have h : s.closeAllConnections = (s, []) := by
        unfold closeAllConnections
        rw [hm]
      have hd : s.devFds = [] := by simp [devFds, hm]
      constructor
      case fixed => rw [h]
      case handles =>
          rw [h, hd]
          rfl
      case ends =>
          rw [h]
          exact fun c hc => absurd hc List.not_mem_nil
  | some m =>
      have h : s.closeAllConnections =
          ({ s with pDevFdVec_ := some m.closeAllConnections.1 }, m.closeAllConnections.2) := by
        unfold closeAllConnections
        rw [hm]
      have hd : s.devFds = m.fdVec_ := by simp [devFds, hm]
      constructor
      case fixed =>
          rw [h]
          rfl
      case handles =>
          rw [h, hd]
          exact m.handles_closeAllConnections
      case ends =>
          rw [h]
          exact m.closeAllConnections_ends

/-- The calls on a socket that is closed. -/
theorem ends_close (fd : Fd) : ∀ c ∈ [Syscall.shutdown fd, .close fd], c.Ends := by
  intro c hc
  rcases List.mem_cons.mp hc with rfl | hc
  · exact .shutdown fd
  · obtain rfl := List.mem_singleton.mp hc
    exact .close fd

/-- What the end, from `s`, closes. -/
structure Finished (s : TcpServerSocket) (closed : List Fd) : Prop where
  handles : handles s.finish.2 = closed.map .release
  ends : ∀ c ∈ s.finish.2, c.Ends

theorem finish_noneConcurrent (ht : s.serverType = .TCP_SERVER_TYPE_NONE_CONCURRENT)
    (hs : s.socketFd = some socketFd) (h0 : 0 < socketFd) :
    s.Finished (s.devFds ++ [socketFd]) := by
  have hc := s.closedAll
  have hs₁ : s.closeAllConnections.1.socketFd = some socketFd := by
    have := hc.fixed
    simp only [fixed, Prod.mk.injEq] at this
    exact this.2.1.trans hs
  have hend : s.threadEnd = ({ s.closeAllConnections.1 with socketFd := none },
      [delete_event socketFd] ++ s.closeAllConnections.2 ++
        [.shutdown socketFd, .close socketFd]) := by
    simp only [threadEnd, ht, noneConcurrentEnd, closeSocket_of_pos hs₁ h0, hs,
      Option.map_some, Option.toList_some]
  have hfin : s.finish = s.threadEnd := finish_of_none (by rw [hend])
  constructor <;> rw [hfin, hend]
  · rw [handles_append, handles_append, hc.handles, List.map_append]
    rfl
  · intro c hm
    rcases List.mem_append.mp hm with hm | hm
    · rcases List.mem_append.mp hm with hm | hm
      · obtain rfl := List.mem_singleton.mp hm
        exact .delete socketFd
      · exact hc.ends c hm
    · exact ends_close socketFd c hm

theorem finish_concurrent (ht : s.serverType = .TCP_SERVER_TYPE_CONCURRENT)
    {i : TcpInterfaceSocket} (hi : s.pInterfaceSocket = some i)
    (hs : s.socketFd = some socketFd) (h0 : 0 < socketFd)
    (hsi : i.socketFd = some ifcFd) (h1 : 0 < ifcFd) :
    s.Finished (s.ifcFds ++ [ifcFd] ++ s.devFds ++ [socketFd]) := by
  set j : TcpInterfaceSocket := { i with
    pIfcFdVec_ := i.pIfcFdVec_.closeAllConnections.1, socketFd := none }
  set s' : TcpServerSocket := { s with pInterfaceSocket := some j }
  have hifc : s.ifcFds = i.pIfcFdVec_.fdVec_ := by simp [ifcFds, hi]
  have hj : i.closeAllConnections.1.closeSocket = (j, [.shutdown ifcFd, .close ifcFd]) := by
    simp only [TcpInterfaceSocket.closeSocket, TcpInterfaceSocket.closeAllConnections, hsi,
      closeSocketFd_of_pos h1, j]
  have hc := s'.closedAll
  have hs₁ : s'.closeAllConnections.1.socketFd = some socketFd := by
    have := hc.fixed
    simp only [fixed, Prod.mk.injEq] at this
    exact this.2.1.trans hs
  have hend : s.threadEnd = ({ s'.closeAllConnections.1 with socketFd := none },
      [delete_event ifcFd] ++ [delete_event socketFd] ++ i.pIfcFdVec_.closeAllConnections.2 ++
        [.shutdown ifcFd, .close ifcFd] ++ s'.closeAllConnections.2 ++
        [.shutdown socketFd, .close socketFd]) := by
    unfold threadEnd
    rw [ht]
    dsimp only
    unfold concurrentEnd
    rw [hi]
    dsimp only
    rw [hj, hsi]
    show (s'.closeAllConnections.1.closeSocket.1, [delete_event ifcFd] ++
      (s.socketFd.map delete_event).toList ++ i.pIfcFdVec_.closeAllConnections.2 ++
      [.shutdown ifcFd, .close ifcFd] ++ s'.closeAllConnections.2 ++
      s'.closeAllConnections.1.closeSocket.2) = _
    rw [closeSocket_of_pos hs₁ h0, hs]
    rfl
  have hfin : s.finish = s.threadEnd := finish_of_none (by rw [hend])
  constructor <;> rw [hfin, hend]
  · simp only [handles_append, hc.handles, List.map_append, hifc,
      i.pIfcFdVec_.handles_closeAllConnections]
    rfl
  · intro c hm
    simp only [List.mem_append] at hm
    rcases hm with ((((hm | hm) | hm) | hm) | hm) | hm
    · obtain rfl := List.mem_singleton.mp hm
      exact .delete ifcFd
    · obtain rfl := List.mem_singleton.mp hm
      exact .delete socketFd
    · exact i.pIfcFdVec_.closeAllConnections_ends c hm
    · exact ends_close ifcFd c hm
    · exact hc.ends c hm
    · exact ends_close socketFd c hm

end TcpServerSocket

/-! ### A whole life -/

namespace SocketThread

/-- `Open()` of the sockets: the descriptors that `socket(2)` answers with. -/
def openings (type : TcpServerType) (socketFd ifcFd : Fd) : List (HandleOp Fd) :=
  match type with
  | .TCP_SERVER_TYPE_CONCURRENT => [.acquire socketFd, .acquire ifcFd]
  | .TCP_SERVER_TYPE_NONE_CONCURRENT => [.acquire socketFd]

/-- What a thread does with descriptors from its start, until it is in the state `t`. -/
def loopHandles (n : ℤ) (type : TcpServerType) (socketFd ifcFd : Fd) (ls : List SocketAction) :
    List (HandleOp Fd) :=
  openings type socketFd ifcFd ++
    handles ((start (TcpServerSocket.new n type).2 socketFd ifcFd).trace ls)

variable {n : ℤ} {type : TcpServerType} {socketFd ifcFd : Fd} {t : SocketThread}
  {ls : List SocketAction}

theorem opened_start (s : TcpServerSocket) (socketFd ifcFd : Fd) :
    (start s socketFd ifcFd).kernel.opened = ∅ := by
  unfold start
  cases s.serverType <;> rfl

theorem tended_start (hn : ¬ (n > 1 ∧ type = .TCP_SERVER_TYPE_CONCURRENT)) (socketFd ifcFd : Fd) :
    (start (TcpServerSocket.new n type).2 socketFd ifcFd).Tended := by
  refine ⟨?_, (kept_start hn socketFd ifcFd).watched, ?_⟩
  · unfold TcpServerSocket.new TcpServerSocket.Shaped
    rw [if_neg hn]
    cases type <;> simp [start]
  · rw [opened_start]
    exact Finset.disjoint_empty_left _

/-- Opening the sockets is proper, and leaves them open. -/
theorem openings_spec (hn : ¬ (n > 1 ∧ type = .TCP_SERVER_TYPE_CONCURRENT))
    (hne : socketFd ≠ ifcFd) :
    Proper ∅ (openings type socketFd ifcFd) ∧
      heldAfter ∅ (openings type socketFd ifcFd) =
        (start (TcpServerSocket.new n type).2 socketFd ifcFd).held := by
  unfold TcpServerSocket.new
  rw [if_neg hn]
  cases type with
  | TCP_SERVER_TYPE_CONCURRENT =>
      constructor
      · refine ⟨Finset.notMem_empty _, ?_, trivial⟩
        show ifcFd ∉ insert socketFd ∅
        simpa using hne.symm
      · ext d
        simp [openings, start, held, TcpServerSocket.listenFds, HandleOp.apply, Descriptors.run,
          Descriptors.call, add_event, or_comm]
  | TCP_SERVER_TYPE_NONE_CONCURRENT =>
      constructor
      · exact ⟨Finset.notMem_empty _, trivial⟩
      · ext d
        simp [openings, start, held, TcpServerSocket.listenFds, HandleOp.apply, Descriptors.run,
          Descriptors.call, add_event]

/-- The interface socket of a server that is initialised and open. -/
def interfaceFd (type : TcpServerType) (ifcFd : Fd) : Option (Option Fd) :=
  match type with
  | .TCP_SERVER_TYPE_CONCURRENT => some (some ifcFd)
  | .TCP_SERVER_TYPE_NONE_CONCURRENT => none

theorem fixed_start (hn : ¬ (n > 1 ∧ type = .TCP_SERVER_TYPE_CONCURRENT)) :
    (start (TcpServerSocket.new n type).2 socketFd ifcFd).socket.fixed =
      (type, some socketFd, interfaceFd type ifcFd) := by
  unfold TcpServerSocket.new
  rw [if_neg hn]
  cases type <;> rfl

/-- What the end closes is a balanced ledger of what is open exactly when the books are. -/
theorem Tended.finished (h : t.Tended)
    (hfix : t.socket.fixed = (type, some socketFd, interfaceFd type ifcFd)) (h0 : 0 < socketFd)
    (h1 : 0 < ifcFd) (hne : socketFd ≠ ifcFd) :
    ∃ closed, t.socket.Finished closed ∧ (Balanced closed t.held ↔
      Balanced (t.socket.devFds ++ t.socket.ifcFds) t.kernel.opened) := by
  obtain ⟨ht, hs, hi⟩ : t.socket.serverType = type ∧ t.socket.socketFd = some socketFd ∧
      t.socket.pInterfaceSocket.map (·.socketFd) = interfaceFd type ifcFd := by
    simpa only [TcpServerSocket.fixed, Prod.mk.injEq] using hfix
  have hfree : ∀ d ∈ t.socket.listenFds, d ∉ t.kernel.opened := fun d hl ho =>
    Finset.disjoint_left.mp h.apart ho hl
  cases type with
  | TCP_SERVER_TYPE_NONE_CONCURRENT =>
      have hi : t.socket.pInterfaceSocket = none := Option.map_eq_none_iff.mp hi
      refine ⟨_, TcpServerSocket.finish_noneConcurrent ht hs h0, ?_⟩
      have hifc : t.socket.ifcFds = [] := by simp [TcpServerSocket.ifcFds, hi]
      have hl : t.socket.listenFds = {socketFd} := by simp [TcpServerSocket.listenFds, hs, hi]
      have hheld : t.held = insert socketFd t.kernel.opened := by
        rw [held, hl, Finset.union_comm]
        rfl
      rw [hheld, hifc, List.append_nil, balanced_perm (List.perm_append_singleton socketFd _),
        balanced_cons_iff (hfree socketFd (by simp [hl]))]
  | TCP_SERVER_TYPE_CONCURRENT =>
      obtain ⟨i, hi, hsi⟩ := Option.map_eq_some_iff.mp hi
      refine ⟨_, TcpServerSocket.finish_concurrent ht hi hs h0 hsi h1, ?_⟩
      have hl : t.socket.listenFds = {socketFd, ifcFd} := by
        simp [TcpServerSocket.listenFds, hs, hi, hsi]
      have hheld : t.held = insert socketFd (insert ifcFd t.kernel.opened) := by
        rw [held, hl, Finset.union_comm, Finset.insert_union]
        rfl
      have hperm : (t.socket.ifcFds ++ [ifcFd] ++ t.socket.devFds ++ [socketFd]).Perm
          (socketFd :: ifcFd :: (t.socket.devFds ++ t.socket.ifcFds)) := by
        refine (List.perm_append_singleton socketFd _).trans (.cons socketFd ?_)
        rw [List.append_assoc]
        refine List.perm_append_comm.trans ?_
        exact .cons ifcFd (.refl _)
      have hs₁ : socketFd ∉ insert ifcFd t.kernel.opened := by
        rw [Finset.mem_insert]
        exact fun hm => hm.elim hne (hfree socketFd (by simp [hl]))
      rw [hheld, balanced_perm hperm, balanced_cons_iff hs₁,
        balanced_cons_iff (hfree ifcFd (by simp [hl]))]

end SocketThread

/-- **The life of a socket thread**, with `Stop()` and the destructor after it: of a server that
the constructor has initialised, whose listening sockets are on two different descriptors, neither
of them 0.  In every run the loop closes only what is open.  To the end only what is open is
closed, and nothing is left, exactly when the books are balanced; then each descriptor is closed as
often as it is opened, and nothing is registered.  So it is after the runs whose steps are
clean. -/
theorem socketThread_life {n : ℤ} {type : TcpServerType}
    (hn : ¬ (n > 1 ∧ type = .TCP_SERVER_TYPE_CONCURRENT)) {socketFd ifcFd : Fd}
    (h0 : 0 < socketFd) (h1 : 0 < ifcFd) (hne : socketFd ≠ ifcFd) {ls : List SocketAction}
    {t : SocketThread}
    (run : Run SocketStep (SocketThread.start (TcpServerSocket.new n type).2 socketFd ifcFd) ls t) :
    let loop := SocketThread.loopHandles n type socketFd ifcFd ls
    let life := loop ++ handles t.socket.finish.2
    let balanced := Balanced (t.socket.devFds ++ t.socket.ifcFds) t.kernel.opened
    Proper ∅ loop ∧ (Proper ∅ life ∧ heldAfter ∅ life = ∅ ↔ balanced) ∧
      (balanced → ∀ fd, life.count (.acquire fd) = life.count (.release fd) ∧
        (t.kernel.run t.socket.finish.2).interest fd = none) ∧
      (RunWith SocketStep (fun s a _ => s.Clean a)
        (SocketThread.start (TcpServerSocket.new n type).2 socketFd ifcFd) ls t → balanced) := by
  intro loop life balanced
  obtain ⟨hopen, hopened⟩ := SocketThread.openings_spec hn hne
  obtain ⟨ht, hfix, hproper, hheld⟩ := (SocketThread.tended_start hn socketFd ifcFd).run run
  have hloop : Proper ∅ loop ∧ heldAfter ∅ loop = t.held := by
    refine ⟨proper_append.mpr ⟨hopen, ?_⟩, ?_⟩
    · rwa [hopened]
    · exact heldAfter_append.trans (by rw [hopened, hheld])
  obtain ⟨closed, hfin, hbal⟩ := ht.finished (hfix.trans (SocketThread.fixed_start hn)) h0 h1 hne
  have hlife : Proper ∅ life ∧ heldAfter ∅ life = ∅ ↔ balanced := by
    rw [proper_append, heldAfter_append, hloop.2, hfin.handles, and_iff_right hloop.1,
      releaseAll_iff, hbal]
  refine ⟨hloop.1, hlife, ?_, ?_⟩
  · intro hb fd
    have hall := hlife.mpr hb
    refine ⟨hall.1.count_eq hall.2 fd, ?_⟩
    by_contra hne
    obtain ⟨e, he⟩ := Option.ne_none_iff_exists'.mp hne
    obtain ⟨hi, hn⟩ := Descriptors.run_interest_of_ends hfin.ends he
    refine hn ?_
    rw [hfin.handles]
    refine List.mem_map_of_mem (((hbal.mpr hb).mem fd).mpr ?_)
    have hw := (ht.watched.interest fd e hi).2
    rw [SocketThread.held, Finset.mem_union, TcpServerSocket.mem_listenFds]
    exact hw.symm
  · intro hclean
    have hkept : t.Kept := RunWith.invariant (fun s a t h hs hc => (h.step hs).2 hc) hclean
      (SocketThread.kept_start hn socketFd ifcFd)
    exact hkept.books.balanced

/-- A client of the server and one of the interface socket, of which the first one closes. -/
def twoClients : List SocketAction :=
  [.epoll_wait [(3, EPOLLIN), (4, EPOLLIN)], .event (some 7) (.count 0),
    .event (some 8) (.count 0), .epoll_wait [(7, EPOLLIN)], .event none (.count 0)]

/-- The end closes the other one. -/
theorem socketThread_life_example :
    ∃ t : SocketThread, t.AtHead ∧ t.socket.ifcFds = [8] ∧
      let life := SocketThread.loopHandles 0 .TCP_SERVER_TYPE_CONCURRENT 3 4 twoClients ++
        handles t.socket.finish.2
      Proper ∅ life ∧ heldAfter ∅ life = ∅ := by
  obtain ⟨t, run, hh, hi⟩ := exists_runWith SocketThread.act SocketThread.Clean
    (fun t => t.AtHead ∧ t.socket.ifcFds = [8])
    (SocketThread.start (TcpServerSocket.new 0 .TCP_SERVER_TYPE_CONCURRENT).2 3 4) twoClients
    (by decide +kernel)
  have h := socketThread_life (by decide) (by decide) (by decide) (by decide)
    (run.mono fun _ _ _ hs => hs.1)
  exact ⟨t, hh, hi, h.2.1.mpr (h.2.2.2 run)⟩

end NetworkStructure
