import NetworkStructure.FdManager
import NetworkStructure.SocketCalls

/-! # TcpServerSocket and TcpInterfaceSocket

Both classes accept clients and keep their descriptors in an `FdManager`; `Accept`, `Close(fd)`,
`CheckConnections` and `CheckFd` are written twice, with the same text up to the null test in
`TcpServerSocket::Accept`.  `NoneConcurrentThread` serves one client at a time;
`ConcurrentThread` serves the clients of the server and those of its interface socket.

`Accept` stores the new descriptor in the member `connFd` before it tests whether there is room,
so that a client that is refused takes the place of the active one in `connFd`
(`refusedAccept`). -/

namespace NetworkStructure

/-! ### What the two classes share -/

namespace FdManager

/-- `CheckConnections()`. -/
def checkConnections (m : FdManager) (maxConnections : ℕ) : ℤ :=
  if m.getTotalCount < maxConnections then 1 else -1

/-- `Close(fd)`; descriptor 0 is taken for none. -/
def close (m : FdManager) (fd : Fd) : FdManager × List Syscall :=
  if 0 < fd then ((m.delete fd).2, [.shutdown fd, .close fd]) else (m, [])

/-- `CheckFd(fd)`. -/
def checkFd (m : FdManager) (fd : Fd) : ℤ × FdManager :=
  if 0 < m.find fd then (1, (m.delete fd).2) else (-1, m)

/-- What `Accept` does with a descriptor that it has got: the value of `connFd` at its end. -/
def insertOrClose (m : FdManager) (maxConnections : ℕ) (fd : Fd) :
    Option Fd × FdManager × List Syscall :=
  if 0 < m.checkConnections maxConnections then (some fd, (m.insert fd).2, [])
  else (none, m.close fd)

variable {m : FdManager} {n : ℕ} {fd : Fd}

theorem checkConnections_pos : 0 < m.checkConnections n ↔ m.fdVec_.length < n := by
  unfold checkConnections getTotalCount
  split
  · next h => simp [h]
  · next h => simp [h]

/-- There is room: the descriptor is appended. -/
theorem insertOrClose_of_room (h : m.fdVec_.length < n) (hs : m.maxSize_ = n) :
    m.insertOrClose n fd = (some fd, { m with fdVec_ := m.fdVec_ ++ [fd] }, []) := by
  unfold insertOrClose insert
  rw [if_pos (checkConnections_pos.mpr h), if_pos (by omega)]

/-- There is none: the socket is closed. -/
theorem insertOrClose_of_full (h : n ≤ m.fdVec_.length) (h0 : 0 < fd) (hm : fd ∉ m.fdVec_) :
    m.insertOrClose n fd = (none, m, [.shutdown fd, .close fd]) := by
  unfold insertOrClose close delete
  rw [if_neg (fun hp => Nat.not_lt.mpr h (checkConnections_pos.mp hp)), if_pos h0, if_neg hm]

/-- Unless it is descriptor 0. -/
theorem insertOrClose_zero (h : n ≤ m.fdVec_.length) : m.insertOrClose n 0 = (none, m, []) := by
  unfold insertOrClose close
  rw [if_neg (fun hp => Nat.not_lt.mpr h (checkConnections_pos.mp hp)), if_neg (Nat.lt_irrefl 0)]

theorem checkFd_of_mem (hm : fd ∈ m.fdVec_) (h0 : 0 < fd) :
    m.checkFd fd = (1, { m with fdVec_ := m.fdVec_.erase fd }) := by
  unfold checkFd delete
  rw [if_pos (find_pos.mpr ⟨hm, h0⟩), if_pos hm]

theorem checkFd_of_not (h : ¬ (fd ∈ m.fdVec_ ∧ 0 < fd)) : m.checkFd fd = (-1, m) := by
  unfold checkFd
  rw [if_neg (fun hp => h (find_pos.mp hp))]

theorem close_of_not_mem (h0 : 0 < fd) (hm : fd ∉ m.fdVec_) :
    m.close fd = (m, [.shutdown fd, .close fd]) := by
  unfold close delete
  rw [if_pos h0, if_neg hm]

end FdManager

/-! ### TcpInterfaceSocket -/

structure TcpInterfaceSocket where
  socketFd : Option Fd := none
  connFd : Option Fd := none
  maxConnections : ℕ
  pIfcFdVec_ : FdManager

namespace TcpInterfaceSocket

/-- The constructor. -/
def new (maxConn : ℕ) : TcpInterfaceSocket where
  maxConnections := maxConn
  pIfcFdVec_ := { maxSize_ := maxConn }

variable (s : TcpInterfaceSocket)

/-- `Accept()`, where `accept(2)` answers `answer`. -/
def accept (answer : Option Fd) : Option Fd × TcpInterfaceSocket × List Syscall :=
  match answer with
  | none => (none, { s with connFd := none }, [.accept s.socketFd none])
  | some fd =>
      let r := s.pIfcFdVec_.insertOrClose s.maxConnections fd
      (r.1, { s with connFd := r.1, pIfcFdVec_ := r.2.1 }, .accept s.socketFd (some fd) :: r.2.2)

def close (fd : Fd) : TcpInterfaceSocket × List Syscall :=
  let r := s.pIfcFdVec_.close fd
  ({ s with pIfcFdVec_ := r.1 }, r.2)

def checkFd (fd : Fd) : ℤ × TcpInterfaceSocket :=
  let r := s.pIfcFdVec_.checkFd fd
  (r.1, { s with pIfcFdVec_ := r.2 })

end TcpInterfaceSocket

/-! ### TcpServerSocket -/

inductive TcpServerType where
  | TCP_SERVER_TYPE_CONCURRENT
  | TCP_SERVER_TYPE_NONE_CONCURRENT
deriving DecidableEq, Repr

def MAX_DEV_CONNECTIONS : ℕ := 4
def MAX_IFC_CONNECTIONS : ℕ := 2

/-- `READER_CONFIGURATION*`, not null. -/
abbrev ConfigPtr := ℕ

/-- The pointers may be null. -/
structure TcpServerSocket where
  serverType : TcpServerType
  socketFd : Option Fd := none
  connFd : Option Fd := none
  maxConnections : ℕ := 0
  pDevFdVec_ : Option FdManager := none
  pInterfaceSocket : Option TcpInterfaceSocket := none
  pReaderConfig : Option ConfigPtr := none

namespace TcpServerSocket

/-- The constructor: the counter of the concurrent servers and the object. -/
def new (numOfConcurrentServer : ℤ) (type : TcpServerType) : ℤ × TcpServerSocket :=
  if numOfConcurrentServer > 1 ∧ type = .TCP_SERVER_TYPE_CONCURRENT then
    (numOfConcurrentServer, { serverType := type })
  else
    match type with
    | .TCP_SERVER_TYPE_CONCURRENT =>
        (numOfConcurrentServer + 1, {
          serverType := type
          maxConnections := MAX_DEV_CONNECTIONS
          pDevFdVec_ := some { maxSize_ := MAX_DEV_CONNECTIONS }
          pInterfaceSocket := some (.new MAX_IFC_CONNECTIONS) })
    | .TCP_SERVER_TYPE_NONE_CONCURRENT =>
        (numOfConcurrentServer, {
          serverType := type
          maxConnections := 1
          pDevFdVec_ := some { maxSize_ := 1 } })

variable (s : TcpServerSocket)

/-- `Accept()`, where `accept(2)` answers `answer`. -/
def accept (answer : Option Fd) : Option Fd × TcpServerSocket × List Syscall :=
  match s.pDevFdVec_ with
  | none => (none, s, [])
  | some m =>
      match answer with
      | none => (none, { s with connFd := none }, [.accept s.socketFd none])
      | some fd =>
          let r := m.insertOrClose s.maxConnections fd
          (r.1, { s with connFd := r.1, pDevFdVec_ := some r.2.1 },
            .accept s.socketFd (some fd) :: r.2.2)

/-- `SocketWrite(buff, len)`, where `send` is `send(2)` and `none` the descriptor -1. -/
def socketWrite (send : Option Fd → List UInt8 → ℤ) (buff : List UInt8) : ℤ :=
  if send s.connFd buff = -1 then -1 else 0

/-- `CheckFd(fd)`, which does not test the pointer. -/
def checkFd (fd : Fd) : ℤ × TcpServerSocket :=
  match s.pDevFdVec_ with
  | none => (-1, s)
  | some m => ((m.checkFd fd).1, { s with pDevFdVec_ := some (m.checkFd fd).2 })

/-! ### An accept that fails -/

/-- A client is being served: `connFd` and the manager both have its descriptor. -/
def Active (fd : Fd) : Prop := s.connFd = some fd ∧ ∃ m ∈ s.pDevFdVec_, fd ∈ m.fdVec_

/-- What the members that the reads and writes go by are before and after. -/
def Untouched (s t : TcpServerSocket) : Prop :=
  t.connFd = s.connFd ∧ t.pDevFdVec_ = s.pDevFdVec_

instance (fd : Fd) : Decidable (s.Active fd) := inferInstanceAs (Decidable (_ ∧ _))

instance (s t : TcpServerSocket) : Decidable (Untouched s t) := inferInstanceAs (Decidable (_ ∧ _))

variable {s}

theorem accept_none {m : FdManager} (hm : s.pDevFdVec_ = some m) :
    s.accept none = (none, { s with connFd := none }, [.accept s.socketFd none]) := by
  unfold accept
  rw [hm]

theorem accept_some {m : FdManager} (hm : s.pDevFdVec_ = some m) (fd : Fd) :
    s.accept (some fd) = ((m.insertOrClose s.maxConnections fd).1,
      { s with
        connFd := (m.insertOrClose s.maxConnections fd).1
        pDevFdVec_ := some (m.insertOrClose s.maxConnections fd).2.1 },
      .accept s.socketFd (some fd) :: (m.insertOrClose s.maxConnections fd).2.2) := by
  unfold accept
  rw [hm]

theorem accept_connFd {m : FdManager} (hm : s.pDevFdVec_ = some m) (answer : Option Fd) :
    (s.accept answer).2.1.connFd = (s.accept answer).1 := by
  cases answer with
  | none => rw [accept_none hm]
  | some fd => rw [accept_some hm]

/-- **An accept that fails loses the active client**: whatever the state and whatever
`accept(2)` answers, `connFd` is -1 afterwards, and the next write goes to no descriptor. -/
theorem refusedAccept {fd : Fd} {answer : Option Fd} (h : s.Active fd)
    (hr : (s.accept answer).1 = none) :
    ¬ Untouched s (s.accept answer).2.1 ∧
      ∀ send buff, (s.accept answer).2.1.socketWrite send buff =
        if send none buff = -1 then -1 else 0 := by
  obtain ⟨hc, m, hm, -⟩ := h
  have he : (s.accept answer).2.1.connFd = none := (accept_connFd hm answer).trans hr
  refine ⟨?_, ?_⟩
  · rintro ⟨hu, -⟩
    rw [he, hc] at hu
    cases hu
  · intro send buff
    rw [socketWrite, he]

/-- The server on port 55266 after its thread has accepted a client on descriptor 5. -/
def oneClient : TcpServerSocket where
  serverType := .TCP_SERVER_TYPE_NONE_CONCURRENT
  socketFd := some 3
  connFd := some 5
  maxConnections := 1
  pDevFdVec_ := some { maxSize_ := 1, fdVec_ := [5] }

/-- A second client connects and is refused. -/
theorem refusedAccept_example :
    ¬ Untouched oneClient (oneClient.accept (some 6)).2.1 ∧
      ∀ send buff, (oneClient.accept (some 6)).2.1.socketWrite send buff =
        if send none buff = -1 then -1 else 0 :=
  refusedAccept (show oneClient.Active 5 by decide) (by decide)

/-- The client that is refused takes the active one out of `connFd`. -/
theorem refusedAccept_loses : oneClient.Active 5 ∧ (oneClient.accept (some 6)).1 = none ∧
    ¬ Untouched oneClient (oneClient.accept (some 6)).2.1 ∧
    (oneClient.accept (some 6)).2.1.connFd = none := by
  decide

/-! ### The threads -/

variable (s)

/-- The body of the loop over the events in `NoneConcurrentThread`.  Its `connFd` is a local
variable, and `ProcessAndSendingImageData` does nothing. -/
def noneConcurrentEvent : EventHandler TcpServerSocket := fun s fd revents accepted read =>
  if some fd = s.socketFd then
    let r := s.accept accepted
    match r.1 with
    | none => r.2
    | some connFd => (r.2.1, r.2.2 ++ [add_event connFd])
  else if Mask.test revents EPOLLIN then
    match read with
    | .failed e =>
        if e = .ECONNRESET then (s, [.read fd 512 read, .close fd, delete_event fd])
        else (s, [.read fd 512 read])
    | .count 0 =>
        ((s.checkFd fd).2, [.read fd 512 read, delete_event fd, .shutdown fd, .close fd])
    | .count (_ + 1) => (s, [.read fd 512 read])
  else (s, [])

/-- The end of a connection in `ConcurrentThread`: the server is asked for the descriptor, then
the interface socket. -/
def terminated (fd : Fd) : TcpServerSocket × List Syscall :=
  if 0 < (s.checkFd fd).1 then ((s.checkFd fd).2, [.shutdown fd, .close fd])
  else
    match s.pInterfaceSocket with
    | none => (s, [])
    | some i =>
        if 0 < (i.checkFd fd).1 then
          let r := (i.checkFd fd).2.close fd
          ({ s with pInterfaceSocket := some r.1 }, .shutdown fd :: r.2)
        else (s, [])

variable {s}

section Terminated

variable {m : FdManager} {i : TcpInterfaceSocket} {fd : Fd}

theorem checkFd_of_mem (hm : s.pDevFdVec_ = some m) (hf : fd ∈ m.fdVec_) (h0 : 0 < fd) :
    s.checkFd fd =
      (1, { s with pDevFdVec_ := some { m with fdVec_ := m.fdVec_.erase fd } }) := by
  unfold checkFd
  rw [hm]
  simp only [FdManager.checkFd_of_mem hf h0]

theorem checkFd_of_not (hm : s.pDevFdVec_ = some m) (h : ¬ (fd ∈ m.fdVec_ ∧ 0 < fd)) :
    s.checkFd fd = (-1, s) := by
  unfold checkFd
  rw [hm]
  simp only [FdManager.checkFd_of_not h, ← hm]

theorem terminated_of_dev (hm : s.pDevFdVec_ = some m) (hf : fd ∈ m.fdVec_) (h0 : 0 < fd) :
    s.terminated fd =
      ({ s with pDevFdVec_ := some { m with fdVec_ := m.fdVec_.erase fd } },
        [.shutdown fd, .close fd]) := by
  unfold terminated
  rw [checkFd_of_mem hm hf h0]
  exact if_pos Int.one_pos

/-- `Close` erases once more what `CheckFd` has erased. -/
theorem terminated_of_ifc (hm : s.pDevFdVec_ = some m) (hn : fd ∉ m.fdVec_)
    (hi : s.pInterfaceSocket = some i) (hf : fd ∈ i.pIfcFdVec_.fdVec_)
    (hd : i.pIfcFdVec_.fdVec_.Nodup) (h0 : 0 < fd) :
    s.terminated fd =
      ({ s with pInterfaceSocket := some { i with
        pIfcFdVec_ := { i.pIfcFdVec_ with fdVec_ := i.pIfcFdVec_.fdVec_.erase fd } } },
        [.shutdown fd, .shutdown fd, .close fd]) := by
  have hclose := FdManager.close_of_not_mem h0
    (m := { i.pIfcFdVec_ with fdVec_ := i.pIfcFdVec_.fdVec_.erase fd }) hd.not_mem_erase
  unfold terminated
  rw [checkFd_of_not hm fun h => hn h.1, if_neg (by simp), hi]
  simp only [TcpInterfaceSocket.checkFd, TcpInterfaceSocket.close,
    FdManager.checkFd_of_mem hf h0, hclose]
  exact if_pos Int.one_pos

/-- Descriptor 0 is not found in either list. -/
theorem terminated_zero (hm : s.pDevFdVec_ = some m) : s.terminated 0 = (s, []) := by
  have hn : ∀ l : List Fd, ¬ (0 ∈ l ∧ 0 < 0) := fun l h => Nat.lt_irrefl 0 h.2
  unfold terminated
  rw [checkFd_of_not hm (hn _), if_neg (by simp)]
  cases hi : s.pInterfaceSocket with
  | none => rfl
  | some i =>
      simp only [TcpInterfaceSocket.checkFd, FdManager.checkFd_of_not (hn _)]
      exact if_neg (by simp)

end Terminated

variable (s)

/-- The body of the loop over the events in `ConcurrentThread`, which uses the member `connFd`
for both accepts.  The data is thrown away, and so is the event of a socket that is only
writable. -/
def concurrentEvent : EventHandler TcpServerSocket := fun s fd revents accepted read =>
  if some fd = s.socketFd then
    let r := s.accept accepted
    let s := { r.2.1 with connFd := none }
    match r.1 with
    | none => (s, r.2.2)
    | some connFd => (s, r.2.2 ++ [add_event connFd])
  else if some fd = s.pInterfaceSocket.bind (·.socketFd) then
    match s.pInterfaceSocket with
    | none => (s, [])
    | some i =>
        let r := i.accept accepted
        let s := { s with connFd := none, pInterfaceSocket := some r.2.1 }
        match r.1 with
        | none => (s, r.2.2)
        | some connFd => (s, r.2.2 ++ [add_event connFd])
  else if Mask.test revents EPOLLIN then
    match read with
    | .failed e =>
        if e = .ECONNRESET then (s, [.read fd 512 read, .close fd, delete_event fd])
        else (s, [.read fd 512 read])
    | .count 0 =>
        let r := s.terminated fd
        (r.1, .read fd 512 read :: delete_event fd :: r.2)
    | .count (_ + 1) => (s, [.read fd 512 read])
  else (s, [])

/-- The thread that `Start()` starts. -/
def event : EventHandler TcpServerSocket := fun s =>
  match s.serverType with
  | .TCP_SERVER_TYPE_CONCURRENT => concurrentEvent s
  | .TCP_SERVER_TYPE_NONE_CONCURRENT => noneConcurrentEvent s

end TcpServerSocket
end NetworkStructure
