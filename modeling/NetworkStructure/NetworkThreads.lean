import NetworkStructure.ThreadHandles

/-! # The threads of a Network

`Network` owns two `TcpServerSocket`s and a thread that waits; any number of `IPC` objects share
the one static handle `ipc_thread`.  Each of these objects has a flag that guards its handle.

`StartNetworkServer` and `StopNetworkServer` call the `Network` in `gNetworkPtr`, which is never
set, and so they do nothing.

So only two things can terminate the process: two `IPC` objects that are started at the same time,
and the destructor of `Network`, which stops the sockets and not the thread that waits
(`networkThreads`). -/

namespace NetworkStructure

/-- The objects that start a thread. -/
inductive ThreadOwner where
  | pTcpSocket
  | pTcpSocketConfig
  | listener
  | ipc (object : ℕ)
deriving DecidableEq, Repr

/-- The variables of type `std::thread`. -/
inductive ThreadHandle where
  | pTcpSocket
  | pTcpSocketConfig
  | listenerT
  | ipc_thread
deriving DecidableEq, Repr

namespace ThreadOwner

def handle : ThreadOwner → ThreadHandle
  | pTcpSocket => .pTcpSocket
  | pTcpSocketConfig => .pTcpSocketConfig
  | listener => .listenerT
  | ipc _ => .ipc_thread

theorem injOn_handle (running : Finset ThreadOwner) : Set.InjOn handle running ↔
    ∀ m n, ipc m ∈ running → ipc n ∈ running → m = n := by
  constructor
  · intro h m n hm hn
    exact ipc.inj (h hm hn rfl)
  · rintro h (_ | _ | _ | m) hi (_ | _ | _ | n) hj he <;> try cases he <;> rfl
    exact congrArg ipc (h m n hi hj)

end ThreadOwner

namespace Network

def start : List (GuardedCall ThreadOwner) := [.start .pTcpSocket, .start .pTcpSocketConfig]

def stop : List (GuardedCall ThreadOwner) := [.stop .pTcpSocket, .stop .pTcpSocketConfig]

def starThread : List (GuardedCall ThreadOwner) := [.start .listener]

def stopThread : List (GuardedCall ThreadOwner) := [.stop .listener]

/-- `NULL != gNetworkPtr`.  The pointer is static, starts as `NULL` and is never assigned. -/
def gNetworkPtrSet : Bool := false

def startNetworkServer : List (GuardedCall ThreadOwner) :=
  if gNetworkPtrSet then start ++ starThread else []

def stopNetworkServer : List (GuardedCall ThreadOwner) :=
  if gNetworkPtrSet then stopThread ++ stop else []

/-- The destructors: that of a `TcpServerSocket` calls `Stop()`, and that of `Network` deletes the
sockets, but does not call `StopThread()`. -/
def destroy (running : Finset ThreadOwner) : List (ThreadOp ThreadHandle) :=
  let afterTcpSocket := running.erase .pTcpSocket
  (GuardedCall.stop .pTcpSocket).ops ThreadOwner.handle running ++
    [.destroy ThreadOwner.pTcpSocket.handle] ++
    ((GuardedCall.stop .pTcpSocketConfig).ops ThreadOwner.handle afterTcpSocket ++
      [.destroy ThreadOwner.pTcpSocketConfig.handle]) ++
    [.destroy ThreadOwner.listener.handle]

end Network

/-- What the application calls. -/
inductive NetworkCall where
  | start
  | stop
  | starThread
  | stopThread
  | startNetworkServer
  | stopNetworkServer
  | ipcStarthread (object : ℕ)
  | ipcStopThread (object : ℕ)
deriving DecidableEq, Repr

/-- The calls of the objects that have a thread. -/
def NetworkCall.calls : NetworkCall → List (GuardedCall ThreadOwner)
  | start => Network.start
  | stop => Network.stop
  | starThread => Network.starThread
  | stopThread => Network.stopThread
  | startNetworkServer => Network.startNetworkServer
  | stopNetworkServer => Network.stopNetworkServer
  | ipcStarthread n => [.start (.ipc n)]
  | ipcStopThread n => [.stop (.ipc n)]

/-- What the calls do to the handles. -/
def networkOps (cs : List NetworkCall) : List (ThreadOp ThreadHandle) :=
  guardedOps ThreadOwner.handle ∅ (cs.flatMap NetworkCall.calls)

/-- The objects whose flag is set after the calls. -/
def networkRunning (cs : List NetworkCall) : Finset ThreadOwner :=
  runningAfter ∅ (cs.flatMap NetworkCall.calls)

variable {running : Finset ThreadOwner}

/-- **The destructor** terminates the process exactly when the thread that waits is running. -/
theorem Network.destroy_iff (hinj : Set.InjOn ThreadOwner.handle running) :
    execThreads (running.image ThreadOwner.handle) (destroy running) ≠ none ↔
      .listener ∉ running := by
  have hfree : ∀ (r : Finset ThreadOwner) (i : ThreadOwner), (∀ n, i ≠ .ipc n) →
      i.handle ∉ (r.erase i).image ThreadOwner.handle := by
    intro r i hi hm
    obtain ⟨j, hj, he⟩ := Finset.mem_image.mp hm
    obtain ⟨hne, -⟩ := Finset.mem_erase.mp hj
    cases i <;> cases j <;> first | exact hne rfl | exact hi _ rfl | cases he
  have hsub : Set.InjOn ThreadOwner.handle (running.erase .pTcpSocket : Finset ThreadOwner) :=
    hinj.mono (Finset.coe_subset.mpr (Finset.erase_subset ..))
  have h₁ := execThreads_stop_destroy hinj (hfree running .pTcpSocket nofun)
  have h₂ := execThreads_stop_destroy hsub (hfree (running.erase .pTcpSocket) .pTcpSocketConfig
    nofun)
  rw [destroy, execThreads_append, execThreads_append, h₁, Option.bind_some, h₂, Option.bind_some,
    execThreads_singleton]
  have hmem : ThreadOwner.listener.handle ∈
      ((running.erase .pTcpSocket).erase .pTcpSocketConfig).image ThreadOwner.handle ↔
        .listener ∈ running := by
    constructor
    · intro hm
      obtain ⟨j, hj, he⟩ := Finset.mem_image.mp hm
      cases j <;> cases he
      exact Finset.mem_of_mem_erase (Finset.mem_of_mem_erase hj)
    · intro hm
      exact Finset.mem_image.mpr ⟨_, by simpa using hm, rfl⟩
  simp [ThreadOp.exec, hmem]

/-- **The threads of the process**, in every sequence of calls: no call terminates it exactly when
no two `IPC` objects are ever running at once; and then deleting the `Network` terminates it
exactly when the flag of the thread that waits is set. -/
theorem networkThreads (cs : List NetworkCall) :
    (execThreads ∅ (networkOps cs) ≠ none ↔
      ∀ done, done <+: cs.flatMap NetworkCall.calls → ∀ m n,
        .ipc m ∈ runningAfter ∅ done → .ipc n ∈ runningAfter ∅ done → m = n) ∧
    (execThreads ∅ (networkOps cs) ≠ none →
      (execThreads ∅ (networkOps cs ++ Network.destroy (networkRunning cs)) ≠ none ↔
        .listener ∉ networkRunning cs)) := by
  have hempty : Set.InjOn ThreadOwner.handle (∅ : Finset ThreadOwner) := by simp
  have hiff := guarded_iff hempty (cs.flatMap NetworkCall.calls)
  rw [Finset.image_empty] at hiff
  refine ⟨?_, fun h => ?_⟩
  · rw [networkOps, hiff, neverShared_iff]
    exact forall₂_congr fun done _ => ThreadOwner.injOn_handle _
  · have hshared := hiff.mp h
    have hexec := execThreads_guarded hshared
    have hlast := neverShared_iff.mp hshared _ (List.prefix_refl _)
    rw [Finset.image_empty] at hexec
    rw [execThreads_append, networkOps, hexec, Option.bind_some]
    exact Network.destroy_iff hlast

/-- A `Network` is deleted while its thread waits. -/
example : execThreads ∅ (networkOps [.start, .starThread] ++
    Network.destroy (networkRunning [.start, .starThread])) = none := by decide

end NetworkStructure
