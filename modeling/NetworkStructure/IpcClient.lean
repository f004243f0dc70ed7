import NetworkStructure.Run
import NetworkStructure.SocketCalls

/-! # IpcClient

The client of the unix-domain socket.  `TryConnect` opens a socket and connects it,
`TryDisconnect` closes it; `socketFd` is the one descriptor that the client has, and a positive
`socketFd` is all that `SocketWrite` asks for.

`TryConnect` does not ask whether there is a socket already, so that a second call drops the
descriptor of the first; and when the path is not there or the connection is refused it answers
-1 and keeps the socket, which is open and connected to nobody.  The two are the only ways in
which the client loses count (`clientOwnsOne_iff`). -/

namespace NetworkStructure

/-- A system call of the client, with its answer where the client reads it. -/
inductive ClientCall where
  | socket (answer : Option Fd)
  | access (path : String) (found : Bool)
  | connect (fd : Option Fd) (address : Option String) (connected : Bool)
  | shutdown (fd : Fd)
  | close (fd : Fd)
  | write (fd : Fd) (buf : List UInt8)
deriving DecidableEq, Repr

/-- `clientSockAddr` is the path in the address, once `Open` has stored it. -/
structure IpcClient where
  pPath : String
  socketFd : Option Fd := none
  clientSockAddr : Option String := none
deriving DecidableEq, Repr

namespace IpcClient

variable (s : IpcClient)

/-- `Open()`, where `socket(2)` answers `answer`. -/
def open_ (answer : Option Fd) : ℤ × IpcClient × List ClientCall :=
  match answer with
  | none => (-1, { s with socketFd := none }, [.socket none])
  | some fd =>
      (0, { s with socketFd := some fd, clientSockAddr := some s.pPath }, [.socket (some fd)])

/-- `Close()`; descriptor 0 is taken for none. -/
def close : IpcClient × List ClientCall :=
  match s.socketFd with
  | none => (s, [])
  | some fd =>
      if 0 < fd then ({ s with socketFd := none }, [.shutdown fd, .close fd]) else (s, [])

/-- `SocketWrite(buf, len)`. -/
def socketWrite (buf : List UInt8) : List ClientCall :=
  match s.socketFd with
  | none => []
  | some fd => if 0 < fd then [.write fd buf] else []

/-- `TryConnect()`, which throws away what `Open` answers; `found` is what `access(2)` says of
the path and `connected` whether `connect(2)` succeeds. -/
def tryConnect (answer : Option Fd) (found connected : Bool) : ℤ × IpcClient × List ClientCall :=
  let (_, s, calls) := s.open_ answer
  if found = false then (-1, s, calls ++ [.access s.pPath found])
  else
    (if connected = false then -1 else 0, s,
      calls ++ [.access s.pPath found, .connect s.socketFd s.clientSockAddr connected])

/-- `TryDisconnect()`. -/
def tryDisconnect : ℤ × IpcClient × List ClientCall := (0, s.close)

end IpcClient

/-! ### The kernel's side -/

/-- The sockets that the client has opened and not closed, and those of them that have a peer. -/
structure ClientSockets where
  opened : Finset Fd := ∅
  connected : Finset Fd := ∅

def ClientSockets.call (k : ClientSockets) : ClientCall → ClientSockets
  | .socket (some fd) => { k with opened := insert fd k.opened }
  | .connect (some fd) _ true => { k with connected := insert fd k.connected }
  | .close fd => { opened := k.opened.erase fd, connected := k.connected.erase fd }
  | .socket none | .access _ _ | .connect _ _ _ | .shutdown _ | .write _ _ => k

def ClientSockets.run (k : ClientSockets) (calls : List ClientCall) : ClientSockets :=
  calls.foldl call k

structure ClientRun where
  client : IpcClient
  kernel : ClientSockets := {}

inductive ClientAction where
  | tryConnect (answer : Option Fd) (found connected : Bool)
  | tryDisconnect
deriving DecidableEq, Repr

namespace ClientRun

variable (s : ClientRun)

/-- The member that is called: its result, the client afterwards and its system calls. -/
def member : ClientAction → ℤ × IpcClient × List ClientCall
  | .tryConnect answer found connected => s.client.tryConnect answer found connected
  | .tryDisconnect => s.client.tryDisconnect

/-- What `socket(2)` answers in the call. -/
def answer : ClientAction → Option Fd
  | .tryConnect answer _ _ => answer
  | .tryDisconnect => none

/-- A call; `socket(2)` answers with a positive descriptor that is not open. -/
def act (a : ClientAction) : Option ClientRun :=
  if ∀ fd ∈ answer a, 0 < fd ∧ fd ∉ s.kernel.opened then
    some ⟨(s.member a).2.1, s.kernel.run (s.member a).2.2⟩
  else none

/-- The sockets that are open are `socketFd`, where it is positive. -/
def OwnsOne : Prop :=
  ∀ fd, fd ∈ s.kernel.opened ↔ s.client.socketFd = some fd ∧ 0 < fd

/-- What is written goes to a socket that has a peer. -/
def WritesToPeer : Prop :=
  ∀ buf fd, .write fd buf ∈ s.client.socketWrite buf → fd ∈ s.kernel.connected

/-- After the call the client owns what it should, and a connection that has failed leaves it
disconnected. -/
structure Owned (s : ClientRun) (a : ClientAction) (t : ClientRun) : Prop where
  ownsOne : t.OwnsOne
  disconnected : (s.member a).1 = -1 → t.client.socketFd = none
  writes : t.WritesToPeer

/-- `TryConnect` is called on a client that has no socket, and a socket that it gets is
connected. -/
def CleanCall : ClientAction → Prop
  | .tryConnect answer found connected =>
      s.client.socketFd = none ∧ (answer = none ∨ found = true ∧ connected = true)
  | .tryDisconnect => True

end ClientRun

def ClientStep (s : ClientRun) (a : ClientAction) (t : ClientRun) : Prop := s.act a = some t

/-! ### What a call does -/

namespace ClientRun

variable {s t : ClientRun} {a : ClientAction} {fd : Fd} {found connected : Bool}

/-- What holds between two calls. -/
structure Sound (s : ClientRun) : Prop where
  ownsOne : s.OwnsOne
  writes : s.WritesToPeer
  positive : ∀ fd, s.client.socketFd = some fd → 0 < fd

theorem Sound.of_owned (h : s.Owned a t) (hp : ∀ fd, t.client.socketFd = some fd → 0 < fd) :
    t.Sound :=
  ⟨h.ownsOne, h.writes, hp⟩

theorem act_eq (hs : ClientStep s a t) : (∀ fd ∈ answer a, 0 < fd ∧ fd ∉ s.kernel.opened) ∧
    t = ⟨(s.member a).2.1, s.kernel.run (s.member a).2.2⟩ := by
  unfold ClientStep act at hs
  split at hs
  · next h => exact ⟨h, (Option.some.inj hs).symm⟩
  · cases hs

/-- A socket is had: the one before it is forgotten. -/
theorem act_tryConnect_some (hs : ClientStep s (.tryConnect (some fd) found connected) t) :
    (0 < fd ∧ fd ∉ s.kernel.opened) ∧ t.client.socketFd = some fd ∧
      t.kernel.opened = insert fd s.kernel.opened ∧
      (found = true ∧ connected = true → fd ∈ t.kernel.connected) ∧
      ((s.member (.tryConnect (some fd) found connected)).1 = -1 ↔
        ¬ (found = true ∧ connected = true)) := by
  obtain ⟨hnew, rfl⟩ := act_eq hs
  refine ⟨hnew fd rfl, ?_⟩
  cases found with
  | false =>
      refine ⟨rfl, rfl, fun h => ?_, iff_of_true rfl fun h => ?_⟩
      · cases h.1
      · cases h.1
  | true =>
      cases connected with
      | false =>
          refine ⟨rfl, rfl, fun h => ?_, iff_of_true rfl fun h => ?_⟩
          · cases h.2
          · cases h.2
      | true =>
          refine ⟨rfl, rfl, fun _ => Finset.mem_insert_self fd _, iff_of_false ?_ ?_⟩
          · show ¬ ((0 : ℤ) = -1)
            omega
          · exact fun h => h ⟨rfl, rfl⟩

/-- None is had: the one before is forgotten as well. -/
theorem act_tryConnect_none (hs : ClientStep s (.tryConnect none found connected) t) :
    t.client.socketFd = none ∧ t.kernel.opened = s.kernel.opened := by
  obtain ⟨-, rfl⟩ := act_eq hs
  cases found with
  | false => exact ⟨rfl, rfl⟩
  | true => cases connected <;> exact ⟨rfl, rfl⟩

/-- The socket is closed. -/
theorem act_tryDisconnect (hp : ∀ fd, s.client.socketFd = some fd → 0 < fd)
    (hs : ClientStep s .tryDisconnect t) : t.client.socketFd = none ∧
      ∀ x, x ∈ t.kernel.opened ↔ x ∈ s.kernel.opened ∧ s.client.socketFd ≠ some x := by
  obtain ⟨-, rfl⟩ := act_eq hs
  cases hfd : s.client.socketFd with
  | none =>
      have hclose : s.client.close = (s.client, []) := by rw [IpcClient.close, hfd]
      simp only [member, IpcClient.tryDisconnect, hclose]
      refine ⟨hfd, fun x => ?_⟩
      simp [ClientSockets.run]
  | some fd =>
      have hclose : s.client.close =
          ({ s.client with socketFd := none }, [.shutdown fd, .close fd]) := by
        rw [IpcClient.close, hfd]
        exact if_pos (hp fd hfd)
      simp only [member, IpcClient.tryDisconnect, hclose]
      refine ⟨trivial, fun x => ?_⟩
      simp only [ClientSockets.run, List.foldl_cons, List.foldl_nil, ClientSockets.call,
        Finset.mem_erase, ne_eq, Option.some.injEq]
      exact ⟨fun h => ⟨h.2, fun he => h.1 he.symm⟩, fun h => ⟨fun he => h.2 he.symm, h.1⟩⟩

theorem writesToPeer_of_none (h : s.client.socketFd = none) : s.WritesToPeer := by
  intro buf fd hm
  simp [IpcClient.socketWrite, h] at hm

theorem writesToPeer_of_some (h : s.client.socketFd = some fd) (hc : fd ∈ s.kernel.connected) :
    s.WritesToPeer := by
  intro buf x hm
  simp only [IpcClient.socketWrite, h] at hm
  split at hm
  · obtain ⟨rfl, -⟩ := ClientCall.write.inj (List.mem_singleton.mp hm)
    exact hc
  · exact absurd hm List.not_mem_nil

/-- With no socket nothing may be open. -/
theorem ownsOne_of_none (h : s.client.socketFd = none) :
    s.OwnsOne ↔ ∀ x, x ∉ s.kernel.opened := by
  unfold OwnsOne
  simp [h]

/-- Before a call that is to be sound the client has no socket, or a socket is open. -/
theorem Sound.socketFd_eq_none (h : s.Sound) :
    s.client.socketFd = none ↔ ∀ x, x ∉ s.kernel.opened := by
  constructor
  · exact fun hn => (ownsOne_of_none hn).mp h.ownsOne
  · intro ho
    cases hfd : s.client.socketFd with
    | none => rfl
    | some fd => exact absurd ((h.ownsOne fd).mpr ⟨hfd, h.positive fd hfd⟩) (ho fd)

/-- One call goes right exactly when it is clean. -/
theorem owned_iff (h : s.Sound) (hs : ClientStep s a t) : s.Owned a t ↔ s.CleanCall a := by
  cases a with
  | tryDisconnect =>
      obtain ⟨hfd, ho⟩ := act_tryDisconnect h.positive hs
      refine iff_of_true ⟨(ownsOne_of_none hfd).mpr ?_, fun _ => hfd, writesToPeer_of_none hfd⟩
        trivial
      intro x hx
      obtain ⟨hx, hne⟩ := (ho x).mp hx
      exact hne ((h.ownsOne x).mp hx).1
  | tryConnect answer found connected =>
      cases answer with
      | none =>
          obtain ⟨hfd, ho⟩ := act_tryConnect_none hs
          simp only [CleanCall, true_or, and_true]
          rw [h.socketFd_eq_none, ← ho]
          constructor
          · exact fun hw => (ownsOne_of_none hfd).mp hw.ownsOne
          · exact fun hx => ⟨(ownsOne_of_none hfd).mpr hx, fun _ => hfd, writesToPeer_of_none hfd⟩
      | some fd =>
          obtain ⟨⟨h0, hnew⟩, hfd, ho, hc, hret⟩ := act_tryConnect_some hs
          simp only [CleanCall]
          rw [h.socketFd_eq_none]
          constructor
          · rintro ⟨hone, hdis, -⟩
            refine ⟨fun x hx => hnew ?_, .inr ?_⟩
            · have hx' := (hone x).mp (ho ▸ Finset.mem_insert_of_mem hx)
              obtain rfl := Option.some.inj (hfd.symm.trans hx'.1)
              exact hx
            · by_contra hn
              cases hfd.symm.trans (hdis (hret.mpr hn))
          · rintro ⟨hnone, hok⟩
            replace hok := hok.resolve_left (Option.some_ne_none fd)
            refine ⟨fun x => ?_, fun hm => absurd hok (hret.mp hm),
              writesToPeer_of_some hfd (hc hok)⟩
            rw [ho, Finset.mem_insert, or_iff_left (hnone x), hfd, Option.some.injEq]
            exact ⟨fun h => ⟨h.symm, h ▸ h0⟩, fun h => h.1.symm⟩

theorem positive_step (h : s.Sound) (hs : ClientStep s a t) (fd : Fd)
    (hfd : t.client.socketFd = some fd) : 0 < fd := by
  cases a with
  | tryDisconnect =>
      rw [(act_tryDisconnect h.positive hs).1] at hfd
      cases hfd
  | tryConnect answer found connected =>
      cases answer with
      | none =>
          rw [(act_tryConnect_none hs).1] at hfd
          cases hfd
      | some c =>
          obtain ⟨⟨h0, -⟩, hc, -⟩ := act_tryConnect_some hs
          cases hc.symm.trans hfd
          exact h0

end ClientRun

/-! ### Every sequence of calls -/

open ClientRun

/-- **The client owns at most the descriptor in `socketFd`, is disconnected after a connection
that failed, and writes to no socket without a peer, after every call, exactly when each
`TryConnect` finds the client without a socket and connects the socket that it gets.** -/
theorem clientOwnsOne_iff (pPath : String) {t : ClientRun} {ls : List ClientAction} :
    RunWith ClientStep Owned { client := { pPath } } ls t ↔
      RunWith ClientStep (fun s a _ => s.CleanCall a) { client := { pPath } } ls t := by
  have h0 : Sound { client := { pPath } } :=
    ⟨(ownsOne_of_none rfl).mpr Finset.notMem_empty, writesToPeer_of_none rfl,
      fun fd h => by cases h⟩
  apply runWith_iff (I := Sound) ?_ (fun s a t h hs => owned_iff h hs) h0
  intro s a t h hs hc
  exact .of_owned ((owned_iff h hs).mpr hc) (positive_step h hs)

/-- The path is not there: the client answers -1 and keeps the socket.  A second call, which
connects, forgets it. -/
theorem not_clientOwnsOne :
    (∃ t, Run ClientStep { client := { pPath := "/tmp/ipc" } }
        [.tryConnect (some 4) false false] t ∧
        t.client.socketFd = some 4 ∧ 4 ∉ t.kernel.connected ∧
        t.client.socketWrite [7] = [.write 4 [7]]) ∧
      ∃ t, Run ClientStep { client := { pPath := "/tmp/ipc" } }
          [.tryConnect (some 4) true true, .tryConnect (some 5) true true] t ∧
        t.kernel.opened = {4, 5} ∧ t.client.socketFd = some 5 :=
  ⟨exists_run act (fun t => t.client.socketFd = some 4 ∧ 4 ∉ t.kernel.connected ∧
      t.client.socketWrite [7] = [.write 4 [7]]) _ _ (by decide +kernel),
    exists_run act (fun t => t.kernel.opened = {4, 5} ∧ t.client.socketFd = some 5) _ _
      (by decide +kernel)⟩

end NetworkStructure
