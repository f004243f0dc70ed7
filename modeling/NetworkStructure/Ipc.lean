import NetworkStructure.SocketCalls

/-! # IPC

The server of the unix-domain socket.  `Accept` stores the client in the member `ipcFd`, which
`IpcWrite` writes to; `IPCThread` serves any number of clients and ends the process when an
accept fails. -/

namespace NetworkStructure

structure IPC where
  socketFd : Option Fd := none
  ipcFd : Option Fd := none
deriving DecidableEq, Repr

namespace IPC

variable (s : IPC)

/-- `Accept()`, where `accept(2)` answers `answer`. -/
def accept (answer : Option Fd) : Option Fd × IPC × List Syscall :=
  (answer, { s with ipcFd := answer }, [.accept s.socketFd answer])

def setConnFd (val : Option Fd) : IPC := { s with ipcFd := val }

/-- The body of the loop over the events in `IPCThread`; what is read is thrown away, and an
error of `read(2)` is ignored. -/
def event : EventHandler IPC := fun s fd revents accepted read =>
  if some fd = s.socketFd then
    let r := s.accept accepted
    match r.1 with
    | none => (r.2.1, r.2.2 ++ [.exit 1])
    | some connFd => (r.2.1, r.2.2 ++ [add_event connFd])
  else if Mask.test revents EPOLLIN then
    match read with
    | .count 0 =>
        (s.setConnFd none, [.read fd 512 read, delete_event fd, .shutdown fd, .close fd])
    | .count (_ + 1) | .failed _ => (s, [.read fd 512 read])
  else (s, [])

end IPC
end NetworkStructure
