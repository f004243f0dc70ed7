import NetworkStructure.Buffer
import NetworkStructure.EventLoop

/-! # TcpConnection

A connection owns a channel and an output buffer.  `send` writes to the socket when nothing is
buffered, and buffers what the kernel does not take; the channel is then enabled for writing
and `handleWrite` drains the buffer.  `shutdown` half-closes once everything is written, and
`handleClose` ends the connection.

The member functions act on the connection and on its event loop, `LoopConn`.  Those that call
back into the application are cut there: `establish` and `disconnect` are the parts of
`connectEstablished`, `handleClose` and `connectDestroyed` before `connectionCallback_`; the
server puts the parts together.  The kernel's answers to `write(2)` are an input, `socket`, and
`log` is the history of the connection. -/

namespace NetworkStructure

/-- `TcpConnection*`; connections are numbered in the order of their construction. -/
abbrev ConnId := ℕ

/-- `Channel*`. -/
inductive ChannelRef where
  | wakeup
  | acceptor
  | conn (c : ConnId)
deriving DecidableEq, Repr

/-- The values of `EventLoop::Functor` that reach `pendingFunctors_`; `user` are the functors of
the application. -/
inductive PendingFunctor where
  | connectEstablished (c : ConnId)
  | connectDestroyed (c : ConnId)
  | removeConnectionInLoop (c : ConnId)
  | shutdownInLoop (c : ConnId)
  | forceCloseInLoop (c : ConnId)
  | writeCompleteCallback (c : ConnId)
  | highWaterMarkCallback (c : ConnId) (len : ℕ)
  | user (n : ℕ)
deriving DecidableEq, Repr

/-- `TcpConnection::StateE`. -/
inductive StateE where
  | kDisconnected
  | kConnecting
  | kConnected
  | kDisconnecting
deriving DecidableEq, Repr

inductive Errno where
  | EWOULDBLOCK
  | EPIPE
  | ECONNRESET
  | other (code : ℕ)
deriving DecidableEq, Repr

/-- What `write(2)` answers: a number of bytes taken, or `-1` and `errno`. -/
inductive WriteResult where
  | wrote (n : ℕ)
  | failed (e : Errno)
deriving DecidableEq, Repr

/-- At most the bytes offered are taken. -/
def WriteResult.clamp (len : ℕ) : WriteResult → WriteResult
  | wrote n => wrote (min n len)
  | failed e => failed e

/-- What happens to a connection, as its history records it. -/
inductive ConnEvent where
  | setState (s : StateE)
  | send (data : List UInt8)
  /-- A `write(2)` on the socket, and the bytes the kernel took. -/
  | write (taken : List UInt8)
  /-- `ShutdownWrite()`, and the readable bytes of `outputBuffer_` at that moment. -/
  | shutdownWrite (unsent : List UInt8)
  | connectionCallback (connected : Bool)
  | messageCallback (data : List UInt8)
  | closeCallback
  | connectDestroyed
deriving DecidableEq, Repr

structure TcpConnection where
  name_ : List Char
  state_ : StateE := .kConnecting
  channel_ : Channel
  outputBuffer_ : Buffer := Buffer.new kInitialSize
  /-- Whether the callback is set. -/
  writeCompleteCallback_ : Bool := false
  highWaterMarkCallback_ : Bool := false
  highWaterMark_ : ℕ := 64 * 1024 * 1024
  /-- The kernel's answers to the coming writes; after them it takes no more. -/
  socket : List WriteResult := []
  /-- `~TcpConnection` has run. -/
  destroyed : Bool := false
  log : List ConnEvent := []

/-- The constructor, and `setWriteCompleteCallback`. -/
def TcpConnection.new (name : List Char) (sockfd : Fd) (writeComplete : Bool)
    (socket : List WriteResult) : TcpConnection where
  name_ := name
  channel_ := { fd_ := sockfd }
  writeCompleteCallback_ := writeComplete
  socket := socket

def TcpConnection.connected (t : TcpConnection) : Bool := decide (t.state_ = .kConnected)

/-- The connection `this`, with its loop and the thread that executes. -/
structure LoopConn where
  loop : EventLoop ChannelRef PendingFunctor
  me : ThreadId
  this : ConnId
  conn : TcpConnection

namespace LoopConn

variable (l : LoopConn)

def record (e : ConnEvent) : LoopConn := { l with conn := { l.conn with log := l.conn.log ++ [e] } }

def setState (s : StateE) : LoopConn :=
  { l with conn := { l.conn with state_ := s } }.record (.setState s)

def queueInLoop (f : PendingFunctor) : LoopConn :=
  { l with loop := l.loop.queueInLoop l.me f }

/-- A call on `channel_` that changes its mask. -/
def channelSet (i : Channel.Interest) : LoopConn :=
  let r := Channel.set i (.conn l.this) l.loop.poller_ l.conn.channel_
  { l with loop := { l.loop with poller_ := r.1 }, conn := { l.conn with channel_ := r.2 } }

/-- `channel_->remove()`. -/
def channelRemove : LoopConn :=
  let r := Channel.remove (.conn l.this) l.loop.poller_ l.conn.channel_
  { l with loop := { l.loop with poller_ := r.1 }, conn := { l.conn with channel_ := r.2 } }

/-- The next answer of the kernel to a write of `len` bytes. -/
def writeResult (len : ℕ) : WriteResult :=
  (l.conn.socket.headD (.failed .EWOULDBLOCK)).clamp len

/-- The bytes of `data` that the next write takes. -/
def taken (data : List UInt8) : List UInt8 :=
  match l.writeResult data.length with
  | .wrote n => data.take n
  | .failed _ => []

/-- `sockets::write(channel_->fd(), data, len)`. -/
def write (data : List UInt8) : LoopConn :=
  { l with conn := { l.conn with socket := l.conn.socket.tail } }.record (.write (l.taken data))

/-! ### Sending -/

def setOutputBuffer (b : Buffer) : LoopConn :=
  { l with conn := { l.conn with outputBuffer_ := b } }

/-- The high water mark test of `sendInLoop`, when `remaining` bytes are to be buffered. -/
def queueHighWaterMark (remaining : ℕ) : LoopConn :=
  let oldLen := l.conn.outputBuffer_.readableBytes
  if l.conn.highWaterMark_ ≤ oldLen + remaining ∧ oldLen < l.conn.highWaterMark_ ∧
      l.conn.highWaterMarkCallback_ = true then
    l.queueInLoop (.highWaterMarkCallback l.this (oldLen + remaining))
  else l

def enableWriting : LoopConn :=
  if l.conn.channel_.isWriting then l else l.channelSet .enableWriting

/-- The second half of `sendInLoop`: buffer what remains. -/
def appendRemaining (remaining : List UInt8) : LoopConn :=
  if remaining = [] then l
  else
    ((l.queueHighWaterMark remaining.length).setOutputBuffer
      (l.conn.outputBuffer_.append remaining)).enableWriting

/-- `if (writeCompleteCallback_) queueInLoop(writeCompleteCallback_)`. -/
def queueWriteComplete : LoopConn :=
  if l.conn.writeCompleteCallback_ then l.queueInLoop (.writeCompleteCallback l.this) else l

def sendInLoop (data : List UInt8) : LoopConn :=
  if l.conn.state_ = .kDisconnected then l
  else if l.conn.channel_.isWriting = false ∧ l.conn.outputBuffer_.readableBytes = 0 then
    match l.writeResult data.length with
    | .wrote n =>
        if n = data.length then (l.write data).queueWriteComplete
        else (l.write data).appendRemaining (data.drop n)
    | .failed e =>
        -- `faultError`: the data is given up
        if e = .EPIPE ∨ e = .ECONNRESET then l.write data
        else (l.write data).appendRemaining data
  else l.appendRemaining data

def send (data : List UInt8) : LoopConn := (l.record (.send data)).sendInLoop data

/-! ### Closing -/

def shutdownInLoop : LoopConn :=
  if l.conn.channel_.isWriting then l
  else l.record (.shutdownWrite l.conn.outputBuffer_.readable)

/-- `shutdown()`; `runInLoop` is a direct call on the thread `threadId_`. -/
def shutdown : LoopConn :=
  if l.conn.state_ = .kConnected then
    if l.loop.isInLoopThread l.me then (l.setState .kDisconnecting).shutdownInLoop
    else (l.setState .kDisconnecting).queueInLoop (.shutdownInLoop l.this)
  else l

/-- `state_ == kConnected || state_ == kDisconnecting`. -/
def isOpen : Bool := decide (l.conn.state_ = .kConnected ∨ l.conn.state_ = .kDisconnecting)

def forceClose : LoopConn :=
  if l.isOpen then (l.setState .kDisconnecting).queueInLoop (.forceCloseInLoop l.this) else l

/-- The end of `handleWrite` when the buffer has become empty. -/
def drained : LoopConn :=
  let l := (l.channelSet .disableWriting).queueWriteComplete
  if l.conn.state_ = .kDisconnecting then l.shutdownInLoop else l

/-- `outputBuffer_.retrieve(n)` and what follows it in `handleWrite`. -/
def retrieve (n : ℕ) : LoopConn :=
  let l := l.setOutputBuffer (l.conn.outputBuffer_.retrieve n)
  if l.conn.outputBuffer_.readableBytes = 0 then l.drained else l

def handleWrite : LoopConn :=
  if l.conn.channel_.isWriting then
    let data := l.conn.outputBuffer_.readable
    match l.writeResult data.length with
    | .wrote n => if n = 0 then l.write data else (l.write data).retrieve n
    | .failed _ => l.write data
  else l

/-! ### The life cycle, up to the callbacks -/

/-- `channel_->tie(shared_from_this())`. -/
def tie : LoopConn := { l with conn := { l.conn with channel_ := l.conn.channel_.tie } }

/-- `connectEstablished()` before `connectionCallback_`, the assertion apart. -/
def establish : LoopConn := ((l.setState .kConnected).tie).channelSet .enableReading

/-- `setState(kDisconnected); channel_->disableAll();` of `handleClose` and
`connectDestroyed`. -/
def disconnect : LoopConn := (l.setState .kDisconnected).channelSet .disableAll

/-- `handleClose()` before `connectionCallback_`. -/
def close : LoopConn := if l.isOpen then l.disconnect else l

/-- `connectDestroyed()`, `connectionCallback_` apart. -/
def destroy : LoopConn := (if l.conn.connected then l.disconnect else l).channelRemove

/-- The calls the application makes on a connection it holds. -/
inductive Member where
  | send (data : List UInt8)
  | shutdown
  | forceClose
deriving DecidableEq, Repr

def member : Member → LoopConn
  | .send data => l.send data
  | .shutdown => l.shutdown
  | .forceClose => l.forceClose

/-! ### What each call touches -/

@[simp] theorem record_state_ (e : ConnEvent) : (l.record e).conn.state_ = l.conn.state_ := rfl
@[simp] theorem record_channel_ (e : ConnEvent) :
    (l.record e).conn.channel_ = l.conn.channel_ := rfl
@[simp] theorem record_outputBuffer_ (e : ConnEvent) :
    (l.record e).conn.outputBuffer_ = l.conn.outputBuffer_ := rfl
@[simp] theorem record_socket (e : ConnEvent) : (l.record e).conn.socket = l.conn.socket := rfl
@[simp] theorem record_log (e : ConnEvent) : (l.record e).conn.log = l.conn.log ++ [e] := rfl

@[simp] theorem setState_state_ (s : StateE) : (l.setState s).conn.state_ = s := rfl
@[simp] theorem setState_channel_ (s : StateE) :
    (l.setState s).conn.channel_ = l.conn.channel_ := rfl
@[simp] theorem setState_outputBuffer_ (s : StateE) :
    (l.setState s).conn.outputBuffer_ = l.conn.outputBuffer_ := rfl
@[simp] theorem setState_socket (s : StateE) : (l.setState s).conn.socket = l.conn.socket := rfl
@[simp] theorem setState_log (s : StateE) :
    (l.setState s).conn.log = l.conn.log ++ [.setState s] := rfl

theorem sendInLoop_of_kDisconnected {l : LoopConn} (h : l.conn.state_ = .kDisconnected)
    (data : List UInt8) : l.sendInLoop data = l := if_pos h

@[simp] theorem queueInLoop_conn (f : PendingFunctor) : (l.queueInLoop f).conn = l.conn := rfl

@[simp] theorem queueHighWaterMark_conn (n : ℕ) : (l.queueHighWaterMark n).conn = l.conn := by
  unfold queueHighWaterMark
  dsimp only
  split <;> rfl

@[simp] theorem queueWriteComplete_conn : l.queueWriteComplete.conn = l.conn := by
  unfold queueWriteComplete
  split <;> rfl

@[simp] theorem channelSet_state_ (i : Channel.Interest) :
    (l.channelSet i).conn.state_ = l.conn.state_ := rfl
@[simp] theorem channelSet_outputBuffer_ (i : Channel.Interest) :
    (l.channelSet i).conn.outputBuffer_ = l.conn.outputBuffer_ := rfl
@[simp] theorem channelSet_socket (i : Channel.Interest) :
    (l.channelSet i).conn.socket = l.conn.socket := rfl
@[simp] theorem channelSet_log (i : Channel.Interest) :
    (l.channelSet i).conn.log = l.conn.log := rfl

@[simp] theorem setOutputBuffer_state_ (b : Buffer) :
    (l.setOutputBuffer b).conn.state_ = l.conn.state_ := rfl
@[simp] theorem setOutputBuffer_channel_ (b : Buffer) :
    (l.setOutputBuffer b).conn.channel_ = l.conn.channel_ := rfl
@[simp] theorem setOutputBuffer_outputBuffer_ (b : Buffer) :
    (l.setOutputBuffer b).conn.outputBuffer_ = b := rfl
@[simp] theorem setOutputBuffer_socket (b : Buffer) :
    (l.setOutputBuffer b).conn.socket = l.conn.socket := rfl
@[simp] theorem setOutputBuffer_log (b : Buffer) :
    (l.setOutputBuffer b).conn.log = l.conn.log := rfl

@[simp] theorem write_state_ (data : List UInt8) :
    (l.write data).conn.state_ = l.conn.state_ := rfl
@[simp] theorem write_channel_ (data : List UInt8) :
    (l.write data).conn.channel_ = l.conn.channel_ := rfl
@[simp] theorem write_outputBuffer_ (data : List UInt8) :
    (l.write data).conn.outputBuffer_ = l.conn.outputBuffer_ := rfl
@[simp] theorem write_socket (data : List UInt8) :
    (l.write data).conn.socket = l.conn.socket.tail := rfl
@[simp] theorem write_log (data : List UInt8) :
    (l.write data).conn.log = l.conn.log ++ [.write (l.taken data)] := rfl

end LoopConn
end NetworkStructure
