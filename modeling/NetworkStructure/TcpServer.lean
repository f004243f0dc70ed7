import Mathlib.Data.List.AList
import NetworkStructure.Outcome
import NetworkStructure.Run
import NetworkStructure.TcpConnection

/-! # TcpServer

A `World` is a process with one event loop, one `TcpServer` on it, the connections that the
server has created, and the application that the callbacks belong to.  `ServerStep` is what the
thread of the loop does, one event handler or functor at a time: it polls, handles the active
channels, swaps the pending functors out and runs them.  Between two of its steps other threads
may queue functors of the application.

Connections are shared: `connections_`, the functors and the application own them, and a
connection that nobody owns is destroyed before anything else happens (`destroy`).

The application is a parameter.  In a callback it sees the connections and answers with its
next state and the calls it makes on the connections it knows. -/

namespace NetworkStructure

/-! ### The server object -/

/-- The text of `InetAddress::toIpPort()`, formatted in a buffer of 32 bytes. -/
structure IpPort where
  text : List Char
  fits : text.length < 32

def INT_MAX : ℕ := 0x7fffffff

structure TcpServer where
  hostport_ : IpPort
  name_ : List Char
  nextConnId_ : ℕ := 1
  connections_ : AList (fun _ : List Char => ConnId) := ∅

/-- `snprintf(buf, sizeof buf, "-%s#%d", hostport_.c_str(), id)`, with 64 bytes in `buf`. -/
def TcpServer.suffix (s : TcpServer) (id : ℕ) : List Char :=
  ('-' :: s.hostport_.text ++ '#' :: Nat.toDigits 10 id).take 63

/-- `name_ + buf`. -/
def TcpServer.connName (s : TcpServer) (id : ℕ) : List Char := s.name_ ++ s.suffix id

/-! ### The application -/

/-- A call made from a callback; a connection is given by a pointer, which may be null. -/
inductive ApiCall where
  | member (conn : Option ConnId) (a : LoopConn.Member)
  | queueInLoop (n : ℕ)
deriving DecidableEq, Repr

/-- A callback: from the state of the application and the connections to its next state and
the calls it makes. -/
abbrev Callback (υ : Type) := υ → (ConnId → TcpConnection) → υ × List ApiCall

structure Application (υ : Type) where
  connectionCallback : ConnId → Callback υ
  messageCallback : ConnId → List UInt8 → Callback υ
  writeCompleteCallback : Option (ConnId → Callback υ) := none
  functor : ℕ → Callback υ
  /-- The connections that the application keeps alive. -/
  holds : υ → ConnId → Bool := fun _ _ => false

/-! ### The process -/

inductive Fault where
  | assertion
  | nullPointer
  | useAfterFree
  | signedOverflow
deriving DecidableEq, Repr

/-- Where the loop stands in `loopthread()`. -/
inductive Phase where
  | polling
  | handling (activeChannels_ : List (ChannelRef × Mask))
  /-- In `doPendingFunctors`: the functors that have run, and the rest of the batch. -/
  | functors (ran rest : List PendingFunctor)

structure World (υ : Type) where
  loop : EventLoop ChannelRef PendingFunctor
  /-- The thread that runs `loopthread()`. -/
  me : ThreadId
  wakeupFd : Fd
  acceptFd : Fd
  server : TcpServer
  created : ℕ := 0
  conns : ConnId → TcpConnection := fun _ => .new [] 0 false []
  user : υ
  phase : Phase := .polling

namespace PendingFunctor

/-- The functor holds a `shared_ptr` to the connection; `shutdownInLoop` is bound to `this`. -/
def owns : PendingFunctor → ConnId → Bool
  | shutdownInLoop _, _ => false
  | connectEstablished d, c | connectDestroyed d, c | removeConnectionInLoop d, c
  | forceCloseInLoop d, c | writeCompleteCallback d, c | highWaterMarkCallback d _, c =>
      decide (d = c)
  | user _, _ => false

end PendingFunctor

namespace World

variable {υ : Type} (app : Application υ) (w : World υ)

/-- The functors of the batch that are still in its vector. -/
def batch : List PendingFunctor :=
  match w.phase with
  | .functors ran rest => ran ++ rest
  | _ => []

/-- A connection object exists. -/
def Live (c : ConnId) : Prop := c < w.created ∧ (w.conns c).destroyed = false

/-- Somebody holds a `shared_ptr` to the connection. -/
def Owned (c : ConnId) : Prop :=
  (∃ name, w.server.connections_.lookup name = some c) ∨
    (∃ f ∈ w.batch ++ w.loop.pendingFunctors_, f.owns c = true) ∨ app.holds w.user c = true

/-- A descriptor of this process. -/
def IsOpen (fd : Fd) : Prop :=
  fd = w.wakeupFd ∨ fd = w.acceptFd ∨ ∃ c, w.Live c ∧ (w.conns c).channel_.fd_ = fd

/-! ### Acting on one connection -/

/-- The connection `c` with the loop. -/
def atConn (c : ConnId) : LoopConn := ⟨w.loop, w.me, c, w.conns c⟩

def setConn (c : ConnId) (l : LoopConn) : World υ :=
  { w with loop := l.loop, conns := Function.update w.conns c l.conn }

def onConn (c : ConnId) (f : LoopConn → LoopConn) : World υ := w.setConn c (f (w.atConn c))

def queueInLoop (f : PendingFunctor) : World υ :=
  { w with loop := w.loop.queueInLoop w.me f }

/-! ### Callbacks -/

/-- The application can know a connection only from its first `connectionCallback_` on, and a
pointer it holds keeps the connection alive. -/
def knows (c : ConnId) : Bool :=
  decide (c < w.created) && !(w.conns c).destroyed && decide ((w.conns c).state_ ≠ .kConnecting)

def call (w : World υ) : ApiCall → Except Fault (World υ)
  | .member none _ => .error .nullPointer
  | .member (some c) a => .ok (if w.knows c then w.onConn c (·.member a) else w)
  | .queueInLoop n => .ok (w.queueInLoop (.user n))

def callback (cb : Callback υ) : Except Fault (World υ) :=
  (cb w.user w.conns).2.foldlM call { w with user := (cb w.user w.conns).1 }

/-- `connectionCallback_(shared_from_this())`. -/
def connectionCallback (c : ConnId) : Except Fault (World υ) :=
  (w.onConn c fun l => l.record (.connectionCallback l.conn.connected)).callback
    (app.connectionCallback c)

/-! ### TcpServer -/

def removeConnectionInLoop (c : ConnId) : World υ :=
  { w with server := { w.server with
      connections_ := w.server.connections_.erase (w.conns c).name_ } }.queueInLoop
    (.connectDestroyed c)

/-- `removeConnection`, the `closeCallback_` of every connection of the server. -/
def removeConnection (c : ConnId) : World υ :=
  if w.loop.isInLoopThread w.me then w.removeConnectionInLoop c
  else w.queueInLoop (.removeConnectionInLoop c)

def connectEstablished (c : ConnId) : Except Fault (World υ) :=
  if (w.conns c).state_ = .kConnecting then
    (w.onConn c (·.establish)).connectionCallback app c
  else .error .assertion

/-- The object that `newConnection` constructs, and its entry in `connections_`. -/
def insertConnection (sockfd : Fd) (socket : List WriteResult) : World υ :=
  { w with
    server := { w.server with
      nextConnId_ := w.server.nextConnId_ + 1
      connections_ := w.server.connections_.insert (w.server.connName w.server.nextConnId_)
        w.created }
    created := w.created + 1
    conns := Function.update w.conns w.created
      (.new (w.server.connName w.server.nextConnId_) sockfd app.writeCompleteCallback.isSome
        socket) }

def newConnection (sockfd : Fd) (socket : List WriteResult) : Except Fault (World υ) :=
  if w.server.nextConnId_ = INT_MAX then .error .signedOverflow
  else if w.loop.isInLoopThread w.me then
    (w.insertConnection app sockfd socket).connectEstablished app w.created
  else
    .ok ((w.insertConnection app sockfd socket).queueInLoop (.connectEstablished w.created))

/-! ### The handlers of a connection -/

def connectDestroyed (c : ConnId) : Except Fault (World υ) :=
  (if (w.conns c).state_ = .kConnected then
    (w.onConn c (·.disconnect)).connectionCallback app c
  else .ok w) >>= fun w => .ok (w.onConn c fun l => l.channelRemove.record .connectDestroyed)

def handleClose (c : ConnId) : Except Fault (World υ) :=
  if (w.atConn c).isOpen then
    (w.onConn c (·.disconnect)).connectionCallback app c >>= fun w =>
      .ok ((w.onConn c (·.record .closeCallback)).removeConnection c)
  else .ok w

/-- `handleRead()`, where `read(2)` answers `-1`, end of file, or at most 1024 bytes. -/
def handleRead (c : ConnId) (read : Option (List UInt8)) : Except Fault (World υ) :=
  match read with
  | none => .ok w
  | some [] => w.handleClose app c
  | some (b :: data) =>
      (w.onConn c (·.record (.messageCallback ((b :: data).take 1024)))).callback
        (app.messageCallback c ((b :: data).take 1024))

/-- `revents_ & (EPOLLIN | EPOLLPRI | EPOLLRDHUP)`. -/
def readable (revents : Mask) : Bool := Mask.test revents (EPOLLIN ||| EPOLLPRI ||| EPOLLRDHUP)

/-- `revents_ & EPOLLHUP` and not `revents_ & EPOLLIN`. -/
def hangup (revents : Mask) : Bool := Mask.test revents EPOLLHUP && !Mask.test revents EPOLLIN

/-- `Channel::handleEventWithGuard` on the channel of a connection; `handleError` does
nothing. -/
def handleEventWithGuard (c : ConnId) (revents : Mask) (read : Option (List UInt8)) :
    Except Fault (World υ) :=
  (if hangup revents then w.handleClose app c else .ok w) >>= fun w =>
    (if readable revents then w.handleRead app c read else .ok w) >>= fun w =>
      .ok (if Mask.test revents EPOLLOUT then w.onConn c (·.handleWrite) else w)

/-- `Channel::handleEvent` on the channel of a connection. -/
def handleConn (c : ConnId) (revents : Mask) (read : Option (List UInt8)) :
    Except Fault (World υ) :=
  if (w.conns c).destroyed then
    if (w.conns c).channel_.tied_ then .ok w else .error .useAfterFree
  else w.handleEventWithGuard app c revents read

/-- `handleEvent` on an active channel, with the answers of `accept(2)` and `read(2)`. -/
def handleEvent (channel : ChannelRef) (revents : Mask)
    (accepted : Option (Fd × List WriteResult)) (read : Option (List UInt8)) :
    Except Fault (World υ) :=
  match channel with
  | .wakeup => .ok (if readable revents then { w with loop := w.loop.handleRead } else w)
  | .acceptor =>
      match accepted with
      | some (sockfd, socket) =>
          if readable revents then w.newConnection app sockfd socket else .ok w
      | none => .ok w
  | .conn c => w.handleConn app c revents read

/-! ### Functors -/

def runFunctor (f : PendingFunctor) : Except Fault (World υ) :=
  match f with
  | .connectEstablished c => w.connectEstablished app c
  | .connectDestroyed c => w.connectDestroyed app c
  | .removeConnectionInLoop c => .ok (w.removeConnectionInLoop c)
  | .shutdownInLoop c =>
      if (w.conns c).destroyed then .error .useAfterFree
      else .ok (w.onConn c (·.shutdownInLoop))
  | .forceCloseInLoop c => w.handleClose app c
  | .writeCompleteCallback c =>
      match app.writeCompleteCallback with
      | some cb => w.callback (cb c)
      | none => .ok w
  -- `highWaterMarkCallback_` has no setter: it is never queued
  | .highWaterMarkCallback _ _ => .ok w
  | .user n => w.callback (app.functor n)

/-- `~TcpConnection`: closing the descriptor removes it from the interest set. -/
def destroy (c : ConnId) : World υ :=
  { w with
    conns := Function.update w.conns c { w.conns c with destroyed := true }
    loop := { w.loop with poller_ := { w.loop.poller_ with
      kernel := Function.update w.loop.poller_.kernel (w.conns c).channel_.fd_ none } } }

/-- `fillActiveChannels`. -/
def activeChannels (report : List (Fd × Mask)) : List (ChannelRef × Mask) :=
  report.filterMap fun r => (w.loop.poller_.kernel r.1).map fun e => (e.ptr, r.2)

end World

/-! ### Steps -/

inductive ServerAction where
  | poll (report : List (Fd × Mask))
  | handleEvent (accepted : Option (Fd × List WriteResult)) (read : Option (List UInt8))
  | doPendingFunctors
  | runFunctor
  | endFunctors
  | queueInLoop (thread : ThreadId) (n : ℕ)
  | destroy (c : ConnId)

namespace World

variable {υ : Type} (app : Application υ)

/-- One step of the process, and its outcome. -/
inductive Step (w : World υ) : ServerAction → Except Fault (World υ) → Prop
  | poll {report : List (Fd × Mask)} (hp : w.phase = .polling)
      (hr : ValidReport w.loop.poller_.kernel report) :
      Step w (.poll report) (.ok { w with phase := .handling (w.activeChannels report) })
  /-- `accept(2)` answers with a descriptor that is not open. -/
  | handleEvent {channel : ChannelRef} {revents : Mask} {rest : List (ChannelRef × Mask)}
      {accepted : Option (Fd × List WriteResult)} {read : Option (List UInt8)}
      (hp : w.phase = .handling ((channel, revents) :: rest))
      (ha : ∀ a, accepted = some a → ¬ w.IsOpen a.1) :
      Step w (.handleEvent accepted read)
        ({ w with phase := .handling rest }.handleEvent app channel revents accepted read)
  | doPendingFunctors (hp : w.phase = .handling []) :
      Step w .doPendingFunctors (.ok { w with
        phase := .functors [] w.loop.pendingFunctors_
        loop := { w.loop with callingPendingFunctors_ := true, pendingFunctors_ := [] } })
  | runFunctor {ran rest : List PendingFunctor} {f : PendingFunctor}
      (hp : w.phase = .functors ran (f :: rest)) :
      Step w .runFunctor ({ w with phase := .functors (ran ++ [f]) rest }.runFunctor app f)
  | endFunctors {ran : List PendingFunctor} (hp : w.phase = .functors ran []) :
      Step w .endFunctors (.ok { w with
        phase := .polling, loop := { w.loop with callingPendingFunctors_ := false } })
  | queueInLoop (thread : ThreadId) (n : ℕ) :
      Step w (.queueInLoop thread n)
        (.ok { w with loop := w.loop.queueInLoop thread (.user n) })
  | destroy {c : ConnId} (hl : w.Live c) (ho : ¬ w.Owned app c) :
      Step w (.destroy c) (.ok (w.destroy c))

/-- Nothing is waiting to be destroyed. -/
def Settled (w : World υ) : Prop := ∀ c, w.Live c → w.Owned app c

/-- The process when the server is listening and the loop is about to poll for the first
time. -/
def init (threadId_ me : ThreadId) (wakeupFd acceptFd : Fd) (hostport : IpPort)
    (name : List Char) (user : υ) : World υ :=
  let p := (Channel.enableReading .wakeup {} { fd_ := wakeupFd }).1
  { loop := { threadId_ := threadId_
              poller_ := (Channel.enableReading .acceptor p { fd_ := acceptFd }).1 }
    me := me
    wakeupFd := wakeupFd
    acceptFd := acceptFd
    server := { hostport_ := hostport, name_ := name }
    user := user }

end World

/-- A step of a process that has not ended in a fault; a connection that nobody owns is
destroyed before anything else happens. -/
def ServerStep {υ : Type} (app : Application υ) (s : Except Fault (World υ)) (a : ServerAction)
    (t : Except Fault (World υ)) : Prop :=
  ∃ w, s = .ok w ∧ World.Step app w a t ∧ ((∃ c, a = .destroy c) ∨ w.Settled app)

/-- `Run.iff_runWith` for the process: under an invariant `I`, a property `P` that a step can only
lose, and loses exactly when it misses `Q`. -/
theorem serverRun_iff {υ : Type} {app : Application υ} {I P : World υ → Prop}
    {Q : World υ → ServerAction → Prop}
    (hI : ∀ w a t, I w → World.Step app w a t → Ensures I (fun _ => True) t)
    (hstep : ∀ w a w', I w → World.Step app w a (.ok w') → (P w' ↔ P w ∧ Q w a))
    {s : Except Fault (World υ)} {ls : List ServerAction} {w : World υ}
    (run : Run (ServerStep app) s ls (.ok w)) (h0 : Ensures I (fun _ => True) s)
    (hp : Ensures P (fun _ => True) s) :
    P w ↔ RunWith (ServerStep app) (fun s a _ => ∀ w, s = .ok w → Q w a) s ls (.ok w) := by
  refine (run.iff_runWith (I := Ensures I fun _ => True) (C := fun s => ∃ w, s = .ok w)
    (P := Ensures P fun _ => True) ?_ ?_ ?_ h0 ⟨w, rfl⟩).trans (and_iff_right hp)
  · rintro s a t h ⟨w, rfl, hs, -⟩
    exact hI w a t h hs
  · rintro s a t ⟨w, hw, -⟩
    exact ⟨w, hw⟩
  · rintro s a t h ⟨w', rfl⟩ ⟨w, rfl, hs, -⟩
    refine Iff.trans (hstep w a w' h hs) (and_congr_right' ⟨fun hq w₁ he => ?_, fun hq => ?_⟩)
    · cases he
      exact hq
    · exact hq w rfl

end NetworkStructure
