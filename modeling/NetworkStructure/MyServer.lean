import NetworkStructure.LifeCycle

/-! # MyServer

`MyServer` is the application of the repository: it counts the connections that are up, refuses
a connection beyond `kMaxConnections_`, and answers every message by greeting the host, the
connection it admitted first.

`Became w w' c s fs u` is what a handler can do to the process as far as this application is
concerned: the state of one connection becomes `s`, the functors `fs` are queued, and the
application goes to `u`.  The lemmas say which of these changes each handler makes. -/

namespace NetworkStructure

/-- The state of a `MyServer`; `flag` is the static variable of `onConnection`.  The history
records the connections admitted and, for each refusal, the admitted ones that were connected
then. -/
structure MyServer where
  numConnected_ : Int := 0
  kMaxConnections_ : Int
  /-- A `weak_ptr`. -/
  hostPtr_ : Option ConnId := none
  flag : Bool := true
  admitted : List ConnId := []
  refusals : List (ConnId × List ConnId) := []

namespace MyServer

/-- `hostPtr_.lock()`. -/
def lock (s : MyServer) (conns : ConnId → TcpConnection) : Option ConnId :=
  s.hostPtr_.filter fun c => !(conns c).destroyed

def hello : List UInt8 := "hello world!".toList.map fun ch => UInt8.ofNat ch.toNat

/-- The state after a connection came up. -/
def up (s : MyServer) (c : ConnId) (connected : List ConnId) : MyServer :=
  if s.numConnected_ + 1 > s.kMaxConnections_ then
    { s with
      numConnected_ := s.numConnected_ + 1
      refusals := s.refusals ++ [(c, connected)] }
  else if s.flag then
    { s with
      numConnected_ := s.numConnected_ + 1
      admitted := s.admitted ++ [c]
      flag := false
      hostPtr_ := some c }
  else
    { s with
      numConnected_ := s.numConnected_ + 1
      admitted := s.admitted ++ [c] }

/-- The state after a connection went down. -/
def down (s : MyServer) : MyServer := { s with numConnected_ := s.numConnected_ - 1 }

section Fields

variable (s : MyServer) (c : ConnId) (connected : List ConnId)

@[simp] theorem up_numConnected_ : (s.up c connected).numConnected_ = s.numConnected_ + 1 := by
  unfold up
  split
  · rfl
  · split <;> rfl

@[simp] theorem up_kMaxConnections_ : (s.up c connected).kMaxConnections_ = s.kMaxConnections_ := by
  unfold up
  split
  · rfl
  · split <;> rfl

theorem up_admitted : (s.up c connected).admitted =
    if s.numConnected_ + 1 > s.kMaxConnections_ then s.admitted else s.admitted ++ [c] := by
  unfold up
  split
  · rfl
  · split <;> rfl

theorem up_refusals : (s.up c connected).refusals =
    if s.numConnected_ + 1 > s.kMaxConnections_ then s.refusals ++ [(c, connected)]
    else s.refusals := by
  unfold up
  split
  · rfl
  · split <;> rfl

theorem up_flag : (s.up c connected).flag =
    if s.numConnected_ + 1 > s.kMaxConnections_ then s.flag else false := by
  unfold up
  split
  · rfl
  · cases s.flag <;> rfl

theorem up_hostPtr_ : (s.up c connected).hostPtr_ =
    if s.numConnected_ + 1 > s.kMaxConnections_ then s.hostPtr_
    else if s.flag then some c else s.hostPtr_ := by
  unfold up
  split
  · rfl
  · split <;> rfl

end Fields

def onConnection (c : ConnId) : Callback MyServer := fun s conns =>
  if (conns c).connected then
    (s.up c (s.admitted.filter fun d => (conns d).connected),
      if s.numConnected_ + 1 > s.kMaxConnections_ then
        [.member (some c) .shutdown, .member (some c) .forceClose]
      else [])
  else (s.down, [])

def onMessage : Callback MyServer := fun s conns =>
  (s, [.member (s.lock conns) (.send hello)])

/-- The callbacks that the constructor sets; functors queued by other threads do not concern
the server. -/
def application : Application MyServer where
  connectionCallback := onConnection
  messageCallback _ _ := onMessage
  functor _ s _ := (s, [])

end MyServer

/-! ### Calls on one connection -/

namespace LoopConn

variable {l m n : LoopConn} {s : StateE} {fs gs : List PendingFunctor}

/-- What a call does apart from writing and buffering. -/
structure Effect (l m : LoopConn) (s : StateE) (fs : List PendingFunctor) : Prop where
  state_ : m.conn.state_ = s
  pending : m.loop.pendingFunctors_ = l.loop.pendingFunctors_ ++ fs
  writeComplete : m.conn.writeCompleteCallback_ = l.conn.writeCompleteCallback_
  highWaterMark : m.conn.highWaterMarkCallback_ = l.conn.highWaterMarkCallback_
  destroyed : m.conn.destroyed = l.conn.destroyed
  me : m.me = l.me
  this : m.this = l.this
  threadId_ : m.loop.threadId_ = l.loop.threadId_

theorem Effect.trans (h₁ : Effect l m s fs) {s' : StateE} (h₂ : Effect m n s' gs) :
    Effect l n s' (fs ++ gs) :=
  ⟨h₂.state_, by rw [h₂.pending, h₁.pending, List.append_assoc],
    h₂.writeComplete.trans h₁.writeComplete, h₂.highWaterMark.trans h₁.highWaterMark,
    h₂.destroyed.trans h₁.destroyed, h₂.me.trans h₁.me, h₂.this.trans h₁.this,
    h₂.threadId_.trans h₁.threadId_⟩

/-- A call that changes neither the state nor the queue. -/
def Plain (l m : LoopConn) : Prop := Effect l m l.conn.state_ []

theorem Plain.rfl : Plain l l :=
  ⟨Eq.refl _, (List.append_nil _).symm, Eq.refl _, Eq.refl _, Eq.refl _, Eq.refl _, Eq.refl _,
    Eq.refl _⟩

theorem Plain.trans (h₁ : Plain l m) (h₂ : Plain m n) : Plain l n := by
  have h := Effect.trans h₁ h₂
  rwa [h₁.state_] at h

theorem plain_record (e : ConnEvent) : Plain l (l.record e) := { Plain.rfl with }

theorem plain_write (data : List UInt8) : Plain l (l.write data) := { Plain.rfl with }

theorem plain_setOutputBuffer (b : Buffer) : Plain l (l.setOutputBuffer b) := { Plain.rfl with }

theorem plain_channelSet (i : Channel.Interest) : Plain l (l.channelSet i) := { Plain.rfl with }

theorem plain_enableWriting : Plain l l.enableWriting := by
  unfold enableWriting
  split
  · exact .rfl
  · exact plain_channelSet _

theorem plain_shutdownInLoop : Plain l l.shutdownInLoop := by
  unfold shutdownInLoop
  split
  · exact .rfl
  · exact plain_record _

/-- Neither callback of the output is set: writing queues nothing. -/
def NoOutputCallbacks (l : LoopConn) : Prop :=
  l.conn.writeCompleteCallback_ = false ∧ l.conn.highWaterMarkCallback_ = false

theorem Plain.noOutputCallbacks (h : Plain l m) (hl : NoOutputCallbacks l) :
    NoOutputCallbacks m := ⟨h.writeComplete.trans hl.1, h.highWaterMark.trans hl.2⟩

theorem plain_queueWriteComplete (h : NoOutputCallbacks l) : Plain l l.queueWriteComplete := by
  rw [queueWriteComplete, h.1]
  exact .rfl

theorem plain_appendRemaining (h : NoOutputCallbacks l) (r : List UInt8) :
    Plain l (l.appendRemaining r) := by
  unfold appendRemaining
  split
  · exact .rfl
  · have hq : l.queueHighWaterMark r.length = l := by simp [queueHighWaterMark, h.2]
    rw [hq]
    exact (plain_setOutputBuffer _).trans plain_enableWriting

theorem plain_send (h : NoOutputCallbacks l) (data : List UInt8) : Plain l (l.send data) := by
  have h₀ : Plain l (l.record (.send data)) := plain_record _
  have hl := h₀.noOutputCallbacks h
  apply h₀.trans
  have hw : Plain (l.record (.send data)) ((l.record (.send data)).write data) := plain_write data
  unfold send sendInLoop
  split
  · exact .rfl
  · split
    · split
      · split
        · exact hw.trans (plain_queueWriteComplete (hw.noOutputCallbacks hl))
        · exact hw.trans (plain_appendRemaining (hw.noOutputCallbacks hl) _)
      · split
        · exact hw
        · exact hw.trans (plain_appendRemaining (hw.noOutputCallbacks hl) _)
    · exact plain_appendRemaining hl _

theorem plain_drained (h : NoOutputCallbacks l) : Plain l l.drained := by
  have hd : Plain l (l.channelSet .disableWriting) := plain_channelSet .disableWriting
  have hq := hd.trans (plain_queueWriteComplete (hd.noOutputCallbacks h))
  unfold drained
  dsimp only
  split
  · exact hq.trans plain_shutdownInLoop
  · exact hq

theorem plain_retrieve (h : NoOutputCallbacks l) (n : ℕ) : Plain l (l.retrieve n) := by
  have hb : Plain l (l.setOutputBuffer (l.conn.outputBuffer_.retrieve n)) := plain_setOutputBuffer _
  unfold retrieve
  dsimp only
  split
  · exact hb.trans (plain_drained (hb.noOutputCallbacks h))
  · exact hb

theorem plain_handleWrite (h : NoOutputCallbacks l) : Plain l l.handleWrite := by
  unfold handleWrite
  dsimp only
  have hw : Plain l (l.write l.conn.outputBuffer_.readable) := plain_write _
  split
  · split
    · next n _ =>
      split
      · exact hw
      · exact hw.trans (plain_retrieve (hw.noOutputCallbacks h) n)
    · exact hw
  · exact .rfl

theorem effect_setState (s : StateE) : Effect l (l.setState s) s [] :=
  { Plain.rfl with state_ := rfl }

theorem effect_queueInLoop (f : PendingFunctor) :
    Effect l (l.queueInLoop f) l.conn.state_ [f] :=
  { Plain.rfl with
    pending := EventLoop.queueInLoop_pendingFunctors_ ..
    threadId_ := EventLoop.queueInLoop_threadId_ .. }

/-- `shutdown` of a connection that is connected. -/
theorem effect_shutdown (h : l.conn.state_ = .kConnected) :
    ∃ fs, Effect l l.shutdown .kDisconnecting fs ∧ (fs = [] ∨ fs = [.shutdownInLoop l.this]) := by
  rw [shutdown, if_pos h]
  split
  · exact ⟨[], (effect_setState .kDisconnecting).trans plain_shutdownInLoop, .inl rfl⟩
  · exact ⟨_, (effect_setState .kDisconnecting).trans (effect_queueInLoop _), .inr rfl⟩

theorem effect_forceClose (h : l.conn.state_ = .kDisconnecting) :
    Effect l l.forceClose .kDisconnecting [.forceCloseInLoop l.this] := by
  rw [forceClose, if_pos (by simp [isOpen, h])]
  exact (effect_setState .kDisconnecting).trans (effect_queueInLoop _)

theorem effect_establish : Effect l l.establish .kConnected [] := { Plain.rfl with state_ := rfl }

theorem effect_disconnect : Effect l l.disconnect .kDisconnected [] :=
  { Plain.rfl with state_ := rfl }

theorem plain_channelRemove : Plain l l.channelRemove := { Plain.rfl with }

end LoopConn

/-! ### Changes of the process -/

variable {w w' w'' : World MyServer} {c d : ConnId} {s s' : StateE}
  {fs gs : List PendingFunctor} {u u' : MyServer}

structure Became (w w' : World MyServer) (c : ConnId) (s : StateE) (fs : List PendingFunctor)
    (u : MyServer) : Prop where
  state_ : ∀ d, (w'.conns d).state_ = if d = c then s else (w.conns d).state_
  pending : w'.loop.pendingFunctors_ = w.loop.pendingFunctors_ ++ fs
  writeComplete : ∀ d,
    (w'.conns d).writeCompleteCallback_ = (w.conns d).writeCompleteCallback_
  highWaterMark : ∀ d,
    (w'.conns d).highWaterMarkCallback_ = (w.conns d).highWaterMarkCallback_
  destroyed : ∀ d, (w'.conns d).destroyed = (w.conns d).destroyed
  same : Same w w'
  user : w'.user = u

/-- Nothing that this application sees has changed. -/
def Calm (w w' : World MyServer) : Prop := ∀ c, Became w w' c (w.conns c).state_ [] w.user

theorem Became.trans (h₁ : Became w w' c s fs u) (h₂ : Became w' w'' c s' gs u') :
    Became w w'' c s' (fs ++ gs) u' where
  state_ d := by
    rw [h₂.state_, h₁.state_]
    split <;> rfl
  pending := by rw [h₂.pending, h₁.pending, List.append_assoc]
  writeComplete d := (h₂.writeComplete d).trans (h₁.writeComplete d)
  highWaterMark d := (h₂.highWaterMark d).trans (h₁.highWaterMark d)
  destroyed d := (h₂.destroyed d).trans (h₁.destroyed d)
  same := h₁.same.trans h₂.same
  user := h₂.user

theorem Became.calm (h : Became w w' d (w.conns d).state_ [] w.user) : Calm w w' := fun c =>
  { h with
    state_ := fun e => by
      rw [h.state_]
      split <;> split <;> simp_all }

theorem Calm.rfl : Calm w w := fun _ =>
  ⟨fun e => by split <;> simp_all, (List.append_nil _).symm, fun _ => Eq.refl _,
    fun _ => Eq.refl _, fun _ => Eq.refl _, .rfl, Eq.refl _⟩

theorem Calm.state_ (h : Calm w w') (d : ConnId) : (w'.conns d).state_ = (w.conns d).state_ := by
  rw [(h d).state_, if_pos (Eq.refl d)]

theorem Calm.user (h : Calm w w') : w'.user = w.user := (h 0).user

theorem Became.trans_calm (h₁ : Became w w' c s fs u) (h₂ : Calm w' w'') :
    Became w w'' c s fs u := by
  have hs : (w'.conns c).state_ = s := by rw [h₁.state_, if_pos rfl]
  have h := h₁.trans (h₂ c)
  rwa [List.append_nil, hs, h₁.user] at h

theorem Calm.trans_became (h₁ : Calm w w') (h₂ : Became w' w'' c s fs u) :
    Became w w'' c s fs u := (h₁ c).trans h₂

theorem Calm.trans (h₁ : Calm w w') (h₂ : Calm w' w'') : Calm w w'' := fun c =>
  (h₁ c).trans_calm h₂

/-- A call on one connection. -/
theorem became_setConn {m : LoopConn} (h : LoopConn.Effect (w.atConn c) m s fs) :
    Became w (w.setConn c m) c s fs w.user where
  state_ d := by
    by_cases hd : d = c
    · subst hd
      rw [setConn_conns_self, if_pos rfl, h.state_]
    · rw [setConn_conns_ne hd, if_neg hd]
  pending := h.pending
  writeComplete d := by
    by_cases hd : d = c
    · subst hd
      rw [setConn_conns_self, h.writeComplete]
      rfl
    · rw [setConn_conns_ne hd]
  highWaterMark d := by
    by_cases hd : d = c
    · subst hd
      rw [setConn_conns_self, h.highWaterMark]
      rfl
    · rw [setConn_conns_ne hd]
  destroyed d := by
    by_cases hd : d = c
    · subst hd
      rw [setConn_conns_self, h.destroyed]
      rfl
    · rw [setConn_conns_ne hd]
  same := ⟨rfl, rfl, rfl, h.threadId_⟩
  user := rfl

theorem calm_setConn {m : LoopConn} (h : LoopConn.Plain (w.atConn c) m) : Calm w (w.setConn c m) :=
  Became.calm (became_setConn h)

theorem became_queueInLoop (f : PendingFunctor) :
    Became w (w.queueInLoop f) c (w.conns c).state_ [f] w.user :=
  { Calm.rfl c with
    pending := EventLoop.queueInLoop_pendingFunctors_ ..
    same := same_push _ _ }

theorem became_user (u : MyServer) :
    Became w { w with user := u } c (w.conns c).state_ [] u :=
  { Calm.rfl c with user := rfl, same := ⟨rfl, rfl, rfl, rfl⟩ }

/-- The functor that `closeCallback_` queues. -/
def World.closer (w : World MyServer) (c : ConnId) : PendingFunctor :=
  if w.loop.isInLoopThread w.me then .connectDestroyed c else .removeConnectionInLoop c

theorem closer_of_same (h : Same w w') : w'.closer c = w.closer c := by
  unfold World.closer EventLoop.isInLoopThread
  rw [h.threadId_, h.me]

theorem became_removeConnection :
    Became w (w.removeConnection c) c (w.conns c).state_ [w.closer c] w.user := by
  unfold World.removeConnection World.closer
  split
  · exact { Calm.rfl c with
      pending := EventLoop.queueInLoop_pendingFunctors_ ..
      same := ⟨rfl, rfl, rfl, EventLoop.queueInLoop_threadId_ ..⟩ }
  · exact became_queueInLoop _

/-- `closeCallback_` after a change. -/
theorem Became.closeCallback (h : Became w w' c s fs u) :
    Became w ((w'.onConn c (·.record .closeCallback)).removeConnection c) c s (fs ++ [w.closer c])
      u := by
  have hc : Calm w' (w'.onConn c (·.record .closeCallback)) :=
    calm_setConn (LoopConn.plain_record _)
  have h₁ := h.trans_calm hc
  have h₂ := h₁.trans became_removeConnection
  rwa [h₁.state_, if_pos rfl, closer_of_same h₁.same, h₁.user] at h₂

/-! ### The callbacks of the server -/

/-- No connection has a callback of the output. -/
def World.NoOutputCallbacks (w : World MyServer) : Prop :=
  ∀ d, (w.atConn d).NoOutputCallbacks

theorem Became.noOutputCallbacks (h : Became w w' c s fs u) (hn : w.NoOutputCallbacks) :
    w'.NoOutputCallbacks := fun d =>
  ⟨(h.writeComplete d).trans (hn d).1, (h.highWaterMark d).trans (hn d).2⟩

/-- `onMessage` sends to the host, or dereferences a null pointer. -/
theorem callback_onMessage (h : w.NoOutputCallbacks) :
    (w.user.lock w.conns = none → w.callback MyServer.onMessage = .error .nullPointer) ∧
      (w.user.lock w.conns ≠ none → ∃ w', w.callback MyServer.onMessage = .ok w' ∧ Calm w w') := by
  unfold World.callback MyServer.onMessage
  constructor
  · intro hl
    simp [hl, World.call]
  · intro hl
    obtain ⟨host, hh⟩ := Option.ne_none_iff_exists'.mp hl
    simp only [hh, List.foldlM_cons, List.foldlM_nil, World.call]
    split
    · exact ⟨_, rfl, calm_setConn (LoopConn.plain_send (h host) _)⟩
    · exact ⟨_, rfl, .rfl⟩

/-- The connections that `onConnection` counts as still connected when it refuses one. -/
def World.connectedAdmitted (w : World MyServer) : List ConnId :=
  w.user.admitted.filter fun d => (w.conns d).connected

/-- `connectionCallback_` after a change that left the connection not connected. -/
theorem Became.connectionCallback_down (h : Became w w' c s fs u) (hs : s ≠ .kConnected) :
    ∃ w'', w'.connectionCallback MyServer.application c = .ok w'' ∧ Became w w'' c s fs u.down := by
  obtain ⟨w₁, hw₁⟩ : ∃ w₁, w₁ =
      w'.onConn c fun l => l.record (.connectionCallback l.conn.connected) := ⟨_, rfl⟩
  have h₁ : Became w w₁ c s fs u := hw₁ ▸ h.trans_calm (calm_setConn (LoopConn.plain_record _))
  have hst : (w₁.conns c).state_ = s := by rw [h₁.state_, if_pos rfl]
  have hc : (w₁.conns c).connected = false := by simp [TcpConnection.connected, hst, hs]
  have h₂ := h₁.trans (became_user w₁.user.down)
  rw [List.append_nil, hst, h₁.user] at h₂
  refine ⟨_, ?_, h₂⟩
  rw [World.connectionCallback, ← hw₁]
  simp only [World.callback, MyServer.application, MyServer.onConnection, hc, Bool.false_eq_true,
    if_false, List.foldlM_nil, h₁.user]
  rfl

/-- A connection that comes up is admitted, or shut down and force-closed. -/
theorem callback_onConnection_up (h : (w.conns c).state_ = .kConnected) (hl : w.Live c) :
    ∃ w' s fs, w.callback (MyServer.onConnection c) = .ok w' ∧
      Became w w' c s fs (w.user.up c w.connectedAdmitted) ∧
      if w.user.numConnected_ + 1 > w.user.kMaxConnections_ then
        s = .kDisconnecting ∧
          (fs = [.forceCloseInLoop c] ∨ fs = [.shutdownInLoop c, .forceCloseInLoop c])
      else s = .kConnected ∧ fs = [] := by
  have hc : (w.conns c).connected = true := by simp [TcpConnection.connected, h]
  simp only [World.callback, MyServer.onConnection, hc, if_true]
  split
  · -- refused: `shutdown`, then `forceClose`
    have hu := became_user (w := w) (c := c) (w.user.up c w.connectedAdmitted)
    obtain ⟨fs, he, hfs⟩ := LoopConn.effect_shutdown
      (l := World.atConn { w with user := w.user.up c w.connectedAdmitted } c) h
    have hb := hu.trans (became_setConn he)
    have hk₁ : World.knows { w with user := w.user.up c w.connectedAdmitted } c = true := by
      simp [World.knows, hl.1, hl.2, h]
    obtain ⟨w₁, hw₁⟩ : ∃ w₁, w₁ = World.onConn { w with
      user := w.user.up c w.connectedAdmitted } c (·.member .shutdown) := ⟨_, rfl⟩
    have hb₁ : Became w w₁ c .kDisconnecting ([] ++ fs) (w.user.up c w.connectedAdmitted) :=
      hw₁ ▸ hb
    have hs₁ : (w₁.conns c).state_ = .kDisconnecting := by rw [hb₁.state_, if_pos rfl]
    have hk₂ : w₁.knows c = true := by
      have hc₁ := hb₁.same.created
      have hd₁ := (hb₁.destroyed c).trans hl.2
      simp [World.knows, hc₁, hl.1, hd₁, hs₁]
    have hb₂ := hb₁.trans
      (became_setConn (LoopConn.effect_forceClose (l := w₁.atConn c) hs₁))
    rw [hb₁.user] at hb₂
    refine ⟨_, _, _, ?_, hb₂, rfl, ?_⟩
    · simp only [List.foldlM_cons, List.foldlM_nil, World.call,
        World.connectedAdmitted] at hk₁ hw₁ ⊢
      rw [if_pos hk₁, ← hw₁]
      simp only [bind, Except.bind]
      rw [if_pos hk₂]
      rfl
    · rcases hfs with rfl | rfl
      · exact .inl rfl
      · exact .inr rfl
  · exact ⟨_, .kConnected, [], rfl, h ▸ became_user _, rfl, rfl⟩

/-- A connection is established, and admitted or refused. -/
theorem connectEstablished_spec (h : (w.conns c).state_ = .kConnecting) (hl : w.Live c) :
    ∃ w' w₁ s fs, w.connectEstablished MyServer.application c = .ok w' ∧
      Became w w₁ c .kConnected [] w.user ∧
      Became w w' c s fs (w.user.up c w₁.connectedAdmitted) ∧
      if w.user.numConnected_ + 1 > w.user.kMaxConnections_ then
        s = .kDisconnecting ∧
          (fs = [.forceCloseInLoop c] ∨ fs = [.shutdownInLoop c, .forceCloseInLoop c])
      else s = .kConnected ∧ fs = [] := by
  have h₁ : Became w (w.onConn c (·.establish)) c .kConnected [] w.user :=
    became_setConn LoopConn.effect_establish
  obtain ⟨w₂, hw₂⟩ : ∃ w₂, w₂ = (w.onConn c (·.establish)).onConn c
    fun l => l.record (.connectionCallback l.conn.connected) := ⟨_, rfl⟩
  have h₂ : Became w w₂ c .kConnected [] w.user :=
    hw₂ ▸ h₁.trans_calm (calm_setConn (LoopConn.plain_record _))
  have hs₂ : (w₂.conns c).state_ = .kConnected := by rw [h₂.state_, if_pos rfl]
  have hl₂ : w₂.Live c := ⟨h₂.same.created ▸ hl.1, (h₂.destroyed c).trans hl.2⟩
  obtain ⟨w', s, fs, hw', h', hif⟩ := callback_onConnection_up hs₂ hl₂
  have h'' := h₂.trans h'
  rw [List.nil_append, h₂.user] at h''
  rw [h₂.user] at hif
  refine ⟨w', w₂, s, fs, ?_, h₂, h'', hif⟩
  rw [World.connectEstablished, if_pos h, World.connectionCallback, ← hw₂]
  exact hw'

/-! ### The handlers -/

theorem handleClose_of_not_isOpen (h : (w.atConn c).isOpen = false) :
    w.handleClose MyServer.application c = .ok w := by
  rw [World.handleClose, h]
  rfl

/-- Closing an open connection. -/
theorem handleClose_of_isOpen (h : (w.atConn c).isOpen = true) :
    ∃ w', w.handleClose MyServer.application c = .ok w' ∧
      Became w w' c .kDisconnected [w.closer c] w.user.down := by
  have h₁ : Became w (w.onConn c (·.disconnect)) c .kDisconnected [] w.user :=
    became_setConn LoopConn.effect_disconnect
  obtain ⟨w₂, hw₂, h₂⟩ := h₁.connectionCallback_down (by decide)
  exact ⟨_, by rw [World.handleClose, if_pos h, hw₂]; rfl, h₂.closeCallback⟩

/-- What a handler of the connection `c` does: nothing that the application sees, or it closes
the connection. -/
def Closing (w w' : World MyServer) (c : ConnId) : Prop :=
  Calm w w' ∨ (w.atConn c).isOpen = true ∧ Became w w' c .kDisconnected [w.closer c] w.user.down

theorem Closing.trans_calm (h₁ : Closing w w' c) (h₂ : Calm w' w'') : Closing w w'' c :=
  h₁.imp (fun h => h.trans h₂) fun h => ⟨h.1, h.2.trans_calm h₂⟩

/-- A second `handleClose` finds the connection closed. -/
theorem Closing.handleClose (h : Closing w w' c) :
    ∃ w'', w'.handleClose MyServer.application c = .ok w'' ∧ Closing w w'' c := by
  rcases h with h | ⟨ho, h⟩
  · have he : (w'.atConn c).isOpen = (w.atConn c).isOpen := by
      simp only [LoopConn.isOpen, World.atConn, h.state_ c]
      congr
    cases ho : (w.atConn c).isOpen with
    | false => exact ⟨_, handleClose_of_not_isOpen (he.trans ho), .inl h⟩
    | true =>
        obtain ⟨w'', hw'', h'⟩ := handleClose_of_isOpen (he.trans ho)
        have h'' := h.trans_became h'
        rw [closer_of_same (h c).same, h.user] at h''
        exact ⟨_, hw'', .inr ⟨ho, h''⟩⟩
  · refine ⟨_, handleClose_of_not_isOpen ?_, .inr ⟨ho, h⟩⟩
    simp [LoopConn.isOpen, World.atConn, h.state_]

/-- The event delivers data to a connection. -/
def World.delivers (revents : Mask) (read : Option (List UInt8)) : Bool :=
  World.readable revents && match read with
    | some (_ :: _) => true
    | _ => false

theorem Closing.noOutputCallbacks (h : Closing w w' c) (hn : w.NoOutputCallbacks) :
    w'.NoOutputCallbacks := h.elim (fun h => (h c).noOutputCallbacks hn) fun h =>
  h.2.noOutputCallbacks hn

theorem Closing.lock (h : Closing w w' c) : w'.user.lock w'.conns = w.user.lock w.conns := by
  have hu : w'.user.hostPtr_ = w.user.hostPtr_ := by
    rcases h with h | ⟨-, h⟩
    · rw [h.user]
    · rw [h.user]
      rfl
  have hd : ∀ d, (w'.conns d).destroyed = (w.conns d).destroyed := by
    intro d
    rcases h with h | ⟨-, h⟩
    · exact (h d).destroyed d
    · exact h.destroyed d
  simp only [MyServer.lock, hu, hd]

/-- Reading, after what may have been a hang-up. -/
theorem Closing.handleRead (h : Closing w w' c) (hn : w.NoOutputCallbacks) (revents : Mask)
    (read : Option (List UInt8)) :
    if World.delivers revents read = true ∧ w.user.lock w.conns = none then
      (if World.readable revents then w'.handleRead MyServer.application c read else .ok w') =
        .error .nullPointer
    else ∃ w'', (if World.readable revents then w'.handleRead MyServer.application c read
      else .ok w') = .ok w'' ∧ Closing w w'' c := by
  cases hr : World.readable revents with
  | false => simpa [World.delivers, hr] using h
  | true =>
      match read with
      | none => simpa [World.delivers, hr, World.handleRead] using h
      | some [] => simpa [World.delivers, hr, World.handleRead] using h.handleClose
      | some (b :: data) =>
          have hc : Calm w' (w'.onConn c (·.record (.messageCallback ((b :: data).take 1024)))) :=
            calm_setConn (LoopConn.plain_record _)
          have hm := h.trans_calm hc
          obtain ⟨hnone, hsome⟩ := callback_onMessage (hm.noOutputCallbacks hn)
          rw [hm.lock] at hnone hsome
          simp only [World.delivers, hr, Bool.and_self, true_and, if_true]
          split
          · next hl => exact hnone hl
          · next hl =>
            obtain ⟨w₂, hw₂, h₂⟩ := hsome hl
            exact ⟨w₂, hw₂, hm.trans_calm h₂⟩

/-- An event on a connection dereferences a null pointer exactly when it delivers data and the
host is gone; otherwise it closes the connection at most. -/
theorem handleEventWithGuard_spec (hn : w.NoOutputCallbacks) (revents : Mask)
    (read : Option (List UInt8)) :
    if World.delivers revents read = true ∧ w.user.lock w.conns = none then
      w.handleEventWithGuard MyServer.application c revents read = .error .nullPointer
    else ∃ w', w.handleEventWithGuard MyServer.application c revents read = .ok w' ∧
      Closing w w' c := by
  obtain ⟨w₁, hw₁, h₁⟩ : ∃ w₁, (if World.hangup revents then
      w.handleClose MyServer.application c else .ok w) = .ok w₁ ∧ Closing w w₁ c := by
    split
    · exact Closing.handleClose (.inl .rfl)
    · exact ⟨w, rfl, .inl .rfl⟩
  have hread := h₁.handleRead hn revents read
  rw [World.handleEventWithGuard, hw₁]
  simp only [bind, Except.bind]
  split
  · next h =>
    rw [if_pos h] at hread
    rw [hread]
  · next h =>
    rw [if_neg h] at hread
    obtain ⟨w₂, hw₂, h₂⟩ := hread
    rw [hw₂]
    refine ⟨_, rfl, ?_⟩
    split
    · exact h₂.trans_calm (calm_setConn (LoopConn.plain_handleWrite (h₂.noOutputCallbacks hn c)))
    · exact h₂

end NetworkStructure
