import NetworkStructure.LifeCycle

/-! # Handlers and functors, call by call

A handler or functor of a server is a sequence of calls: on the connections, by the code or by the
application, and on the loop.  Every call on a connection only queues functors and touches the
connection and its descriptor (`LoopConn.Acts`).  `World.Kept` is the rule for handlers: what the
calls of which they are made keep, the handlers keep. -/

namespace NetworkStructure

/-! ### Queueing many functors -/

namespace EventLoop

variable {ι φ : Type} {k l m : EventLoop ι φ} {me : ThreadId}

/-- The loop, its poller apart. -/
def bare (l : EventLoop ι φ) : EventLoop ι φ := { l with poller_ := {} }

@[simp] theorem bare_queueInLoop (f : φ) :
    (l.queueInLoop me f).bare = l.bare.queueInLoop me f := by
  unfold queueInLoop
  rw [apply_ite bare]
  rfl

def queueAll (l : EventLoop ι φ) (me : ThreadId) (fs : List φ) : EventLoop ι φ :=
  fs.foldl (fun l f => l.queueInLoop me f) l

theorem queueAll_append (fs gs : List φ) :
    l.queueAll me (fs ++ gs) = (l.queueAll me fs).queueAll me gs := List.foldl_append ..

/-- All that happened to the loop, its poller apart, is that `me` queued functors. -/
def Queued (me : ThreadId) (l m : EventLoop ι φ) : Prop :=
  ∃ fs, m.bare = l.bare.queueAll me fs

@[simp] theorem mustWakeup_queueInLoop (f : φ) (thread : ThreadId) :
    (l.queueInLoop me f).mustWakeup thread = l.mustWakeup thread := by
  unfold queueInLoop
  split <;> rfl

theorem Queued.of_bare (h : k.Queued me l) (hb : m.bare = l.bare) : k.Queued me m := by
  obtain ⟨fs, hfs⟩ := h
  exact ⟨fs, hb.trans hfs⟩

theorem Queued.queueInLoop (h : k.Queued me l) (f : φ) : k.Queued me (l.queueInLoop me f) := by
  obtain ⟨fs, hfs⟩ := h
  refine ⟨fs ++ [f], ?_⟩
  rw [bare_queueInLoop, hfs, queueAll_append]
  rfl

theorem queueAll_pendingFunctors_ (fs : List φ) :
    (l.queueAll me fs).pendingFunctors_ = l.pendingFunctors_ ++ fs := by
  induction fs generalizing l with
  | nil => exact (List.append_nil _).symm
  | cons f fs ih =>
      refine (ih (l := l.queueInLoop me f)).trans ?_
      rw [queueInLoop_pendingFunctors_, List.append_assoc]
      rfl

theorem Queued.pending (h : l.Queued me m) :
    ∃ fs, m.pendingFunctors_ = l.pendingFunctors_ ++ fs := by
  obtain ⟨fs, hfs⟩ := h
  exact ⟨fs, (congrArg (·.pendingFunctors_) hfs).trans (l.bare.queueAll_pendingFunctors_ fs)⟩

/-- What queueing a functor does not change. -/
theorem Queued.eq {α : Type} (h : l.Queued me m) (g : EventLoop ι φ → α)
    (hb : ∀ l, g l.bare = g l) (hg : ∀ l f, g (l.queueInLoop me f) = g l) : g m = g l := by
  have hall : ∀ (fs : List φ) (l : EventLoop ι φ), g (l.queueAll me fs) = g l := by
    intro fs
    induction fs with
    | nil => exact fun _ => rfl
    | cons f fs ih => exact fun l => (ih _).trans (hg l f)
  obtain ⟨fs, hfs⟩ := h
  rw [← hb m, hfs, hall, hb]

theorem queueInLoop_quit_ (f : φ) : (l.queueInLoop me f).quit_ = l.quit_ := by
  unfold queueInLoop
  split <;> rfl

theorem queueInLoop_callingPendingFunctors_ (f : φ) :
    (l.queueInLoop me f).callingPendingFunctors_ = l.callingPendingFunctors_ := by
  unfold queueInLoop
  split <;> rfl

end EventLoop

/-! ### The calls on a connection -/

namespace LoopConn

variable {k l m : LoopConn}

/-- What happens between `k` and `l`, whichever calls are made: of the loop, its poller apart, only
that the loop's thread queues functors. -/
structure Acts (k l : LoopConn) : Prop where
  me : l.me = k.me
  loop : k.loop.Queued k.me l.loop
  destroyed : l.conn.destroyed = k.conn.destroyed
  fd_ : l.conn.channel_.fd_ = k.conn.channel_.fd_
  up : k.conn.state_ ≠ .kConnecting → l.conn.state_ ≠ .kConnecting

namespace Acts

theorem refl : k.Acts k := ⟨rfl, ⟨[], rfl⟩, rfl, rfl, id⟩

theorem of_bare (h : k.Acts l) (hm : m.me = l.me) (hb : m.loop.bare = l.loop.bare)
    (hd : m.conn.destroyed = l.conn.destroyed) (hs : m.conn.state_ = l.conn.state_)
    (hf : m.conn.channel_.fd_ = l.conn.channel_.fd_) : k.Acts m :=
  ⟨hm.trans h.me, h.loop.of_bare hb, hd.trans h.destroyed, hf.trans h.fd_, fun hk => by
    rw [hs]
    exact h.up hk⟩

theorem queueInLoop (h : k.Acts l) (f : PendingFunctor) : k.Acts (l.queueInLoop f) := by
  refine ⟨h.me, ?_, h.destroyed, h.fd_, h.up⟩
  show k.loop.Queued k.me (l.loop.queueInLoop l.me f)
  rw [h.me]
  exact h.loop.queueInLoop f

theorem record (h : k.Acts l) (e : ConnEvent) : k.Acts (l.record e) :=
  h.of_bare rfl rfl rfl rfl rfl

theorem setState (h : k.Acts l) {s : StateE} (hs : s ≠ .kConnecting) : k.Acts (l.setState s) :=
  ⟨h.me, h.loop, h.destroyed, h.fd_, fun _ => hs⟩

theorem channelSet (h : k.Acts l) (i : Channel.Interest) : k.Acts (l.channelSet i) :=
  h.of_bare rfl rfl rfl rfl (set_fd_ i)

theorem channelRemove (h : k.Acts l) : k.Acts l.channelRemove :=
  h.of_bare rfl rfl rfl rfl remove_fd_

theorem write (h : k.Acts l) (data : List UInt8) : k.Acts (l.write data) :=
  h.of_bare rfl rfl rfl rfl rfl

theorem setOutputBuffer (h : k.Acts l) (b : Buffer) : k.Acts (l.setOutputBuffer b) :=
  h.of_bare rfl rfl rfl rfl rfl

theorem queueHighWaterMark (h : k.Acts l) (n : ℕ) : k.Acts (l.queueHighWaterMark n) := by
  unfold LoopConn.queueHighWaterMark
  dsimp only
  split
  · exact h.queueInLoop _
  · exact h

theorem queueWriteComplete (h : k.Acts l) : k.Acts l.queueWriteComplete := by
  unfold LoopConn.queueWriteComplete
  split
  · exact h.queueInLoop _
  · exact h

theorem enableWriting (h : k.Acts l) : k.Acts l.enableWriting := by
  unfold LoopConn.enableWriting
  split
  · exact h
  · exact h.channelSet _

theorem appendRemaining (h : k.Acts l) (data : List UInt8) :
    k.Acts (l.appendRemaining data) := by
  unfold LoopConn.appendRemaining
  split
  · exact h
  · exact ((h.queueHighWaterMark _).setOutputBuffer _).enableWriting

theorem send (h : k.Acts l) (data : List UInt8) : k.Acts (l.send data) := by
  have hr := h.record (.send data)
  unfold LoopConn.send LoopConn.sendInLoop
  split
  · exact hr
  · split
    · split
      · split
        · exact (hr.write data).queueWriteComplete
        · exact (hr.write data).appendRemaining _
      · split
        · exact hr.write data
        · exact (hr.write data).appendRemaining data
    · exact hr.appendRemaining data

theorem shutdownInLoop (h : k.Acts l) : k.Acts l.shutdownInLoop := by
  unfold LoopConn.shutdownInLoop
  split
  · exact h
  · exact h.record _

theorem shutdown (h : k.Acts l) : k.Acts l.shutdown := by
  unfold LoopConn.shutdown
  split
  · split
    · exact (h.setState (by decide)).shutdownInLoop
    · exact (h.setState (by decide)).queueInLoop _
  · exact h

theorem forceClose (h : k.Acts l) : k.Acts l.forceClose := by
  unfold LoopConn.forceClose
  split
  · exact (h.setState (by decide)).queueInLoop _
  · exact h

theorem member (h : k.Acts l) (a : Member) : k.Acts (l.member a) := by
  cases a with
  | send data => exact h.send data
  | shutdown => exact h.shutdown
  | forceClose => exact h.forceClose

theorem retrieve (h : k.Acts l) (n : ℕ) : k.Acts (l.retrieve n) := by
  have hb := h.setOutputBuffer (l.conn.outputBuffer_.retrieve n)
  unfold LoopConn.retrieve LoopConn.drained
  dsimp only
  split
  · have hq := (hb.channelSet .disableWriting).queueWriteComplete
    split
    · exact hq.shutdownInLoop
    · exact hq
  · exact hb

theorem handleWrite (h : k.Acts l) : k.Acts l.handleWrite := by
  unfold LoopConn.handleWrite
  dsimp only
  split
  · split
    · split
      · exact h.write _
      · exact (h.write _).retrieve _
    · exact h.write _
  · exact h

theorem establish (h : k.Acts l) : k.Acts l.establish := by
  have hs : k.Acts (l.setState .kConnected) := h.setState (by decide)
  have ht : k.Acts (l.setState .kConnected).tie := hs.of_bare rfl rfl rfl rfl rfl
  exact ht.channelSet _

theorem disconnect (h : k.Acts l) : k.Acts l.disconnect := by
  have hs : k.Acts (l.setState .kDisconnected) := h.setState (by decide)
  exact hs.channelSet _

theorem close (h : k.Acts l) : k.Acts l.close := by
  unfold LoopConn.close
  split
  · exact h.disconnect
  · exact h

theorem destroy (h : k.Acts l) : k.Acts l.destroy := by
  unfold LoopConn.destroy
  split
  · exact h.disconnect.channelRemove
  · exact h.channelRemove

end Acts
end LoopConn


/-! ### The rule for handlers -/

/-- The events that a connection records when it calls back. -/
def ConnEvent.isCallback : ConnEvent → Bool
  | .connectionCallback _ | .messageCallback _ | .closeCallback | .connectDestroyed => true
  | .setState _ | .send _ | .write _ | .shutdownWrite _ => false

section World

variable {υ : Type} {app : Application υ} {I : World υ → Prop} {w : World υ} {c d : ConnId}

namespace World

/-- The entry of a connection is erased from `connections_`. -/
def erase (w : World υ) (c : ConnId) : World υ :=
  { w with server := { w.server with
      connections_ := w.server.connections_.erase (w.conns c).name_ } }

/-- Every call of which the handlers are made keeps `I`. -/
structure Kept (I : World υ → Prop) : Prop where
  user : ∀ {w} (u : υ), I w → I { w with user := u }
  member : ∀ {w c} (a : LoopConn.Member), I w → w.knows c = true → I (w.onConn c (·.member a))
  handleWrite : ∀ {w c}, I w → w.knows c = true → I (w.onConn c (·.handleWrite))
  close : ∀ {w c}, I w → w.knows c = true → I (w.onConn c (·.close))
  record : ∀ {w c e}, I w → w.knows c = true → e.isCallback = true →
    I (w.onConn c (·.record e))
  establish : ∀ {w c}, I w → w.Live c → (w.conns c).state_ = .kConnecting →
    I (w.onConn c (·.establish))
  queueInLoop : ∀ {w f}, I w → f.life = true ∨ f.target = none → I (w.queueInLoop f)
  erase : ∀ {w} c, I w → I (w.erase c)

theorem knows_iff : w.knows c = true ↔ w.Live c ∧ (w.conns c).state_ ≠ .kConnecting := by
  simp [knows, Live]

theorem knows_onConn (hk : w.knows c = true) {f : LoopConn → LoopConn}
    (hf : (w.atConn d).Acts (f (w.atConn d))) : (w.onConn d f).knows c = true := by
  rw [knows_iff] at hk ⊢
  obtain ⟨⟨hc, hd⟩, hs⟩ := hk
  by_cases hcd : c = d
  · subst hcd
    have hself : (w.onConn c f).conns c = (f (w.atConn c)).conn := setConn_conns_self _
    rw [Live, hself]
    exact ⟨⟨hc, hf.destroyed.trans hd⟩, hf.up hs⟩
  · have hne : (w.onConn d f).conns c = w.conns c := setConn_conns_ne hcd _
    rw [Live, hne]
    exact ⟨⟨hc, hd⟩, hs⟩

namespace Kept

/-- A connection that is known stays known. -/
theorem and_knows (hI : Kept I) (c : ConnId) : Kept fun w => I w ∧ w.knows c = true where
  user u h := ⟨hI.user u h.1, h.2⟩
  member a h hk := ⟨hI.member a h.1 hk, knows_onConn h.2 (LoopConn.Acts.refl.member a)⟩
  handleWrite h hk := ⟨hI.handleWrite h.1 hk, knows_onConn h.2 LoopConn.Acts.refl.handleWrite⟩
  close h hk := ⟨hI.close h.1 hk, knows_onConn h.2 LoopConn.Acts.refl.close⟩
  record h hk he := ⟨hI.record h.1 hk he, knows_onConn h.2 (LoopConn.Acts.refl.record _)⟩
  establish h hl hs := ⟨hI.establish h.1 hl hs, knows_onConn h.2 LoopConn.Acts.refl.establish⟩
  queueInLoop h hf := ⟨hI.queueInLoop h.1 hf, h.2⟩
  erase c h := ⟨hI.erase c h.1, h.2⟩

variable (hI : Kept I)

include hI

theorem call (h : I w) (a : ApiCall) : Ensures I (fun _ => True) (w.call a) := by
  cases a with
  | queueInLoop n => exact hI.queueInLoop h (.inr rfl)
  | member conn a =>
      cases conn with
      | none => trivial
      | some c =>
          simp only [World.call, ensures_ok]
          split
          · next hk => exact hI.member a h hk
          · exact h

theorem callback (h : I w) (cb : Callback υ) : Ensures I (fun _ => True) (w.callback cb) :=
  ensures_foldlM (fun _ h a _ => hI.call h a) (hI.user _ h)

theorem connectionCallback (h : I w) (hk : w.knows c = true) :
    Ensures I (fun _ => True) (w.connectionCallback app c) :=
  hI.callback (hI.record h hk rfl) _

theorem connectEstablished (h : I w) (hl : w.Live c) :
    Ensures I (fun _ => True) (w.connectEstablished app c) := by
  unfold World.connectEstablished
  split
  · next hs =>
    refine hI.connectionCallback (hI.establish h hl hs) (knows_iff.mpr ?_)
    have hself : (w.onConn c (·.establish)).conns c = (w.atConn c).establish.conn :=
      setConn_conns_self _
    rw [Live, hself]
    refine ⟨hl, ?_⟩
    show StateE.kConnected ≠ .kConnecting
    decide
  · trivial

theorem removeConnectionInLoop (h : I w) : I (w.removeConnectionInLoop c) :=
  hI.queueInLoop (hI.erase c h) (.inl rfl)

theorem removeConnection (h : I w) : I (w.removeConnection c) := by
  unfold World.removeConnection
  split
  · exact hI.removeConnectionInLoop h
  · exact hI.queueInLoop h (.inl rfl)

/-- `handleClose` after the state was set. -/
theorem closed (h : I w) (hk : w.knows c = true) :
    Ensures I (fun _ => True) (w.connectionCallback app c >>= fun w =>
      .ok ((w.onConn c (·.record .closeCallback)).removeConnection c)) :=
  ((hI.and_knows c).connectionCallback ⟨h, hk⟩ hk).bind fun _ h₁ =>
    hI.removeConnection (hI.record h₁.1 h₁.2 rfl)

theorem handleClose (h : I w) (hk : w.knows c = true) :
    Ensures I (fun _ => True) (w.handleClose app c) := by
  unfold World.handleClose
  split
  · next ho =>
    have he : w.onConn c (·.disconnect) = w.onConn c (·.close) := by
      simp only [World.onConn, LoopConn.close, if_pos ho]
    rw [he]
    exact hI.closed (hI.close h hk) (knows_onConn hk LoopConn.Acts.refl.close)
  · exact h

theorem handleRead (h : I w) (hk : w.knows c = true) (read : Option (List UInt8)) :
    Ensures I (fun _ => True) (w.handleRead app c read) := by
  unfold World.handleRead
  split
  · exact h
  · exact hI.handleClose h hk
  · exact hI.callback (hI.record h hk rfl) _

theorem handleEventWithGuard (h : I w) (hk : w.knows c = true) (revents : Mask)
    (read : Option (List UInt8)) :
    Ensures I (fun _ => True) (w.handleEventWithGuard app c revents read) := by
  have hJ := hI.and_knows c
  unfold World.handleEventWithGuard
  refine Ensures.bind (P := fun w => I w ∧ w.knows c = true) ?_ fun w₁ h₁ =>
    Ensures.bind (P := fun w => I w ∧ w.knows c = true) ?_ fun w₂ h₂ => ?_
  · split
    · exact hJ.handleClose ⟨h, hk⟩ hk
    · exact ⟨h, hk⟩
  · split
    · exact hJ.handleRead h₁ h₁.2 read
    · exact h₁
  · rw [ensures_ok]
    split
    · exact hI.handleWrite h₂.1 h₂.2
    · exact h₂.1

/-- A connection is created. -/
theorem newConnection {sockfd : Fd} {socket : List WriteResult}
    (h : I (w.insertConnection app sockfd socket)) :
    Ensures I (fun _ => True) (w.newConnection app sockfd socket) := by
  unfold World.newConnection
  split
  · trivial
  · split
    · refine hI.connectEstablished h ⟨Nat.lt_succ_self _, ?_⟩
      rw [insertConnection_conns_self]
      rfl
    · exact hI.queueInLoop h (.inl rfl)

/-- Every handler but that of the eventfd. -/
theorem handleEvent (h : I w) {channel : ChannelRef} (hw : channel ≠ .wakeup)
    (hc : ∀ c, channel = .conn c → w.knows c = true)
    {accepted : Option (Fd × List WriteResult)}
    (ha : ∀ a, accepted = some a → I (w.insertConnection app a.1 a.2)) (revents : Mask)
    (read : Option (List UInt8)) :
    Ensures I (fun _ => True) (w.handleEvent app channel revents accepted read) := by
  cases channel with
  | wakeup => exact absurd rfl hw
  | acceptor =>
      unfold World.handleEvent
      cases accepted with
      | none => exact h
      | some a =>
          dsimp only
          split
          · exact hI.newConnection (ha a rfl)
          · exact h
  | conn c =>
      rw [World.handleEvent, World.handleConn]
      split
      · split
        · exact h
        · trivial
      · exact hI.handleEventWithGuard h (hc c rfl) revents read

/-- The functors that a connection queues for itself are left to `hshutdown`, `hforce` and
`hdestroyed`. -/
theorem runFunctor (h : I w) {f : PendingFunctor}
    (hestablished : ∀ c, f = .connectEstablished c → w.Live c)
    (hshutdown : ∀ c, f = .shutdownInLoop c → I (w.onConn c (·.shutdownInLoop)))
    (hforce : ∀ c, f = .forceCloseInLoop c → Ensures I (fun _ => True) (w.handleClose app c))
    (hdestroyed : ∀ c, f = .connectDestroyed c →
      Ensures I (fun _ => True) (w.connectDestroyed app c)) :
    Ensures I (fun _ => True) (w.runFunctor app f) := by
  cases f with
  | connectEstablished c => exact hI.connectEstablished h (hestablished c rfl)
  | connectDestroyed c => exact hdestroyed c rfl
  | removeConnectionInLoop c => exact hI.removeConnectionInLoop h
  | forceCloseInLoop c => exact hforce c rfl
  | highWaterMarkCallback c n => exact h
  | user n => exact hI.callback h _
  | shutdownInLoop c =>
      rw [World.runFunctor]
      split
      · trivial
      · exact hshutdown c rfl
  | writeCompleteCallback c =>
      rw [World.runFunctor]
      split
      · exact hI.callback h _
      · exact h

end Kept

/-! ### What the handlers and functors find -/

theorem Ok.knows_of_active (h : w.Ok) {r : ChannelRef × Mask} (hr : r ∈ w.active)
    (hc : r.1 = .conn c) : w.knows c = true := by
  obtain ⟨stage, hw, -⟩ := h
  obtain ⟨hlt, hx⟩ := hw.active r hr c hc
  have hok := hw.conn c hlt
  rw [knows_iff, Ne, hok.state_eq_kConnecting]
  refine ⟨hok.live hlt ?_, ?_⟩
  · rintro hs
    rw [hs] at hx
    exact hx rfl
  · rintro (hs | hs)
    · rw [hs] at hx
      exact hx rfl
    · rw [hs] at hx
      exact hx rfl

theorem Ok.live_of_connectEstablished (h : w.Ok) (hm : .connectEstablished c ∈ w.queue) :
    w.Live c := by
  obtain ⟨stage, hw, -⟩ := h
  obtain ⟨hc, hs⟩ := hw.connecting_of_mem hm
  exact (hw.conn c hc).live hc (by simp [hs])

theorem Ok.knows_of_shutdownInLoop (h : w.Ok) (hm : .shutdownInLoop c ∈ w.queue) :
    w.knows c = true := by
  obtain ⟨stage, hw, -⟩ := h
  have hl := hw.live_of_shutdownInLoop hm
  rw [knows_iff, Ne, (hw.conn c hl.1).state_eq_kConnecting]
  exact ⟨hl, fun hs => by cases (hw.conn c hl.1).soft hs _ hm rfl⟩

theorem Ok.knows_of_isOpen (h : w.Ok) (hm : .forceCloseInLoop c ∈ w.queue)
    (ho : (w.atConn c).isOpen = true) : w.knows c = true := by
  obtain ⟨stage, hw, -⟩ := h
  have hc := hw.target _ hm c rfl
  have hok := hw.conn c hc
  have hs := hok.opened_of_isOpen ho
  rw [knows_iff, Ne, hok.state_eq_kConnecting]
  exact ⟨hok.live hc (by simp [hs]), by simp [hs]⟩

theorem handleClose_eq_self (ho : ¬ (w.atConn c).isOpen = true) :
    w.handleClose app c = .ok w := if_neg ho

theorem Ok.knows_of_connectDestroyed (h : w.Ok) (hm : .connectDestroyed c ∈ w.queue) :
    w.knows c = true ∧ (w.conns c).state_ = .kDisconnected := by
  obtain ⟨stage, hw, -⟩ := h
  obtain ⟨hc, hs⟩ := hw.destroying_of_mem hm
  have hok := hw.conn c hc
  rw [knows_iff, Ne, hok.state_eq_kConnecting, hok.state_eq_kDisconnected]
  exact ⟨⟨hok.live hc (by simp [hs]), by simp [hs]⟩, by simp [hs]⟩

end World
end World

end NetworkStructure
