import NetworkStructure.ConnFrame
import NetworkStructure.Run

/-! # Steps around a connection

`ConnStep` lets the calls on one established connection come in any order: the application's
`send`, `shutdown` and `forceClose`, writable events, `handleClose`, the functors that the loop
runs for it, and whatever other connections and threads do with the loop.

The invariant `LoopConn.Inv` of these steps is that the channel is registered and, until the
connection is disconnected, wants to write exactly when the output buffer is not empty
(`Buffering`), whatever the kernel answers. -/

namespace NetworkStructure

/-- What happens around one connection. -/
inductive ConnAction where
  | member (a : LoopConn.Member)
  | handleWrite
  | handleClose
  | runFunctor
  | others

namespace LoopConn

/-- A functor is run; those of other connections do not concern this one. -/
def run (l : LoopConn) : PendingFunctor → LoopConn
  | .shutdownInLoop c => if c = l.this then l.shutdownInLoop else l
  | .forceCloseInLoop c => if c = l.this then l.close else l
  | .connectDestroyed c => if c = l.this then l.destroy else l
  | _ => l

/-- The head of the queue is taken. -/
def setPending (l : LoopConn) (fs : List PendingFunctor) : LoopConn :=
  { l with loop := { l.loop with pendingFunctors_ := fs } }

end LoopConn

/-- One step around the connection `l.this`. -/
inductive ConnStep (l : LoopConn) : ConnAction → LoopConn → Prop
  | member (a : LoopConn.Member) : ConnStep l (.member a) (l.member a)
  | handleWrite : ConnStep l .handleWrite l.handleWrite
  | handleClose : ConnStep l .handleClose l.close
  | runFunctor {f : PendingFunctor} {fs : List PendingFunctor}
      (h : l.loop.pendingFunctors_ = f :: fs) : ConnStep l .runFunctor ((l.setPending fs).run f)
  /-- Other connections and threads use the loop; they do not touch the descriptor of this
  connection and do not queue its `shutdownInLoop` and `forceCloseInLoop`. -/
  | others (loop : EventLoop ChannelRef PendingFunctor)
      (ht : loop.threadId_ = l.loop.threadId_)
      (hf : ∃ fs, loop.pendingFunctors_ = l.loop.pendingFunctors_ ++ fs ∧
        PendingFunctor.shutdownInLoop l.this ∉ fs ∧ PendingFunctor.forceCloseInLoop l.this ∉ fs)
      (hc : loop.poller_.channels_ l.conn.channel_.fd_ =
        l.loop.poller_.channels_ l.conn.channel_.fd_)
      (hk : loop.poller_.kernel l.conn.channel_.fd_ = l.loop.poller_.kernel l.conn.channel_.fd_) :
      ConnStep l .others { l with loop := loop }

namespace LoopConn

variable {l m : LoopConn}

/-- A connection just constructed by `newConnection`, on a descriptor that the poller does not
know. -/
structure New (l : LoopConn) : Prop where
  conn : ∃ name fd writeComplete socket,
    l.conn = TcpConnection.new name fd writeComplete socket
  channels_ : l.loop.poller_.channels_ l.conn.channel_.fd_ = none
  kernel : l.loop.poller_.kernel l.conn.channel_.fd_ = none

/-! ### A connection that is up has been up -/

@[simp] theorem enableWriting_state_ : l.enableWriting.conn.state_ = l.conn.state_ := by
  unfold enableWriting
  split <;> rfl

@[simp] theorem appendRemaining_state_ (r : List UInt8) :
    (l.appendRemaining r).conn.state_ = l.conn.state_ := by
  unfold appendRemaining
  split <;> simp

@[simp] theorem sendInLoop_state_ (data : List UInt8) :
    (l.sendInLoop data).conn.state_ = l.conn.state_ := by
  unfold sendInLoop
  split_ifs
  · rfl
  · split
    · split <;> simp
    · split <;> simp
  · simp

@[simp] theorem shutdownInLoop_state_ : l.shutdownInLoop.conn.state_ = l.conn.state_ := by
  unfold shutdownInLoop
  split <;> rfl

@[simp] theorem retrieve_state_ (n : ℕ) : (l.retrieve n).conn.state_ = l.conn.state_ := by
  unfold retrieve drained
  dsimp only
  split_ifs <;> simp

@[simp] theorem handleWrite_state_ : l.handleWrite.conn.state_ = l.conn.state_ := by
  unfold handleWrite
  dsimp only
  split
  · split
    · split <;> simp
    · rfl
  · rfl

theorem up_member {a : Member} (hm : (l.member a).conn.state_ ≠ .kDisconnected) :
    l.conn.state_ ≠ .kDisconnected := by
  intro hs
  apply hm
  cases a with
  | send data => simp [member, send, hs]
  | shutdown => simp [member, shutdown, hs]
  | forceClose => simp [member, forceClose, isOpen, hs]

theorem up_close (hm : l.close.conn.state_ ≠ .kDisconnected) : l.close = l := by
  unfold close at hm ⊢
  split
  · next ho =>
    rw [if_pos ho] at hm
    exact absurd rfl hm
  · rfl

theorem up_destroy (hm : l.destroy.conn.state_ ≠ .kDisconnected) :
    l.destroy = l.channelRemove := by
  unfold destroy at hm ⊢
  split
  · next hc =>
    rw [if_pos hc] at hm
    exact absurd rfl hm
  · rfl

/-- What a functor may do that leaves the connection up. -/
theorem up_run {f : PendingFunctor} (hm : (l.run f).conn.state_ ≠ .kDisconnected) :
    l.run f = l ∨ l.run f = l.shutdownInLoop ∨ l.run f = l.channelRemove := by
  cases f with
  | shutdownInLoop c =>
      unfold run
      dsimp only
      split_ifs
      · exact .inr (.inl rfl)
      · exact .inl rfl
  | forceCloseInLoop c =>
      unfold run at hm ⊢
      dsimp only at hm ⊢
      split_ifs at hm ⊢
      · exact .inl (up_close hm)
      · exact .inl rfl
  | connectDestroyed c =>
      unfold run at hm ⊢
      dsimp only at hm ⊢
      split_ifs at hm ⊢
      · exact .inr (.inr (up_destroy hm))
      · exact .inl rfl
  | _ => exact .inl rfl

theorem up_step {a : ConnAction} (hs : ConnStep l a m) (hm : m.conn.state_ ≠ .kDisconnected) :
    l.conn.state_ ≠ .kDisconnected := by
  cases hs with
  | member a => exact up_member hm
  | handleWrite => rwa [handleWrite_state_] at hm
  | handleClose => rwa [up_close hm] at hm
  | @runFunctor f fs _ =>
      rcases up_run hm with h | h | h
      · rw [h] at hm
        exact hm
      · rw [h, shutdownInLoop_state_] at hm
        exact hm
      · rw [h] at hm
        exact hm
  | others => exact hm

/-! ### The channel wants to write when something is buffered -/

/-- The channel wants to write exactly when the output buffer is not empty. -/
def Buffering (l : LoopConn) : Prop :=
  l.conn.channel_.isWriting = true ↔ l.conn.outputBuffer_.readable ≠ []

theorem Buffering.readable_eq_nil (h : Buffering l) (hw : l.conn.channel_.isWriting = false) :
    l.conn.outputBuffer_.readable = [] := by
  by_contra hne
  rw [h.mpr hne] at hw
  cases hw

theorem isWriting_channelSet {i : Channel.Interest} (hi : i.writing = true) :
    (l.channelSet i).conn.channel_.isWriting = decide (i = .enableWriting) := by
  have he : (l.channelSet i).conn.channel_.events_ = i.assign l.conn.channel_.events_ :=
    set_events_ i
  rw [Channel.isWriting, he]
  cases i with
  | enableWriting => exact Mask.test_or_self (by decide) _
  | disableWriting => exact Mask.test_and_not_self _ _
  | _ => cases hi

theorem isWriting_enableWriting : l.enableWriting.conn.channel_.isWriting = true := by
  unfold enableWriting
  split
  · next hw => exact hw
  · exact isWriting_channelSet rfl

@[simp] theorem enableWriting_outputBuffer_ :
    l.enableWriting.conn.outputBuffer_ = l.conn.outputBuffer_ := by
  unfold enableWriting
  split <;> rfl

@[simp] theorem enableWriting_log : l.enableWriting.conn.log = l.conn.log := by
  unfold enableWriting
  split <;> rfl

@[simp] theorem enableWriting_socket : l.enableWriting.conn.socket = l.conn.socket := by
  unfold enableWriting
  split <;> rfl

/-- Buffering the rest of the data only adds to the buffer. -/
@[simp] theorem appendRemaining_readable (r : List UInt8) :
    (l.appendRemaining r).conn.outputBuffer_.readable = l.conn.outputBuffer_.readable ++ r := by
  unfold appendRemaining
  split
  · next h => simp [h]
  · simp [Buffer.readable_append]

@[simp] theorem appendRemaining_log (r : List UInt8) :
    (l.appendRemaining r).conn.log = l.conn.log := by
  unfold appendRemaining
  split <;> simp

@[simp] theorem appendRemaining_socket (r : List UInt8) :
    (l.appendRemaining r).conn.socket = l.conn.socket := by
  unfold appendRemaining
  split <;> simp

theorem buffering_appendRemaining (hb : Buffering l) (r : List UInt8) :
    Buffering (l.appendRemaining r) := by
  unfold Buffering
  rw [appendRemaining_readable]
  unfold appendRemaining
  split
  · next hr => simpa [hr, Buffering] using hb
  · next hr => simp [isWriting_enableWriting, hr]

theorem buffering_sendInLoop (hb : Buffering l) (data : List UInt8) :
    Buffering (l.sendInLoop data) := by
  have hw : Buffering (l.write data) := hb
  unfold sendInLoop
  split
  · exact hb
  · split
    · split
      · split
        · simp only [Buffering, queueWriteComplete_conn]
          exact hb
        · exact buffering_appendRemaining hw _
      · split
        · exact hb
        · exact buffering_appendRemaining hw _
    · exact buffering_appendRemaining hb _

theorem shutdownInLoop_channel_ : l.shutdownInLoop.conn.channel_ = l.conn.channel_ := by
  unfold shutdownInLoop
  split <;> rfl

theorem shutdownInLoop_outputBuffer_ :
    l.shutdownInLoop.conn.outputBuffer_ = l.conn.outputBuffer_ := by
  unfold shutdownInLoop
  split <;> rfl

theorem buffering_shutdownInLoop (hb : Buffering l) : Buffering l.shutdownInLoop := by
  simpa only [Buffering, shutdownInLoop_channel_, shutdownInLoop_outputBuffer_] using hb

theorem buffering_drained (h0 : l.conn.outputBuffer_.readable = []) : Buffering l.drained := by
  have hq : Buffering (l.channelSet .disableWriting).queueWriteComplete := by
    simp [Buffering, isWriting_channelSet (l := l) (i := .disableWriting) rfl, h0]
  unfold drained
  dsimp only
  split
  · exact buffering_shutdownInLoop hq
  · exact hq

theorem buffering_retrieve (hw : l.conn.channel_.isWriting = true) (n : ℕ) :
    Buffering (l.retrieve n) := by
  unfold retrieve
  dsimp only
  split
  · next h0 => exact buffering_drained (Buffer.readable_eq_nil.mpr h0)
  · next h0 =>
    rw [← Buffer.readable_eq_nil] at h0
    simpa [Buffering, hw] using h0

theorem buffering_handleWrite (hb : Buffering l) : Buffering l.handleWrite := by
  unfold handleWrite
  dsimp only
  split
  · next hw =>
    split
    · split
      · exact hb
      · exact buffering_retrieve (l := l.write l.conn.outputBuffer_.readable) hw _
    · exact hb
  · exact hb

theorem buffering_member (hb : Buffering l) (a : Member) : Buffering (l.member a) := by
  cases a with
  | send data => exact buffering_sendInLoop (l := l.record (.send data)) hb data
  | shutdown =>
      simp only [member, shutdown]
      split_ifs
      · exact buffering_shutdownInLoop hb
      · exact hb
      · exact hb
  | forceClose =>
      simp only [member, forceClose]
      split_ifs
      · exact hb
      · exact hb

theorem isWriting_channelRemove :
    l.channelRemove.conn.channel_.isWriting = l.conn.channel_.isWriting := by
  unfold Channel.isWriting
  rw [show l.channelRemove.conn.channel_.events_ = l.conn.channel_.events_ from remove_events_]

theorem buffering_channelRemove : Buffering l.channelRemove ↔ Buffering l := by
  unfold Buffering
  rw [isWriting_channelRemove]
  rfl

/-- Until the connection is disconnected, whatever happens around it. -/
theorem buffering_step {a : ConnAction} (hb : Buffering l) (hs : ConnStep l a m)
    (hm : m.conn.state_ ≠ .kDisconnected) : Buffering m := by
  cases hs with
  | member a => exact buffering_member hb a
  | handleWrite => exact buffering_handleWrite hb
  | handleClose => rwa [up_close hm]
  | @runFunctor f fs _ =>
      rcases up_run hm with h | h | h
      · rw [h]
        exact hb
      · rw [h]
        exact buffering_shutdownInLoop hb
      · rw [h]
        exact buffering_channelRemove.mpr hb
  | others => exact hb

/-- What every step keeps. -/
structure Inv (l : LoopConn) : Prop where
  registered : Registered l
  buffering : l.conn.state_ ≠ .kDisconnected → Buffering l

theorem Inv.of_quiet (h : Inv l) (q : Quiet l m) (hb : Buffering l → Buffering m) : Inv m := by
  refine ⟨q.registered, fun hs => hb (h.buffering ?_)⟩
  rcases q.state_ with e | ⟨ho, -⟩
  · rwa [← e]
  · rcases of_decide_eq_true ho with e | e <;> rw [e] <;> decide

theorem Inv.of_disconnected (h : Registered m) (hs : m.conn.state_ = .kDisconnected) : Inv m :=
  ⟨h, fun hn => absurd hs hn⟩

theorem inv_member (h : Inv l) (a : Member) : Inv (l.member a) :=
  h.of_quiet (quiet_member h.registered a) fun hb => buffering_member hb a

theorem inv_close (h : Inv l) : Inv l.close := by
  unfold close
  split
  · next ho =>
    obtain ⟨-, hr, hs, -⟩ := disconnect_spec h.registered ho
    exact .of_disconnected hr hs
  · exact h

theorem inv_destroy (h : Inv l) : Inv l.destroy := by
  refine ⟨registered_destroy h.registered, ?_⟩
  unfold destroy
  split
  · exact fun hs => absurd rfl hs
  · exact fun hs => buffering_channelRemove.mpr (h.buffering hs)

theorem inv_setPending (h : Inv l) (fs : List PendingFunctor) : Inv (l.setPending fs) :=
  ⟨⟨h.registered.inStep, h.registered.reading, h.registered.added⟩, h.buffering⟩

theorem inv_run (h : Inv l) (f : PendingFunctor) : Inv (l.run f) := by
  unfold run
  split
  · split
    · exact h.of_quiet (quiet_shutdownInLoop h.registered) buffering_shutdownInLoop
    · exact h
  · split
    · exact inv_close h
    · exact h
  · split
    · exact inv_destroy h
    · exact h
  · exact h

theorem inv_step {a : ConnAction} (h : Inv l) (hs : ConnStep l a m) : Inv m := by
  cases hs with
  | member a => exact inv_member h a
  | handleWrite =>
      exact h.of_quiet (quiet_handleWrite h.registered) buffering_handleWrite
  | handleClose => exact inv_close h
  | runFunctor => exact inv_run (inv_setPending h _) _
  | others loop _ _ hc hk =>
      exact ⟨⟨h.registered.inStep.congr hc hk, h.registered.reading, h.registered.added⟩,
        h.buffering⟩

theorem New.inStep (h : New l) : InStep l.loop.poller_ (.conn l.this) l.conn.channel_ := by
  obtain ⟨_, _, _, _, hn⟩ := h.conn
  rw [inStep_cNew (by rw [hn]; rfl)]
  exact ⟨by rw [hn]; rfl, h.channels_, h.kernel⟩

theorem New.index_ (h : New l) : l.conn.channel_.index_ = .cNew := by
  obtain ⟨_, _, _, _, hn⟩ := h.conn
  rw [hn]
  rfl

theorem inv_establish (h : New l) : Inv l.establish := by
  obtain ⟨-, hr, -, hx, -⟩ := establish_spec h.inStep h.index_
  refine ⟨hr, fun _ => ?_⟩
  have hs := set_of_inStep (show InStep (l.setState .kConnected).tie.loop.poller_ (.conn l.this)
    (l.setState .kConnected).tie.conn.channel_ from h.inStep) .enableReading
  rw [show (l.setState .kConnected).tie.conn.channel_.index_ = .cNew from h.index_] at hs
  have hc : l.establish.conn.channel_ = _ := congrArg Prod.snd hs
  obtain ⟨_, _, _, _, hn⟩ := h.conn
  have hb : l.establish.conn.outputBuffer_ = Buffer.new kInitialSize := by
    simp [establish, tie, hn, TcpConnection.new]
  rw [Buffering, hc, hb, Buffer.readable_new]
  simp [Channel.isWriting, Channel.Interest.assign]
  decide

end LoopConn
end NetworkStructure
