import NetworkStructure.HalfClose
import NetworkStructure.TcpStream

/-! # When everything has been written

`writeCompleteCallback_` is to be called each time that all data passed to `send` has been taken
by the kernel.  `sendInLoop` queues it when a direct write takes all of its data, `handleWrite`
when it has emptied the output buffer.

Both look at their own data only; that nothing else is waiting follows from the invariant of the
stream (`TcpStream.lean`): the direct write is made with an empty buffer, and what was written and
what is buffered make up what was sent, so that everything has been written exactly when nothing
is buffered (`written_eq_sent_iff`).  The invariant holds from the constructor on, since a `send`
that comes before `connectEstablished` makes the channel writing as well. -/

namespace NetworkStructure

/-- What happens to a connection from its construction on. -/
inductive SendAction where
  | connectEstablished
  | conn (a : ConnAction)

inductive SendStep (l : LoopConn) : SendAction → LoopConn → Prop
  | connectEstablished (h : l.conn.state_ = .kConnecting) :
      SendStep l .connectEstablished l.establish
  | conn {a : ConnAction} {m : LoopConn} (h : ConnStep l a m) : SendStep l (.conn a) m

namespace LoopConn

variable {l m : LoopConn}

/-- The calls of `writeCompleteCallback_` for the connection `c` that are queued. -/
def notified (l : LoopConn) (c : ConnId) : ℕ :=
  l.loop.pendingFunctors_.count (.writeCompleteCallback c)

/-- The writes on the socket so far. -/
def writes (l : LoopConn) : ℕ := l.conn.log.countP ConnEvent.isWrite

/-- The call that leads from `l` to `m` queues `writeCompleteCallback_` once if it makes a write
after which everything that was sent has been taken by the kernel, and does not otherwise. -/
def Notifies (l m : LoopConn) : Prop :=
  m.notified l.this =
    l.notified l.this + if l.writes < m.writes ∧ m.conn.written = m.conn.sent then 1 else 0

/-! ### The stream, from the constructor on -/

/-- What every step keeps. -/
structure Flowing (l : LoopConn) : Prop where
  buffering : l.conn.state_ ≠ .kDisconnected → Buffering l
  stream : StreamOk l

theorem flowing_new (h : New l) (hk : SocketOk l) : Flowing l := by
  obtain ⟨_, _, _, _, hn⟩ := h.conn
  refine ⟨fun _ => ?_, fun _ => ?_, hk⟩
  · rw [Buffering, hn, TcpConnection.new, Buffer.readable_new]
    refine iff_of_false ?_ fun hne => hne rfl
    show ¬ Mask.test 0 kWriteEvent = true
    decide
  · rw [stream, hn]
    simp [TcpConnection.written, TcpConnection.sent, TcpConnection.new]

theorem isWriting_establish :
    l.establish.conn.channel_.isWriting = l.conn.channel_.isWriting := by
  have he : l.establish.conn.channel_.events_ =
      Channel.Interest.assign .enableReading l.conn.channel_.events_ := set_events_ _
  rw [Channel.isWriting, he]
  exact Mask.test_or_of_disjoint (by decide) _

theorem sameData_establish : SameData l l.establish :=
  ⟨by simp [TcpConnection.written, establish, tie], by simp [TcpConnection.sent, establish, tie],
    rfl, rfl⟩

theorem flowing_step {a : SendAction} (h : Flowing l) (hs : SendStep l a m) : Flowing m := by
  cases hs with
  | connectEstablished hc =>
      have hup : l.conn.state_ ≠ .kDisconnected := by
        rw [hc]
        decide
      refine ⟨fun _ => ?_, h.stream.of_sameData sameData_establish fun _ => hup⟩
      rw [Buffering, isWriting_establish, sameData_establish.outputBuffer_]
      exact h.buffering hup
  | conn hc =>
      exact ⟨fun hm => buffering_step (h.buffering (up_step hc hm)) hc hm,
        streamOk_step h.buffering h.stream hc⟩

/-- Everything has been written exactly when nothing is buffered. -/
theorem written_eq_sent_iff (h : stream l = l.conn.sent) :
    l.conn.written = l.conn.sent ↔ l.conn.outputBuffer_.readable = [] := by
  rw [← h, stream]
  exact List.self_eq_append_right

/-! ### What each call queues -/

@[simp] theorem notified_record (e : ConnEvent) (c : ConnId) :
    (l.record e).notified c = l.notified c := rfl

@[simp] theorem notified_write (data : List UInt8) (c : ConnId) :
    (l.write data).notified c = l.notified c := rfl

@[simp] theorem notified_setOutputBuffer (b : Buffer) (c : ConnId) :
    (l.setOutputBuffer b).notified c = l.notified c := rfl

@[simp] theorem notified_channelSet (i : Channel.Interest) (c : ConnId) :
    (l.channelSet i).notified c = l.notified c := rfl

theorem notified_queueInLoop (f : PendingFunctor) (c : ConnId) :
    (l.queueInLoop f).notified c =
      l.notified c + if f = .writeCompleteCallback c then 1 else 0 := by
  unfold notified queueInLoop
  rw [EventLoop.queueInLoop_pendingFunctors_, List.count_append, List.count_singleton]
  simp

@[simp] theorem notified_queueHighWaterMark (n : ℕ) (c : ConnId) :
    (l.queueHighWaterMark n).notified c = l.notified c := by
  unfold queueHighWaterMark
  dsimp only
  split
  · simp [notified_queueInLoop]
  · rfl

theorem notified_queueWriteComplete (h : l.conn.writeCompleteCallback_ = true) :
    l.queueWriteComplete.notified l.this = l.notified l.this + 1 := by
  unfold queueWriteComplete
  rw [if_pos h, notified_queueInLoop, if_pos rfl]

@[simp] theorem notified_enableWriting (c : ConnId) :
    l.enableWriting.notified c = l.notified c := by
  unfold enableWriting
  split <;> simp

@[simp] theorem notified_appendRemaining (r : List UInt8) (c : ConnId) :
    (l.appendRemaining r).notified c = l.notified c := by
  unfold appendRemaining
  split <;> simp

@[simp] theorem notified_shutdownInLoop (c : ConnId) :
    l.shutdownInLoop.notified c = l.notified c := by
  unfold shutdownInLoop
  split <;> simp

@[simp] theorem writes_write (data : List UInt8) : (l.write data).writes = l.writes + 1 := by
  unfold writes
  rw [write_log, List.countP_append]
  rfl

@[simp] theorem writes_appendRemaining (r : List UInt8) :
    (l.appendRemaining r).writes = l.writes := by
  unfold writes
  rw [appendRemaining_log]

theorem writes_retrieve (n : ℕ) : (l.retrieve n).writes = l.writes := by
  unfold writes
  rcases retrieve_log (l := l) n with h | ⟨h, -⟩
  · rw [h]
  · rw [h, List.countP_append]
    rfl

theorem notified_drained (hset : l.conn.writeCompleteCallback_ = true) :
    l.drained.notified l.this = l.notified l.this + 1 := by
  have hq := notified_queueWriteComplete (l := l.channelSet .disableWriting) hset
  unfold drained
  dsimp only
  split
  · rw [notified_shutdownInLoop]
    exact hq
  · exact hq

/-- The callback is queued when the buffer has become empty. -/
theorem notified_retrieve (hset : l.conn.writeCompleteCallback_ = true) (n : ℕ) :
    (l.retrieve n).notified l.this =
      l.notified l.this + if l.conn.outputBuffer_.readable.drop n = [] then 1 else 0 := by
  have hempty : (l.conn.outputBuffer_.retrieve n).readableBytes = 0 ↔
      l.conn.outputBuffer_.readable.drop n = [] := by
    rw [← Buffer.readable_eq_nil, Buffer.readable_retrieve]
  unfold retrieve
  dsimp only
  rw [setOutputBuffer_outputBuffer_]
  split
  · next h0 =>
    rw [if_pos (hempty.mp h0)]
    exact notified_drained (l := l.setOutputBuffer (l.conn.outputBuffer_.retrieve n)) hset
  · next h0 =>
    rw [if_neg fun h => h0 (hempty.mpr h)]
    rfl

theorem le_of_wrote {len n : ℕ} (h : l.writeResult len = .wrote n) : n ≤ len := by
  unfold writeResult at h
  cases hr : l.conn.socket.headD (.failed .EWOULDBLOCK) with
  | wrote k =>
      rw [hr] at h
      cases h
      exact Nat.min_le_right k len
  | failed e =>
      rw [hr] at h
      cases h

/-- A call that leaves something buffered and queues nothing. -/
theorem notifies_of_buffered (hm : stream m = m.conn.sent)
    (hn : m.notified l.this = l.notified l.this)
    (hb : l.writes < m.writes → m.conn.outputBuffer_.readable ≠ []) : Notifies l m := by
  unfold Notifies
  rw [hn, if_neg, Nat.add_zero]
  rintro ⟨hw, he⟩
  exact hb hw ((written_eq_sent_iff hm).mp he)

/-- A call that has written everything and queues the callback. -/
theorem notifies_of_complete (hm : stream m = m.conn.sent)
    (hn : m.notified l.this = l.notified l.this + 1) (hw : m.writes = l.writes + 1)
    (hb : m.conn.outputBuffer_.readable = []) : Notifies l m := by
  unfold Notifies
  rw [hn, if_pos]
  exact ⟨by omega, (written_eq_sent_iff hm).mpr hb⟩

/-- **`sendInLoop`**: the direct write takes everything or leaves something buffered. -/
theorem notifies_sendInLoop (hb : Buffering l) (hk : SocketOk l) {data : List UInt8}
    (hup : l.conn.state_ ≠ .kDisconnected) (hne : data ≠ [])
    (hset : l.conn.writeCompleteCallback_ = true)
    (hm : stream (l.sendInLoop data) = (l.sendInLoop data).conn.sent) :
    Notifies l (l.sendInLoop data) := by
  unfold sendInLoop at hm ⊢
  rw [if_neg hup] at hm ⊢
  split
  · next hd =>
    rw [if_pos hd] at hm
    have he := hb.readable_eq_nil hd.1
    split
    · next n hr =>
      rw [hr] at hm
      dsimp only at hm
      split
      · next hn =>
        rw [if_pos hn] at hm
        refine notifies_of_complete hm ?_ ?_ ?_
        · exact notified_queueWriteComplete (l := l.write data) hset
        · simp [writes, ConnEvent.isWrite]
        · simpa using he
      · next hn =>
        rw [if_neg hn] at hm
        refine notifies_of_buffered hm (by simp) fun _ => ?_
        have hle := le_of_wrote hr
        simp only [appendRemaining_readable, write_outputBuffer_, he, List.nil_append, ne_eq,
          List.drop_eq_nil_iff]
        omega
    · next e hr =>
      obtain ⟨h₁, h₂⟩ := writeResult_ne hk hr
      have hgone : ¬ (e = .EPIPE ∨ e = .ECONNRESET) := by
        rintro (h | h) <;> contradiction
      rw [hr] at hm
      dsimp only at hm
      rw [if_neg hgone] at hm ⊢
      refine notifies_of_buffered hm (by simp) fun _ => ?_
      simp [hne]
  · next hd =>
    rw [if_neg hd] at hm
    refine notifies_of_buffered hm (by simp) fun hw => ?_
    rw [writes_appendRemaining] at hw
    omega

/-- **`handleWrite`**: the write empties the buffer or leaves something in it. -/
theorem notifies_handleWrite (hb : Buffering l) (hset : l.conn.writeCompleteCallback_ = true)
    (hm : stream l.handleWrite = l.handleWrite.conn.sent) : Notifies l l.handleWrite := by
  unfold handleWrite at hm ⊢
  dsimp only at hm ⊢
  split
  · next hw =>
    rw [if_pos hw] at hm
    have hne := hb.mp hw
    split
    · next n hr =>
      rw [hr] at hm
      dsimp only at hm
      split
      · next hn =>
        rw [if_pos hn] at hm
        exact notifies_of_buffered hm (by simp) fun _ => hne
      · next hn =>
        rw [if_neg hn] at hm
        obtain ⟨-, -, hread, -⟩ := stream_retrieve (l := l.write l.conn.outputBuffer_.readable) n
        have hwrites := writes_retrieve (l := l.write l.conn.outputBuffer_.readable) n
        have hnotified := notified_retrieve (l := l.write l.conn.outputBuffer_.readable) hset n
        rw [writes_write] at hwrites
        rw [← hread] at hnotified
        by_cases h0 :
            ((l.write l.conn.outputBuffer_.readable).retrieve n).conn.outputBuffer_.readable = []
        · rw [if_pos h0] at hnotified
          exact notifies_of_complete hm hnotified hwrites h0
        · rw [if_neg h0] at hnotified
          exact notifies_of_buffered hm hnotified fun _ => h0
    · next e hr =>
      rw [hr] at hm
      exact notifies_of_buffered hm (by simp) fun _ => hne
  · next hw =>
    rw [if_neg hw] at hm
    exact notifies_of_buffered hm rfl fun hlt => absurd hlt (Nat.lt_irrefl _)

end LoopConn

open LoopConn

/-- **The notification is exact**: whatever has happened to a connection since its construction,
as long as it is not disconnected and no write fails with `EPIPE` or `ECONNRESET`, `send` and
`handleWrite` queue `writeCompleteCallback_` exactly once if they make a write after which all data
that was ever sent has been taken by the kernel, and do not queue it otherwise. -/
theorem writeComplete_exact {l m : LoopConn} (hnew : New l) (hsocket : SocketOk l)
    {as : List SendAction} (run : Run SendStep l as m) (hup : m.conn.state_ ≠ .kDisconnected)
    (hset : m.conn.writeCompleteCallback_ = true) :
    (∀ data, data ≠ [] → Notifies m (m.send data)) ∧ Notifies m m.handleWrite := by
  have h := run.invariant (I := Flowing) (fun _ _ _ h hs => flowing_step h hs)
    (flowing_new hnew hsocket)
  refine ⟨fun data hne => ?_, ?_⟩
  · have hsent := flowing_step h (.conn (.member (.send data)))
    have hupSent : (m.send data).conn.state_ ≠ .kDisconnected := by
      rw [send, sendInLoop_state_]
      exact hup
    have hn := notifies_sendInLoop (l := m.record (.send data)) (h.buffering hup) h.stream.socket
      hup hne hset (hsent.stream.stream hupSent)
    have hw : (m.record (.send data)).writes = m.writes := by simp [writes, ConnEvent.isWrite]
    unfold Notifies at hn ⊢
    rwa [hw] at hn
  · have hwritten := flowing_step h (.conn .handleWrite)
    have hupWritten : m.handleWrite.conn.state_ ≠ .kDisconnected := by
      rw [handleWrite_state_]
      exact hup
    exact notifies_handleWrite (h.buffering hup) hset (hwritten.stream.stream hupWritten)

/-- The kernel takes one of two bytes, and then the other one, after which the callback is
queued. -/
theorem writeComplete_exact_example : ∃ m : LoopConn,
    m.conn.written = [10] ∧ m.handleWrite.conn.written = [10, 20] ∧
      m.handleWrite.loop.pendingFunctors_ = [.writeCompleteCallback 0] ∧
      Notifies m m.handleWrite := by
  have h := writeComplete_exact
    (l := ⟨{ threadId_ := 0 }, 0, 0, .new [] 5 true [.wrote 1, .wrote 1]⟩)
    ⟨⟨_, _, _, _, rfl⟩, rfl, rfl⟩ ⟨by decide, by decide⟩
    (.cons (.connectEstablished rfl) (.cons (.conn (.member (.send [10, 20]))) (.nil _)))
    (by decide +kernel) rfl
  exact ⟨_, by decide +kernel, by decide +kernel, by decide +kernel, h.2⟩

end NetworkStructure
