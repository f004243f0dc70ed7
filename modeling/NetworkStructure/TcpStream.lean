import NetworkStructure.ConnStep

/-! # The outgoing byte stream of a connection

While a connection is not disconnected, what the kernel took followed by what is buffered is
what was sent, and the channel wants to write exactly when something is buffered
(`written_append_readable`).  The two parts of the argument are separate: that the channel and
the buffer agree does not depend on the kernel's answers (`ConnStep.lean`), and the stream
equation needs that no write fails with `EPIPE` or `ECONNRESET`, after which the code drops the
data. -/

namespace NetworkStructure

namespace TcpConnection

/-- The data passed to `send`, in call order. -/
def sent (t : TcpConnection) : List UInt8 :=
  t.log.flatMap fun | .send data => data | _ => []

/-- The bytes that the kernel took, in order. -/
def written (t : TcpConnection) : List UInt8 :=
  t.log.flatMap fun | .write taken => taken | _ => []

end TcpConnection

/-- The data that a step hands to `send`. -/
def ConnAction.sends : ConnAction → List UInt8
  | member (.send data) => data
  | member .shutdown | member .forceClose | handleWrite | handleClose | runFunctor | others => []

namespace LoopConn

variable {l m : LoopConn}

/-! ### Nothing is lost, duplicated or reordered -/

/-- The kernel does not answer that the connection is gone. -/
def SocketOk (l : LoopConn) : Prop :=
  WriteResult.failed .EPIPE ∉ l.conn.socket ∧ WriteResult.failed .ECONNRESET ∉ l.conn.socket

theorem SocketOk.tail (h : SocketOk l) :
    WriteResult.failed .EPIPE ∉ l.conn.socket.tail ∧
      WriteResult.failed .ECONNRESET ∉ l.conn.socket.tail :=
  ⟨fun hm => h.1 (List.mem_of_mem_tail hm), fun hm => h.2 (List.mem_of_mem_tail hm)⟩

theorem writeResult_ne (h : SocketOk l) {n : ℕ} {e : Errno} (hr : l.writeResult n = .failed e) :
    e ≠ .EPIPE ∧ e ≠ .ECONNRESET := by
  unfold writeResult at hr
  cases hs : l.conn.socket with
  | nil =>
      rw [hs] at hr
      cases hr
      decide
  | cons r rs =>
      have hm : r ∈ l.conn.socket := by simp [hs]
      cases r with
      | wrote k => simp [hs, WriteResult.clamp] at hr
      | failed e' =>
          simp only [hs, List.headD_cons, WriteResult.clamp, WriteResult.failed.injEq] at hr
          subst hr
          exact ⟨fun he => h.1 (he ▸ hm), fun he => h.2 (he ▸ hm)⟩

theorem taken_of_wrote {data : List UInt8} {n : ℕ} (h : l.writeResult data.length = .wrote n) :
    l.taken data = data.take n := by
  rw [taken, h]

theorem taken_of_failed {data : List UInt8} {e : Errno}
    (h : l.writeResult data.length = .failed e) : l.taken data = [] := by
  rw [taken, h]

/-- `m` has the data of `l`: only events that carry no data were recorded in between. -/
structure SameData (l m : LoopConn) : Prop where
  written : m.conn.written = l.conn.written
  sent : m.conn.sent = l.conn.sent
  outputBuffer_ : m.conn.outputBuffer_ = l.conn.outputBuffer_
  socket : m.conn.socket = l.conn.socket

theorem SameData.trans {n : LoopConn} (h₁ : SameData l m) (h₂ : SameData m n) : SameData l n :=
  ⟨h₂.written.trans h₁.written, h₂.sent.trans h₁.sent, h₂.outputBuffer_.trans h₁.outputBuffer_,
    h₂.socket.trans h₁.socket⟩

/-- What the kernel took, followed by what is buffered. -/
def stream (l : LoopConn) : List UInt8 := l.conn.written ++ l.conn.outputBuffer_.readable

@[simp] theorem written_write (data : List UInt8) :
    (l.write data).conn.written = l.conn.written ++ l.taken data := by
  simp [TcpConnection.written]

@[simp] theorem sent_write (data : List UInt8) : (l.write data).conn.sent = l.conn.sent := by
  simp [TcpConnection.sent]

@[simp] theorem written_appendRemaining (r : List UInt8) :
    (l.appendRemaining r).conn.written = l.conn.written := by
  simp only [TcpConnection.written, appendRemaining_log]

@[simp] theorem sent_appendRemaining (r : List UInt8) :
    (l.appendRemaining r).conn.sent = l.conn.sent := by
  simp only [TcpConnection.sent, appendRemaining_log]

@[simp] theorem sent_sendInLoop (data : List UInt8) :
    (l.sendInLoop data).conn.sent = l.conn.sent := by
  unfold sendInLoop
  split
  · rfl
  · split
    · split
      · split <;> simp
      · split <;> simp
    · simp

/-- `sendInLoop` adds the data to the stream: what the kernel does not take is buffered behind
what was already there. -/
theorem stream_sendInLoop (hs : l.conn.state_ ≠ .kDisconnected) (hb : Buffering l)
    (hk : SocketOk l) (data : List UInt8) :
    stream (l.sendInLoop data) = stream l ++ data ∧ SocketOk (l.sendInLoop data) := by
  unfold sendInLoop
  rw [if_neg hs]
  split
  · next hd =>
    have he := hb.readable_eq_nil hd.1
    split
    · next n hr =>
      have ht := taken_of_wrote hr
      split
      · next hn =>
        refine ⟨?_, ?_⟩
        · simp [stream, ht, he, hn]
        · simpa [SocketOk] using hk.tail
      · refine ⟨?_, by simpa [SocketOk] using hk.tail⟩
        simp [stream, ht, he]
    · next e hr =>
      obtain ⟨h₁, h₂⟩ := writeResult_ne hk hr
      rw [if_neg (by rintro (h | h) <;> contradiction)]
      refine ⟨?_, by simpa [SocketOk] using hk.tail⟩
      simp [stream, taken_of_failed hr]
  · refine ⟨?_, by simpa [SocketOk] using hk⟩
    simp [stream]

theorem sameData_shutdownInLoop : SameData l l.shutdownInLoop := by
  unfold shutdownInLoop
  split
  · exact ⟨rfl, rfl, rfl, rfl⟩
  · exact ⟨by simp [TcpConnection.written], by simp [TcpConnection.sent], rfl, rfl⟩

theorem sameData_drained : SameData l l.drained := by
  have hq : SameData l (l.channelSet .disableWriting).queueWriteComplete :=
    ⟨by simp [TcpConnection.written], by simp [TcpConnection.sent], by simp, by simp⟩
  unfold drained
  dsimp only
  split
  · exact hq.trans sameData_shutdownInLoop
  · exact hq

/-- `handleWrite` moves bytes from the buffer to the kernel. -/
theorem stream_retrieve (n : ℕ) :
    (l.retrieve n).conn.written = l.conn.written ∧ (l.retrieve n).conn.sent = l.conn.sent ∧
      (l.retrieve n).conn.outputBuffer_.readable = l.conn.outputBuffer_.readable.drop n ∧
      (l.retrieve n).conn.socket = l.conn.socket := by
  unfold retrieve
  dsimp only
  split
  · obtain ⟨hw, hs, ho, hk⟩ :=
      sameData_drained (l := l.setOutputBuffer (l.conn.outputBuffer_.retrieve n))
    rw [hw, hs, ho, hk]
    simp [TcpConnection.written, TcpConnection.sent, Buffer.readable_retrieve]
  · simp [TcpConnection.written, TcpConnection.sent, Buffer.readable_retrieve]

@[simp] theorem sent_handleWrite : l.handleWrite.conn.sent = l.conn.sent := by
  unfold handleWrite
  dsimp only
  split
  · split
    · split
      · simp
      · rw [(stream_retrieve _).2.1, sent_write]
    · simp
  · rfl

theorem stream_handleWrite (hk : SocketOk l) :
    stream l.handleWrite = stream l ∧ SocketOk l.handleWrite := by
  unfold handleWrite
  dsimp only
  split
  · split
    · next n hr =>
      have ht := taken_of_wrote hr
      split
      · next hn =>
        refine ⟨?_, by simpa [SocketOk] using hk.tail⟩
        simp [stream, ht, hn]
      · obtain ⟨hw, -, ho, hsk⟩ :=
          stream_retrieve (l := l.write l.conn.outputBuffer_.readable) n
        refine ⟨?_, by simpa [SocketOk, hsk] using hk.tail⟩
        simp only [stream, hw, ho, written_write, ht, write_outputBuffer_, List.append_assoc,
          List.take_append_drop]
    · next e hr =>
      refine ⟨?_, by simpa [SocketOk] using hk.tail⟩
      simp [stream, taken_of_failed hr]
  · exact ⟨rfl, hk⟩

/-- The stream equation, and the kernel's coming answers. -/
structure StreamOk (l : LoopConn) : Prop where
  stream : l.conn.state_ ≠ .kDisconnected → stream l = l.conn.sent
  socket : SocketOk l

theorem StreamOk.of_sameData (h : StreamOk l) (hd : SameData l m)
    (hs : m.conn.state_ ≠ .kDisconnected → l.conn.state_ ≠ .kDisconnected) : StreamOk m := by
  refine ⟨fun hm => ?_, by simpa only [SocketOk, hd.socket] using h.socket⟩
  rw [LoopConn.stream, hd.written, hd.outputBuffer_, hd.sent]
  exact h.stream (hs hm)

theorem sameData_setState (s : StateE) : SameData l (l.setState s) :=
  ⟨by simp [TcpConnection.written], by simp [TcpConnection.sent], rfl, rfl⟩

theorem sameData_queueInLoop (f : PendingFunctor) : SameData l (l.queueInLoop f) :=
  ⟨rfl, rfl, rfl, rfl⟩

theorem streamOk_member (hb : l.conn.state_ ≠ .kDisconnected → Buffering l) (hst : StreamOk l)
    (a : Member) : StreamOk (l.member a) := by
  cases a with
  | send data =>
      by_cases hs : l.conn.state_ = .kDisconnected
      · refine ⟨fun hm => absurd hs (up_member hm), ?_⟩
        rw [member, send, sendInLoop_of_kDisconnected (l := l.record (.send data)) hs]
        exact hst.socket
      · obtain ⟨hw, hk⟩ := stream_sendInLoop (l := l.record (.send data)) hs (hb hs) hst.socket data
        have hn := sent_sendInLoop (l := l.record (.send data)) data
        refine ⟨fun _ => ?_, hk⟩
        have e := hst.stream hs
        simp only [stream, TcpConnection.written, TcpConnection.sent] at e hw hn ⊢
        rw [member, send, hw, hn]
        simp [e]
  | shutdown =>
      refine hst.of_sameData ?_ up_member
      simp only [member, shutdown]
      split_ifs
      · exact (sameData_setState _).trans sameData_shutdownInLoop
      · exact (sameData_setState _).trans (sameData_queueInLoop _)
      · exact ⟨rfl, rfl, rfl, rfl⟩
  | forceClose =>
      refine hst.of_sameData ?_ up_member
      simp only [member, forceClose]
      split_ifs
      · exact (sameData_setState _).trans (sameData_queueInLoop _)
      · exact ⟨rfl, rfl, rfl, rfl⟩

theorem streamOk_close (hst : StreamOk l) : StreamOk l.close := by
  unfold close
  split
  · exact ⟨fun hm => absurd rfl hm, hst.socket⟩
  · exact hst

theorem streamOk_destroy (hst : StreamOk l) : StreamOk l.destroy := by
  unfold destroy
  split
  · exact ⟨fun hm => absurd rfl hm, hst.socket⟩
  · exact ⟨hst.stream, hst.socket⟩

theorem streamOk_step {a : ConnAction} (hb : l.conn.state_ ≠ .kDisconnected → Buffering l)
    (hst : StreamOk l) (hs : ConnStep l a m) : StreamOk m := by
  cases hs with
  | member a => exact streamOk_member hb hst a
  | handleWrite =>
      obtain ⟨hw, hk⟩ := stream_handleWrite hst.socket
      refine ⟨fun hm => ?_, hk⟩
      rw [hw, sent_handleWrite]
      exact hst.stream (by rwa [handleWrite_state_] at hm)
  | handleClose => exact streamOk_close hst
  | runFunctor hf =>
      rename_i f fs
      have hst' : StreamOk (l.setPending fs) := ⟨hst.stream, hst.socket⟩
      unfold run
      split
      · split
        · exact hst'.of_sameData sameData_shutdownInLoop fun hm => by
            rwa [shutdownInLoop_state_] at hm
        · exact hst'
      · split
        · exact streamOk_close hst'
        · exact hst'
      · split
        · exact streamOk_destroy hst'
        · exact hst'
      · exact hst'
  | others loop _ _ _ _ => exact ⟨hst.stream, hst.socket⟩

theorem streamOk_establish (h : New l) (hk : SocketOk l) : StreamOk l.establish := by
  obtain ⟨_, _, _, _, hn⟩ := h.conn
  refine ⟨fun _ => ?_, hk⟩
  simp [stream, TcpConnection.written, TcpConnection.sent, establish, tie, hn, TcpConnection.new]

/-! ### What is sent is what the calls hand over -/

theorem sent_close : l.close.conn.sent = l.conn.sent := by
  unfold close
  split
  · exact (sameData_setState _).sent
  · rfl

theorem sent_destroy : l.destroy.conn.sent = l.conn.sent := by
  unfold destroy
  split
  · exact (sameData_setState _).sent
  · rfl

theorem sent_run (f : PendingFunctor) : (l.run f).conn.sent = l.conn.sent := by
  unfold run
  split
  · split
    · exact sameData_shutdownInLoop.sent
    · rfl
  · split
    · exact sent_close
    · rfl
  · split
    · exact sent_destroy
    · rfl
  · rfl

theorem sent_member (a : Member) :
    (l.member a).conn.sent = l.conn.sent ++ (ConnAction.member a).sends := by
  cases a with
  | send data =>
      rw [member, send, sent_sendInLoop]
      simp [TcpConnection.sent, ConnAction.sends]
  | shutdown =>
      rw [ConnAction.sends, List.append_nil, member, shutdown]
      split_ifs
      · exact ((sameData_setState _).trans sameData_shutdownInLoop).sent
      · exact ((sameData_setState _).trans (sameData_queueInLoop _)).sent
      · rfl
  | forceClose =>
      rw [ConnAction.sends, List.append_nil, member, forceClose]
      split_ifs
      · exact ((sameData_setState _).trans (sameData_queueInLoop _)).sent
      · rfl

/-- A step sends what its label says. -/
theorem sent_step {a : ConnAction} (hs : ConnStep l a m) :
    m.conn.sent = l.conn.sent ++ a.sends := by
  cases hs with
  | member a => exact sent_member a
  | handleWrite => rw [sent_handleWrite, ConnAction.sends, List.append_nil]
  | handleClose => rw [sent_close, ConnAction.sends, List.append_nil]
  | runFunctor h =>
      rw [sent_run, ConnAction.sends, List.append_nil]
      rfl
  | others => exact (List.append_nil _).symm

theorem sent_establish (h : New l) : l.establish.conn.sent = [] := by
  obtain ⟨_, _, _, _, hn⟩ := h.conn
  simp [TcpConnection.sent, establish, tie, hn, TcpConnection.new]

end LoopConn

open LoopConn

/-- **Outgoing byte-stream integrity**: whatever happens around an established connection, if
no write fails with `EPIPE` or `ECONNRESET` then, until it is disconnected, the bytes the
kernel took, followed by the buffered bytes, are the data passed to `send` in call order, and
the channel is enabled for writing exactly when something is buffered. -/
theorem written_append_readable {l m : LoopConn} (hnew : New l) (hsocket : SocketOk l)
    {as : List ConnAction} (run : Run ConnStep l.establish as m)
    (hup : m.conn.state_ ≠ .kDisconnected) :
    m.conn.sent = as.flatMap ConnAction.sends ∧
      m.conn.written ++ m.conn.outputBuffer_.readable = m.conn.sent ∧
      (m.conn.channel_.isWriting = true ↔ m.conn.outputBuffer_.readable ≠ []) := by
  obtain ⟨hinv, hst⟩ := Run.invariant (I := fun l => Inv l ∧ StreamOk l)
    (fun _ _ _ h hs => ⟨inv_step h.1 hs, streamOk_step h.1.buffering h.2 hs⟩) run
    ⟨inv_establish hnew, streamOk_establish hnew hsocket⟩
  have hsent : m.conn.sent = l.establish.conn.sent ++ as.flatMap ConnAction.sends :=
    run.observed (I := fun _ => True) (f := fun l => l.conn.sent) (fun _ _ _ _ _ => trivial)
      (fun _ _ _ _ hs => sent_step hs) trivial
  rw [sent_establish hnew, List.nil_append] at hsent
  exact ⟨hsent, hst.stream hup, hinv.buffering hup⟩

/-- The kernel takes one of two bytes, then the other from the buffer, and then what is sent. -/
theorem written_append_readable_example :
    ∃ l m : LoopConn,
      Run ConnStep l.establish [.member (.send [10, 20]), .handleWrite, .member (.send [30])] m ∧
        m.conn.written = [10, 20] ∧ m.conn.outputBuffer_.readable = [30] ∧
        m.conn.sent = [10, 20, 30] ∧
        m.conn.written ++ m.conn.outputBuffer_.readable = m.conn.sent ∧
        (m.conn.channel_.isWriting = true ↔ m.conn.outputBuffer_.readable ≠ []) := by
  have run := Run.cons (ConnStep.member (l := establish ⟨{ threadId_ := 0 }, 1, 0,
      .new [] 5 false [.wrote 1, .wrote 1, .failed .EWOULDBLOCK]⟩) (.send [10, 20]))
    (.cons .handleWrite (.cons (.member (.send [30])) (.nil _)))
  obtain ⟨hsent, hstream, hwriting⟩ := written_append_readable
    ⟨⟨_, _, _, _, rfl⟩, rfl, rfl⟩ ⟨by decide, by decide⟩ run (by decide +kernel)
  exact ⟨_, _, run, by decide +kernel, by decide +kernel, hsent.trans (by simp [ConnAction.sends]),
    hstream, hwriting⟩

end NetworkStructure
