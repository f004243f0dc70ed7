import NetworkStructure.ConnStep

/-! # Half-closing a connection

`shutdown` is to close the writing side after everything has been written: `ShutdownWrite` is
issued when the output buffer is empty, and no write follows it (`HalfCloseOk`).

`send` does not look at `kDisconnecting`, so a `send` after `ShutdownWrite` writes to the
socket; and `handleClose` takes the channel's interest in writing away, so that a
`shutdownInLoop` queued before it finds a channel that is not writing and a buffer that is not
empty.  `halfClose_iff` says that these two are the only ways to go wrong. -/

namespace NetworkStructure

namespace ConnEvent

def isWrite : ConnEvent → Bool
  | write _ => true
  | _ => false

def isShutdownWrite : ConnEvent → Bool
  | shutdownWrite _ => true
  | _ => false

end ConnEvent

/-- `ShutdownWrite` has been issued. -/
def HalfClosed (log : List ConnEvent) : Prop := ∃ e ∈ log, e.isShutdownWrite = true

/-- `ShutdownWrite` was issued only with an empty output buffer, and no write follows it. -/
def HalfCloseOk (log : List ConnEvent) : Prop :=
  (∀ unsent, ConnEvent.shutdownWrite unsent ∈ log → unsent = []) ∧
    log.Pairwise fun e f => e.isShutdownWrite = true → f.isWrite = false

theorem halfClosed_snoc {log : List ConnEvent} {e : ConnEvent} :
    HalfClosed (log ++ [e]) ↔ HalfClosed log ∨ e.isShutdownWrite = true := by
  simp [HalfClosed, or_and_right, exists_or]

theorem halfCloseOk_snoc {log : List ConnEvent} {e : ConnEvent} :
    HalfCloseOk (log ++ [e]) ↔ HalfCloseOk log ∧
      (∀ unsent, e = .shutdownWrite unsent → unsent = []) ∧
        (e.isWrite = true → ¬ HalfClosed log) := by
  simp only [HalfCloseOk, List.pairwise_append, List.mem_append, List.mem_singleton,
    List.pairwise_singleton, HalfClosed]
  constructor
  · rintro ⟨hu, hp, -, hc⟩
    refine ⟨⟨fun u hm => hu u (.inl hm), hp⟩, fun u he => hu u (.inr he.symm), ?_⟩
    rintro hw ⟨f, hf, hs⟩
    rw [hc f hf e rfl hs] at hw
    cases hw
  · rintro ⟨⟨hu, hp⟩, he, hw⟩
    refine ⟨?_, hp, trivial, ?_⟩
    · rintro u (hm | hm)
      · exact hu u hm
      · exact he u hm.symm
    · rintro f hf _ rfl hs
      rw [Bool.eq_false_iff]
      exact fun h => hw h ⟨f, hf, hs⟩

namespace LoopConn

variable {l m : LoopConn}

/-- The condition on a step.  A `send` does not come between `ShutdownWrite` and the end of the
connection, and a queued `shutdownInLoop` does not run after the end of the connection when
there is unsent output. -/
def KeepsHalfClose (l : LoopConn) (a : ConnAction) (_ : LoopConn) : Prop :=
  (∀ data, a = .member (.send data) → l.conn.state_ ≠ .kDisconnected →
    ¬ HalfClosed l.conn.log) ∧
  (a = .runFunctor → l.loop.pendingFunctors_.head? = some (.shutdownInLoop l.this) →
    l.conn.state_ = .kDisconnected → l.conn.outputBuffer_.readable = [])

/-- The invariant of the steps that meet the condition. -/
structure HalfInv (l : LoopConn) : Prop where
  inv : Inv l
  ok : HalfCloseOk l.conn.log
  /-- After `ShutdownWrite` nothing waits to be written. -/
  closed : HalfClosed l.conn.log → l.conn.channel_.isWriting = false
  gone : l.conn.state_ = .kDisconnected → l.conn.channel_.index_ ≠ .cAdded

theorem HalfInv.not_writing (h : HalfInv l) (hs : l.conn.state_ = .kDisconnected) :
    l.conn.channel_.isWriting = false := by
  rw [Bool.eq_false_iff]
  exact fun hw => h.gone hs (h.inv.registered.index_of_isWriting hw)

theorem HalfInv.of_quiet (h : HalfInv l) (q : Quiet l m) (hm : Inv m)
    (ok : HalfCloseOk m.conn.log)
    (closed : HalfClosed m.conn.log → m.conn.channel_.isWriting = false) : HalfInv m := by
  refine ⟨hm, ok, closed, fun hs => ?_⟩
  rw [q.index_]
  rcases q.state_ with e | ⟨-, e⟩
  · exact h.gone (e ▸ hs)
  · rw [e] at hs
    cases hs

/-- An event that is neither a write nor `ShutdownWrite` changes nothing. -/
theorem halfCloseOk_neutral (log : List ConnEvent) {e : ConnEvent} (hw : e.isWrite = false)
    (hs : e.isShutdownWrite = false) :
    (HalfCloseOk (log ++ [e]) ↔ HalfCloseOk log) ∧ (HalfClosed (log ++ [e]) ↔ HalfClosed log) := by
  refine ⟨halfCloseOk_snoc.trans (and_iff_left ⟨?_, by simp [hw]⟩),
    halfClosed_snoc.trans (or_iff_left (by simp [hs]))⟩
  rintro u rfl
  cases hs

theorem HalfInv.setState_log (h : HalfInv l) (s : StateE) :
    HalfCloseOk (l.setState s).conn.log ∧
      (HalfClosed (l.setState s).conn.log → l.conn.channel_.isWriting = false) := by
  obtain ⟨h₁, h₂⟩ := halfCloseOk_neutral l.conn.log (e := .setState s) rfl rfl
  exact ⟨h₁.mpr h.ok, fun hc => h.closed (h₂.mp hc)⟩

/-! ### Sending -/

/-- `sendInLoop` writes to the socket when nothing is buffered. -/
theorem sendInLoop_log (hs : l.conn.state_ ≠ .kDisconnected) (data : List UInt8) :
    (l.sendInLoop data).conn.log =
      if l.conn.channel_.isWriting = false ∧ l.conn.outputBuffer_.readableBytes = 0 then
        l.conn.log ++ [.write (l.taken data)]
      else l.conn.log := by
  unfold sendInLoop
  rw [if_neg hs]
  split
  · split
    · split <;> simp
    · split <;> simp
  · simp

theorem halfInv_send (h : HalfInv l) (data : List UInt8)
    (hk : l.conn.state_ ≠ .kDisconnected → ¬ HalfClosed l.conn.log) : HalfInv (l.send data) := by
  have hm : Inv (l.send data) := inv_member h.inv (.send data)
  obtain ⟨h₁, h₂⟩ := halfCloseOk_neutral l.conn.log (e := .send data) rfl rfl
  by_cases hs : l.conn.state_ = .kDisconnected
  · have he : l.send data = l.record (.send data) :=
      sendInLoop_of_kDisconnected (l := l.record (.send data)) hs data
    rw [he] at hm ⊢
    exact ⟨hm, h₁.mpr h.ok, fun hc => h.closed (h₂.mp hc), h.gone⟩
  · have hl := sendInLoop_log (l := l.record (.send data)) hs data
    have hc : ¬ HalfClosed (l.send data).conn.log := by
      rw [send, hl]
      split
      · rw [halfClosed_snoc, record_log, h₂]
        rintro (hc | hc)
        · exact hk hs hc
        · cases hc
      · exact fun hc => hk hs (h₂.mp hc)
    refine h.of_quiet (quiet_send h.inv.registered data) hm ?_ fun hc' => absurd hc' hc
    rw [send, hl]
    split
    · rw [halfCloseOk_snoc]
      refine ⟨h₁.mpr h.ok, ?_, fun _ hc => hk hs (h₂.mp hc)⟩
      intro unsent he
      cases he
    · exact h₁.mpr h.ok

/-- A `send` after `ShutdownWrite` writes. -/
theorem not_halfCloseOk_send (h : HalfInv l) (hs : l.conn.state_ ≠ .kDisconnected)
    (hc : HalfClosed l.conn.log) (data : List UInt8) :
    ¬ HalfCloseOk (l.send data).conn.log := by
  have hw := h.closed hc
  have hr := Buffer.readable_eq_nil.mp ((h.inv.buffering hs).readable_eq_nil hw)
  rw [send, sendInLoop_log (l := l.record (.send data)) hs, if_pos ⟨hw, hr⟩, halfCloseOk_snoc]
  rintro ⟨-, -, hn⟩
  exact hn rfl (halfClosed_snoc.mpr (.inl hc))

/-! ### Shutting down -/

theorem shutdownInLoop_log :
    l.shutdownInLoop.conn.log =
      if l.conn.channel_.isWriting then l.conn.log
      else l.conn.log ++ [.shutdownWrite l.conn.outputBuffer_.readable] := by
  unfold shutdownInLoop
  split <;> rfl

theorem halfInv_shutdownInLoop (h : HalfInv l)
    (hr : l.conn.channel_.isWriting = false → l.conn.outputBuffer_.readable = []) :
    HalfInv l.shutdownInLoop := by
  have q := quiet_shutdownInLoop h.inv.registered
  refine h.of_quiet q (h.inv.of_quiet q buffering_shutdownInLoop) ?_ ?_
  · rw [shutdownInLoop_log]
    split
    · exact h.ok
    · next hw =>
      rw [halfCloseOk_snoc]
      refine ⟨h.ok, ?_, fun hw => by cases hw⟩
      rintro u ⟨⟩
      exact hr (Bool.eq_false_iff.mpr hw)
  · rw [shutdownInLoop_log, shutdownInLoop_channel_]
    split
    · exact h.closed
    · next hw => exact fun _ => Bool.eq_false_iff.mpr hw

/-- `shutdownInLoop` after the end of the connection, with unsent output. -/
theorem not_halfCloseOk_shutdownInLoop (hw : l.conn.channel_.isWriting = false)
    (hr : l.conn.outputBuffer_.readable ≠ []) : ¬ HalfCloseOk l.shutdownInLoop.conn.log := by
  rw [shutdownInLoop_log, hw]
  rintro ⟨hu, -⟩
  exact hr (hu _ (by simp))

theorem halfInv_setState (h : HalfInv l) (ho : l.isOpen = true) :
    HalfInv (l.setState .kDisconnecting) := by
  obtain ⟨h₁, h₂⟩ := h.setState_log .kDisconnecting
  have q := quiet_kDisconnecting h.inv.registered ho
  exact h.of_quiet q (h.inv.of_quiet q fun hb => hb) h₁ h₂

theorem halfInv_queueInLoop (h : HalfInv l) {f : PendingFunctor} (ht : f.target = some l.this)
    (hf : f.life = false) (ho : f = .shutdownInLoop l.this → l.isOpen = true) :
    HalfInv (l.queueInLoop f) := by
  have q := quiet_queueInLoop h.inv.registered ht hf ho
  exact h.of_quiet q (h.inv.of_quiet q fun hb => hb) h.ok h.closed

theorem halfInv_shutdown (h : HalfInv l) : HalfInv l.shutdown := by
  unfold shutdown
  split
  · next hs =>
    have h' := halfInv_setState h (by simp [isOpen, hs])
    split
    · refine halfInv_shutdownInLoop h' (h.inv.buffering ?_).readable_eq_nil
      rw [hs]
      decide
    · exact halfInv_queueInLoop h' rfl rfl fun _ => rfl
  · exact h

theorem halfInv_forceClose (h : HalfInv l) : HalfInv l.forceClose := by
  unfold forceClose
  split
  · next ho => exact halfInv_queueInLoop (halfInv_setState h ho) rfl rfl (by simp)
  · exact h

/-! ### Writing, closing -/

theorem drained_log (h0 : l.conn.outputBuffer_.readable = []) :
    l.drained.conn.log = l.conn.log ∨
      l.drained.conn.log = l.conn.log ++ [.shutdownWrite []] ∧
        l.drained.conn.channel_.isWriting = false := by
  have hd := isWriting_channelSet (l := l) (i := .disableWriting) rfl
  unfold drained
  dsimp only
  split
  · refine .inr ⟨?_, ?_⟩
    · rw [shutdownInLoop_log]
      simp [hd, h0]
    · rw [shutdownInLoop_channel_]
      simpa using hd
  · exact .inl (by simp)

/-- After it has taken bytes from the buffer, `handleWrite` may issue `ShutdownWrite`, with the
buffer empty. -/
theorem retrieve_log (n : ℕ) :
    (l.retrieve n).conn.log = l.conn.log ∨
      (l.retrieve n).conn.log = l.conn.log ++ [.shutdownWrite []] ∧
        (l.retrieve n).conn.channel_.isWriting = false := by
  unfold retrieve
  dsimp only
  split
  · next h0 =>
    exact drained_log (l := l.setOutputBuffer (l.conn.outputBuffer_.retrieve n))
      (Buffer.readable_eq_nil.mpr h0)
  · exact .inl rfl

theorem handleWrite_log (hw : l.conn.channel_.isWriting = true) :
    ∃ taken, l.handleWrite.conn.log = l.conn.log ++ [.write taken] ∨
      l.handleWrite.conn.log = l.conn.log ++ [.write taken] ++ [.shutdownWrite []] ∧
        l.handleWrite.conn.channel_.isWriting = false := by
  refine ⟨l.taken l.conn.outputBuffer_.readable, ?_⟩
  unfold handleWrite
  rw [if_pos hw]
  dsimp only
  split
  · next n _ =>
    split
    · exact .inl rfl
    · exact retrieve_log (l := l.write l.conn.outputBuffer_.readable) n
  · exact .inl rfl

theorem halfInv_handleWrite (h : HalfInv l) : HalfInv l.handleWrite := by
  by_cases hw : l.conn.channel_.isWriting = true
  · have q := quiet_handleWrite h.inv.registered
    have hm := h.inv.of_quiet q buffering_handleWrite
    -- a channel that is writing has not been shut down
    have hn : ¬ HalfClosed l.conn.log := fun hc => by
      rw [h.closed hc] at hw
      cases hw
    obtain ⟨taken, hl⟩ := handleWrite_log hw
    have hok : HalfCloseOk (l.conn.log ++ [.write taken]) :=
      halfCloseOk_snoc.mpr ⟨h.ok, fun _ he => (nomatch he), fun _ => hn⟩
    rcases hl with hl | ⟨hl, hd⟩
    · refine h.of_quiet q hm (hl ▸ hok) fun hc => ?_
      rw [hl, halfClosed_snoc] at hc
      exact hc.elim (fun hc => absurd hc hn) fun hc => nomatch hc
    · refine h.of_quiet q hm ?_ fun _ => hd
      rw [hl, halfCloseOk_snoc]
      exact ⟨hok, fun _ he => (ConnEvent.shutdownWrite.inj he).symm, fun hc => nomatch hc⟩
  · have he : l.handleWrite = l := by simp [handleWrite, hw]
    rw [he]
    exact h

theorem halfInv_disconnect (h : HalfInv l) (ho : l.isOpen = true) : HalfInv l.disconnect := by
  obtain ⟨-, hr, hs, hx, he, -, hl⟩ := disconnect_spec h.inv.registered ho
  obtain ⟨h₁, -⟩ := h.setState_log .kDisconnected
  refine ⟨.of_disconnected hr hs, hl ▸ h₁, fun _ => ?_, fun _ => ?_⟩
  · rw [Channel.isWriting, he, Mask.test_zero]
  · rw [hx]
    decide

theorem halfInv_close (h : HalfInv l) : HalfInv l.close := by
  unfold close
  split
  · next ho => exact halfInv_disconnect h ho
  · exact h

theorem halfInv_channelRemove (h : HalfInv l) : HalfInv l.channelRemove := by
  have hb := buffering_channelRemove (l := l)
  have hr := registered_channelRemove h.inv.registered
  refine ⟨⟨hr, fun hs => hb.mpr (h.inv.buffering hs)⟩, h.ok, fun hc => ?_, fun hs hx => ?_⟩
  · rw [isWriting_channelRemove]
    exact h.closed hc
  · have hi : l.channelRemove.conn.channel_.index_ = l.conn.channel_.index_ ∨
        l.channelRemove.conn.channel_.index_ = .cNew := remove_index_
    rcases hi with hi | hi
    · exact h.gone hs (hi ▸ hx)
    · rw [hi] at hx
      cases hx

theorem halfInv_destroy (h : HalfInv l) : HalfInv l.destroy := by
  unfold destroy
  split
  · next hc =>
    have hs : l.conn.state_ = .kConnected := of_decide_eq_true hc
    exact halfInv_channelRemove (halfInv_disconnect h (by simp [isOpen, hs]))
  · exact halfInv_channelRemove h

/-! ### Steps and runs -/

theorem halfInv_setPending (h : HalfInv l) (fs : List PendingFunctor) :
    HalfInv (l.setPending fs) :=
  ⟨inv_setPending h.inv fs, h.ok, h.closed, h.gone⟩

theorem halfInv_step {a : ConnAction} (h : HalfInv l) (hs : ConnStep l a m)
    (hk : KeepsHalfClose l a m) : HalfInv m := by
  cases hs with
  | member a =>
      cases a with
      | send data => exact halfInv_send h data (hk.1 data rfl)
      | shutdown => exact halfInv_shutdown h
      | forceClose => exact halfInv_forceClose h
  | handleWrite => exact halfInv_handleWrite h
  | handleClose => exact halfInv_close h
  | @runFunctor f fs hf =>
      have h' := halfInv_setPending h fs
      unfold run
      split
      · next c =>
        split
        · next hc =>
          refine halfInv_shutdownInLoop h' fun hw => ?_
          by_cases hs : l.conn.state_ = .kDisconnected
          · refine hk.2 rfl ?_ hs
            rw [hf, hc]
            rfl
          · exact (h.inv.buffering hs).readable_eq_nil hw
        · exact h'
      · split
        · exact halfInv_close h'
        · exact h'
      · split
        · exact halfInv_destroy h'
        · exact h'
      · exact h'
  | others loop ht hf hc hk' =>
      exact ⟨inv_step h.inv (.others loop ht hf hc hk'), h.ok, h.closed, h.gone⟩

/-- A step that does not meet the condition goes wrong. -/
theorem keeps_of_halfCloseOk {a : ConnAction} (h : HalfInv l) (hs : ConnStep l a m)
    (hok : HalfCloseOk m.conn.log) : KeepsHalfClose l a m := by
  cases hs with
  | member a =>
      refine ⟨?_, fun he => nomatch he⟩
      rintro data ⟨⟩ hs hc
      exact not_halfCloseOk_send h hs hc data hok
  | @runFunctor f fs hf =>
      refine ⟨fun _ he => (nomatch he), fun _ hh hs => ?_⟩
      rw [hf, List.head?_cons, Option.some.injEq] at hh
      subst hh
      by_contra hr
      apply not_halfCloseOk_shutdownInLoop (l := l.setPending fs) (h.not_writing hs) hr
      simpa [run, setPending] using hok
  | handleWrite => exact ⟨fun _ he => (nomatch he), fun he => nomatch he⟩
  | handleClose => exact ⟨fun _ he => (nomatch he), fun he => nomatch he⟩
  | others => exact ⟨fun _ he => (nomatch he), fun he => nomatch he⟩

theorem halfInv_establish (h : New l) : HalfInv l.establish := by
  obtain ⟨-, -, hs, -, -, -, hl⟩ := establish_spec h.inStep h.index_
  have he : l.establish.conn.log = [.setState .kConnected] := by
    obtain ⟨_, _, _, _, hn⟩ := h.conn
    rw [hl, hn]
    rfl
  refine ⟨inv_establish h, ?_, fun hc => ?_, fun hd => ?_⟩
  · rw [he]
    exact ⟨by simp, by simp⟩
  · rw [he] at hc
    simp [HalfClosed, ConnEvent.isShutdownWrite] at hc
  · rw [hs] at hd
    cases hd

end LoopConn

open LoopConn

/-- **Half-close ordering**: in a run around an established connection, every step keeps
`HalfCloseOk` if and only if no `send` comes between a `ShutdownWrite` and the end of the
connection, and no queued `shutdownInLoop` runs after the end of the connection with unsent
output. -/
theorem halfClose_iff {l m : LoopConn} (hnew : New l) (as : List ConnAction) :
    RunWith ConnStep (fun _ _ m => HalfCloseOk m.conn.log) l.establish as m ↔
      RunWith ConnStep KeepsHalfClose l.establish as m :=
  runWith_iff (I := HalfInv) (fun _ _ _ h hs hk => halfInv_step h hs hk)
    (fun _ _ _ h hs => ⟨keeps_of_halfCloseOk h hs, fun hk => (halfInv_step h hs hk).ok⟩)
    (halfInv_establish hnew)

/-- The application shuts an idle connection down and the loop runs `shutdownInLoop`. -/
theorem halfClose_iff_example :
    ∃ m, RunWith ConnStep (fun _ _ m => HalfCloseOk m.conn.log)
      (LoopConn.establish ⟨{ threadId_ := 0 }, 1, 0, .new [] 5 false []⟩)
      [.member .shutdown, .runFunctor] m ∧ HalfClosed m.conn.log := by
  refine ⟨_, (halfClose_iff ⟨⟨_, _, _, _, rfl⟩, rfl, rfl⟩ _).mpr
    (.cons ⟨.member _, (fun _ he => nomatch he), fun he => nomatch he⟩
      (.cons ⟨.runFunctor rfl, (fun _ he => nomatch he), fun _ _ hs => ?_⟩ (.nil _))),
    .shutdownWrite [], ?_, rfl⟩
  · revert hs
    decide
  · decide

/-- The same, and then a `send`: it writes to the socket after `ShutdownWrite`. -/
theorem not_halfCloseOk :
    ∃ m, Run ConnStep (LoopConn.establish ⟨{ threadId_ := 0 }, 1, 0, .new [] 5 false []⟩)
        [.member .shutdown, .runFunctor, .member (.send [120])] m ∧
      m.conn.log = [.setState .kConnected, .setState .kDisconnecting, .shutdownWrite [],
        .send [120], .write []] ∧
      ¬ HalfCloseOk m.conn.log := by
  refine ⟨_, .cons (.member _) (.cons (.runFunctor rfl) (.cons (.member _) (.nil _))), ?_, ?_⟩
  · decide
  · intro h
    have hw := h.2
    revert hw
    decide

end NetworkStructure
