import NetworkStructure.Handlers
import NetworkStructure.MyServer
import NetworkStructure.Simulation
import NetworkStructure.TcpStream

/-! # The connections of a server

`ConnStep` says what may happen around one connection while the rest of the program does what it
likes with the loop.  Here every connection of a server is such a connection: what a run of the
server does to it, with any application, is a run of `ConnStep` (`serverConns`).  So what was
proved of one connection holds of each connection of a server.

`ConnStep` has no batch of functors and no callbacks: `LoopConn.view` puts the rest of the batch
before the queue and leaves the callbacks out of the history. -/

namespace NetworkStructure

/-! ### What `ConnStep` sees of a connection -/

theorem flatMap_filter {α β : Type} {p : α → Bool} {f : α → List β}
    (hf : ∀ a, p a = false → f a = []) (xs : List α) : (xs.filter p).flatMap f = xs.flatMap f := by
  induction xs with
  | nil => rfl
  | cons a xs ih =>
      rw [List.filter_cons, List.flatMap_cons]
      split
      · rw [List.flatMap_cons, ih]
      · next hp => rw [hf a (Bool.eq_false_iff.mpr hp), ih, List.nil_append]

namespace LoopConn

variable {l : LoopConn} {q : List PendingFunctor}

/-- The connection when `q` is the rest of the batch. -/
def view (q : List PendingFunctor) (l : LoopConn) : LoopConn :=
  { l with
    loop := { l.loop with pendingFunctors_ := q ++ l.loop.pendingFunctors_ }
    conn := { l.conn with log := l.conn.log.filter fun e => !e.isCallback } }

@[simp] theorem view_record_of_isCallback {e : ConnEvent} (he : e.isCallback = true) :
    (l.record e).view q = l.view q := by
  simp [view, record, he]

theorem view_record {e : ConnEvent} (he : e.isCallback = false) :
    (l.record e).view q = (l.view q).record e := by
  simp [view, record, he]

@[simp] theorem view_setState (s : StateE) : (l.setState s).view q = (l.view q).setState s :=
  view_record rfl

@[simp] theorem view_queueInLoop (f : PendingFunctor) :
    (l.queueInLoop f).view q = (l.view q).queueInLoop f := by
  have hw : ((l.view q).loop.push f).mustWakeup (l.view q).me =
    (l.loop.push f).mustWakeup l.me := rfl
  unfold queueInLoop EventLoop.queueInLoop
  rw [hw]
  split <;> simp [view, EventLoop.push, EventLoop.wakeup]

@[simp] theorem view_channelSet (i : Channel.Interest) :
    (l.channelSet i).view q = (l.view q).channelSet i := rfl

@[simp] theorem view_channelRemove : l.channelRemove.view q = (l.view q).channelRemove := rfl

@[simp] theorem view_setOutputBuffer (b : Buffer) :
    (l.setOutputBuffer b).view q = (l.view q).setOutputBuffer b := rfl

@[simp] theorem view_write (data : List UInt8) : (l.write data).view q = (l.view q).write data :=
  view_record rfl

@[simp] theorem view_queueHighWaterMark (n : ℕ) :
    (l.queueHighWaterMark n).view q = (l.view q).queueHighWaterMark n := by
  unfold queueHighWaterMark
  dsimp only
  rw [apply_ite (view q), view_queueInLoop]
  rfl

@[simp] theorem view_enableWriting : l.enableWriting.view q = (l.view q).enableWriting := by
  unfold enableWriting
  rw [apply_ite (view q), view_channelSet]
  rfl

@[simp] theorem view_appendRemaining (data : List UInt8) :
    (l.appendRemaining data).view q = (l.view q).appendRemaining data := by
  unfold appendRemaining
  split
  · rfl
  · rw [view_enableWriting, view_setOutputBuffer, view_queueHighWaterMark]
    rfl

@[simp] theorem view_queueWriteComplete :
    l.queueWriteComplete.view q = (l.view q).queueWriteComplete := by
  unfold queueWriteComplete
  rw [apply_ite (view q), view_queueInLoop]
  rfl

theorem view_sendInLoop (data : List UInt8) :
    (l.sendInLoop data).view q = (l.view q).sendInLoop data := by
  have hw : (l.view q).writeResult data.length = l.writeResult data.length := rfl
  unfold sendInLoop
  rw [hw, apply_ite (view q), apply_ite (view q)]
  cases l.writeResult data.length with
  | wrote n =>
      dsimp only
      rw [apply_ite (view q), view_queueWriteComplete, view_appendRemaining, view_appendRemaining,
        view_write]
      rfl
  | failed e =>
      dsimp only
      rw [apply_ite (view q), view_appendRemaining, view_appendRemaining, view_write]
      rfl

theorem view_shutdownInLoop : l.shutdownInLoop.view q = (l.view q).shutdownInLoop := by
  unfold shutdownInLoop
  rw [apply_ite (view q), view_record rfl]
  rfl

theorem view_shutdown : l.shutdown.view q = (l.view q).shutdown := by
  unfold shutdown
  rw [apply_ite (view q), apply_ite (view q), view_shutdownInLoop, view_queueInLoop,
    view_setState]
  rfl

theorem view_forceClose : l.forceClose.view q = (l.view q).forceClose := by
  unfold forceClose
  rw [apply_ite (view q), view_queueInLoop, view_setState]
  rfl

theorem view_member (a : Member) : (l.member a).view q = (l.view q).member a := by
  cases a with
  | send data =>
      show ((l.record (.send data)).sendInLoop data).view q = _
      rw [view_sendInLoop, view_record rfl]
      rfl
  | shutdown => exact view_shutdown
  | forceClose => exact view_forceClose

theorem view_drained : l.drained.view q = (l.view q).drained := by
  unfold drained
  dsimp only
  rw [apply_ite (view q), view_shutdownInLoop, view_queueWriteComplete, view_channelSet]
  simp only [queueWriteComplete_conn]
  rfl

theorem view_retrieve (n : ℕ) : (l.retrieve n).view q = (l.view q).retrieve n := by
  unfold retrieve
  dsimp only
  rw [apply_ite (view q), view_drained, view_setOutputBuffer]
  rfl

theorem view_handleWrite : l.handleWrite.view q = (l.view q).handleWrite := by
  have hw : (l.view q).writeResult l.conn.outputBuffer_.readable.length =
    l.writeResult l.conn.outputBuffer_.readable.length := rfl
  have hb : (l.view q).conn.outputBuffer_ = l.conn.outputBuffer_ := rfl
  unfold handleWrite
  dsimp only
  rw [hb, hw, apply_ite (view q)]
  cases l.writeResult l.conn.outputBuffer_.readable.length with
  | wrote n =>
      dsimp only
      rw [apply_ite (view q), view_retrieve, view_write]
      rfl
  | failed e =>
      dsimp only
      rw [view_write]
      rfl

theorem view_establish : l.establish.view q = (l.view q).establish := by
  show ((l.setState .kConnected).tie.channelSet .enableReading).view q = _
  rw [view_channelSet]
  show ((l.setState .kConnected).view q).tie.channelSet .enableReading = _
  rw [view_setState]
  rfl

theorem view_disconnect : l.disconnect.view q = (l.view q).disconnect := by
  unfold disconnect
  rw [view_channelSet, view_setState]

theorem view_close : l.close.view q = (l.view q).close := by
  unfold close
  rw [apply_ite (view q), view_disconnect]
  rfl

theorem view_written : (l.view q).conn.written = l.conn.written :=
  flatMap_filter (fun e he => by cases e <;> first | rfl | cases he) _

theorem view_sent : (l.view q).conn.sent = l.conn.sent :=
  flatMap_filter (fun e he => by cases e <;> first | rfl | cases he) _

theorem New.view (h : New l) : New (l.view q) := by
  obtain ⟨name, fd, writeComplete, socket, hl⟩ := h.conn
  refine ⟨⟨name, fd, writeComplete, socket, ?_⟩, h.channels_, h.kernel⟩
  simp [LoopConn.view, hl, TcpConnection.new]

theorem frame_close (h : Registered l) : Frame l l.close := by
  unfold close
  split
  · next ho => exact (disconnect_spec h ho).1
  · exact .rfl h.inStep

theorem frame_channelRemove (h : Registered l) : Frame l l.channelRemove := by
  by_cases h0 : l.conn.channel_.events_ = 0
  · exact (channelRemove_spec h.inStep h0).1
  · have hn : l.conn.channel_.isNoneEvent = false := by
      rw [Bool.eq_false_iff, Ne, Channel.isNoneEvent_iff]
      exact h0
    have he : l.channelRemove = l := by simp [channelRemove, Channel.remove, hn]
    rw [he]
    exact .rfl h.inStep

/-- The functors that a `ConnStep` runs for the connection. -/
theorem run_of_life {f : PendingFunctor} (hf : ∀ c, f ≠ .shutdownInLoop c ∧
    f ≠ .forceCloseInLoop c ∧ f ≠ .connectDestroyed c) : l.run f = l := by
  unfold run
  split
  · exact absurd rfl (hf _).1
  · exact absurd rfl (hf _).2.1
  · exact absurd rfl (hf _).2.2
  · rfl

theorem run_of_target_ne {f : PendingFunctor} (hf : f.target ≠ some l.this) : l.run f = l := by
  have hne : ∀ {c}, f.target = some c → c ≠ l.this := fun ht hc => hf (hc ▸ ht)
  unfold run
  split
  · exact if_neg (hne rfl)
  · exact if_neg (hne rfl)
  · exact if_neg (hne rfl)
  · rfl

end LoopConn

/-! ### The connections of a process -/

section World

variable {υ : Type} {app : Application υ} {P : Fd → List WriteResult → Prop} {w w' : World υ}
  {c d : ConnId}

namespace World

/-- The connection `c`, as `ConnStep` sees it. -/
def view (w : World υ) (c : ConnId) : LoopConn := (w.atConn c).view w.rest

/-- What happened to the connection is a run of `ConnStep`; `P` holds of its descriptor and of what
the kernel answers on it. -/
def Follows (P : Fd → List WriteResult → Prop) (w : World υ) (c : ConnId) : Prop :=
  ∃ l : LoopConn, l.New ∧ l.this = c ∧ P l.conn.channel_.fd_ l.conn.socket ∧
    Reaches ConnStep l.establish (· = w.view c)

/-- What is known of the connections that are not established. -/
structure Rooted (P : Fd → List WriteResult → Prop) (w : World υ) : Prop where
  fresh : ∀ c, w.Live c → (w.conns c).state_ = .kConnecting →
    (w.atConn c).New ∧ P (w.conns c).channel_.fd_ (w.conns c).socket
  distinct : ∀ c d, w.Live c → w.Live d →
    (w.conns c).channel_.fd_ = (w.conns d).channel_.fd_ → c = d

/-- **The invariant**: every connection that exists is as it was constructed, or follows
`ConnStep`. -/
structure Mirrors (P : Fd → List WriteResult → Prop) (w : World υ) : Prop extends Rooted P w where
  follows : ∀ c, w.knows c = true → w.Follows P c

theorem Follows.step (h : w.Follows P c) {a : ConnAction}
    (hs : ConnStep (w.view c) a (w'.view c)) : w'.Follows P c := by
  obtain ⟨l, hnew, hthis, hP, hrun⟩ := h
  refine ⟨l, hnew, hthis, hP, hrun.bind ?_⟩
  rintro _ rfl
  exact .cons hs (.refl rfl)

/-- A connection that is established is in step with the poller. -/
theorem Follows.registered (h : w.Follows P c) : LoopConn.Registered (w.atConn c) := by
  obtain ⟨l, hnew, -, -, ls, _, hrun, rfl⟩ := h
  have hinv : LoopConn.Inv (w.view c) :=
    hrun.invariant (I := LoopConn.Inv) (fun _ _ _ h hs => LoopConn.inv_step h hs)
      (LoopConn.inv_establish hnew)
  exact ⟨hinv.registered.inStep, hinv.registered.reading, hinv.registered.added⟩

/-- What the rest of the program does, as far as the connection `c` is concerned. -/
structure Aside (w w' : World υ) (c : ConnId) : Prop where
  conn : w'.conns c = w.conns c
  me : w'.me = w.me
  threadId_ : w'.loop.threadId_ = w.loop.threadId_
  queue : ∃ fs, w'.queue = w.queue ++ fs ∧
    PendingFunctor.shutdownInLoop c ∉ fs ∧ PendingFunctor.forceCloseInLoop c ∉ fs
  channels_ : w'.loop.poller_.channels_ (w.conns c).channel_.fd_ =
    w.loop.poller_.channels_ (w.conns c).channel_.fd_
  kernel : w'.loop.poller_.kernel (w.conns c).channel_.fd_ =
    w.loop.poller_.kernel (w.conns c).channel_.fd_

theorem Aside.step (h : Aside w w' c) : ConnStep (w.view c) .others (w'.view c) := by
  have he : w'.view c = { w.view c with loop := (w'.view c).loop } := by
    simp only [view, LoopConn.view, atConn, h.conn, h.me]
  rw [he]
  exact .others _ h.threadId_ h.queue h.channels_ h.kernel

/-- **Frame rule**: a call on one connection is nothing but a use of the loop to the others. -/
theorem aside_setConn (hcd : c ≠ d) (hfd : (w.conns c).channel_.fd_ ≠ (w.conns d).channel_.fd_)
    {m : LoopConn} (hf : LoopConn.Frame (w.atConn d) m) : Aside w (w.setConn d m) c := by
  obtain ⟨fs, hq, ht⟩ := queue_setConn hf
  have hne : ∀ f ∈ fs, f.target ≠ some c := by
    intro f hm he
    rw [ht f hm, Option.some.injEq] at he
    exact hcd he.symm
  obtain ⟨hc, hk⟩ := hf.slots _ hfd
  exact ⟨setConn_conns_ne hcd m, rfl, hf.threadId_,
    ⟨fs, hq, fun hm => hne _ hm rfl, fun hm => hne _ hm rfl⟩, hc, hk⟩

theorem view_setConn {m : LoopConn} (hf : LoopConn.Frame (w.atConn d) m) :
    (w.setConn d m).view d = m.view w.rest := by
  have hme : m.me = w.me := hf.me
  have ht : m.this = d := hf.this
  have he : (w.setConn d m).atConn d = m := by
    cases m
    cases hme
    cases ht
    simp [atConn, World.setConn]
  rw [view, he]
  rfl

/-- A call on a connection that is established. -/
theorem Rooted.setConn (h : w.Rooted P) (hl : w.Live d)
    (hothers : ∀ c ≠ d, w.knows c = true → w.Follows P c) {m : LoopConn}
    (hf : LoopConn.Frame (w.atConn d) m) (hk : (w.setConn d m).knows d = true)
    (hself : (w.setConn d m).Follows P d) : (w.setConn d m).Mirrors P := by
  have haside : ∀ c ≠ d, w.Live c → Aside w (w.setConn d m) c := fun c hcd hc =>
    aside_setConn hcd (fun he => hcd (h.distinct c d hc hl he)) hf
  refine ⟨⟨fun c hc hs => ?_, fun c e hc he hfd => ?_⟩, fun c hc => ?_⟩
  · by_cases hcd : c = d
    · subst hcd
      exact absurd hs (knows_iff.mp hk).2
    · rw [live_setConn hf] at hc
      have ha := haside c hcd hc
      rw [ha.conn] at hs ⊢
      obtain ⟨hnew, hP⟩ := h.fresh c hc hs
      refine ⟨⟨?_, ?_, ?_⟩, hP⟩ <;> simp only [atConn, ha.conn]
      · exact hnew.conn
      · exact ha.channels_.trans hnew.channels_
      · exact ha.kernel.trans hnew.kernel
  · rw [fd_setConn hf, fd_setConn hf] at hfd
    exact h.distinct c e ((live_setConn hf c).mp hc) ((live_setConn hf e).mp he) hfd
  · by_cases hcd : c = d
    · subst hcd
      exact hself
    · have hc' : w.knows c = true := by
        rw [knows_iff, live_setConn hf, setConn_conns_ne hcd] at hc
        exact knows_iff.mpr hc
      exact (hothers c hcd hc').step (haside c hcd (knows_iff.mp hc').1).step

/-- What happens to no connection at all. -/
theorem Mirrors.aside (h : w.Mirrors P) (hn : w'.created = w.created) (hc : w'.conns = w.conns)
    (hm : w'.me = w.me) (ht : w'.loop.threadId_ = w.loop.threadId_)
    (hp : w'.loop.poller_ = w.loop.poller_)
    (hq : ∃ fs, w'.queue = w.queue ++ fs ∧ ∀ f ∈ fs, f.life = true ∨ f.target = none) :
    w'.Mirrors P := by
  obtain ⟨fs, hq, hfs⟩ := hq
  have hlive : ∀ c, w'.Live c ↔ w.Live c := fun c => by simp only [Live, hn, hc]
  refine ⟨⟨fun c hl hs => ?_, fun c d hlc hld hfd => ?_⟩, fun c hk => ?_⟩
  · rw [hc] at hs ⊢
    obtain ⟨hnew, hP⟩ := h.fresh c ((hlive c).mp hl) hs
    refine ⟨⟨?_, ?_, ?_⟩, hP⟩ <;> simp only [atConn, hc, hp]
    · exact hnew.conn
    · exact hnew.channels_
    · exact hnew.kernel
  · rw [hc] at hfd
    exact h.distinct c d ((hlive c).mp hlc) ((hlive d).mp hld) hfd
  · have hk' : w.knows c = true := by
      rw [knows_iff, hlive, hc] at hk
      exact knows_iff.mpr hk
    have ha : Aside w w' c := by
      refine ⟨by rw [hc], hm, ht, ⟨fs, hq, fun hf => ?_, fun hf => ?_⟩, by rw [hp], by rw [hp]⟩
      · simpa [PendingFunctor.life, PendingFunctor.target] using hfs _ hf
      · simpa [PendingFunctor.life, PendingFunctor.target] using hfs _ hf
    exact (h.follows c hk').step ha.step

/-- A call on a connection that is established, which `ConnStep` can follow. -/
theorem Mirrors.onConn (h : w.Mirrors P) (hk : w.knows d = true) {f : LoopConn → LoopConn}
    (hf : LoopConn.Registered (w.atConn d) → LoopConn.Frame (w.atConn d) (f (w.atConn d)))
    (hacts : (w.atConn d).Acts (f (w.atConn d)))
    (hstep : Reaches ConnStep (w.view d) (· = (f (w.atConn d)).view w.rest)) :
    (w.onConn d f).Mirrors P := by
  obtain hfol := h.follows d hk
  have hframe := hf hfol.registered
  refine h.toRooted.setConn (knows_iff.mp hk).1 (fun c _ hc => h.follows c hc) hframe
    (knows_onConn hk hacts) ?_
  obtain ⟨l, hnew, hthis, hP, hrun⟩ := hfol
  refine ⟨l, hnew, hthis, hP, hrun.bind ?_⟩
  rintro _ rfl
  show Reaches ConnStep (w.view d) (· = (w.setConn d (f (w.atConn d))).view d)
  rwa [view_setConn hframe]

theorem queue_of_rest (hr : w'.rest = w.rest)
    (hp : w'.loop.pendingFunctors_ = w.loop.pendingFunctors_) :
    ∃ fs, w'.queue = w.queue ++ fs ∧ ∀ f ∈ fs, f.life = true ∨ f.target = none :=
  ⟨[], by simp [queue, hr, hp], by simp⟩

/-- Every call of which the handlers are made keeps the invariant. -/
theorem kept_mirrors : Kept (Mirrors (υ := υ) P) where
  user u h := h.aside rfl rfl rfl rfl rfl (queue_of_rest rfl rfl)
  member a h hk := h.onConn hk (fun hr => (LoopConn.quiet_member hr a).frame)
    (LoopConn.Acts.refl.member a) (.cons (.member a) (.refl (LoopConn.view_member a).symm))
  handleWrite h hk := h.onConn hk (fun hr => (LoopConn.quiet_handleWrite hr).frame)
    LoopConn.Acts.refl.handleWrite (.cons .handleWrite (.refl LoopConn.view_handleWrite.symm))
  close h hk := h.onConn hk LoopConn.frame_close LoopConn.Acts.refl.close
    (.cons .handleClose (.refl LoopConn.view_close.symm))
  record h hk he := h.onConn hk (fun hr => (LoopConn.Frame.rfl hr.inStep).record _)
    (LoopConn.Acts.refl.record _) (.refl (LoopConn.view_record_of_isCallback he).symm)
  establish := by
    intro w c h hl hs
    obtain ⟨hnew, hP⟩ := h.fresh c hl hs
    obtain ⟨hf, -, hst, -⟩ := LoopConn.establish_spec hnew.inStep hnew.index_
    refine h.toRooted.setConn hl (fun d _ hd => h.follows d hd) hf ?_ ?_
    · rw [knows_iff, live_setConn hf, setConn_conns_self, hst]
      exact ⟨hl, by decide⟩
    · refine ⟨w.view c, hnew.view, rfl, hP, .refl ?_⟩
      rw [view_setConn hf, LoopConn.view_establish]
      rfl
  queueInLoop h hf := h.aside rfl rfl rfl (EventLoop.queueInLoop_threadId_ ..)
    (EventLoop.queueInLoop_poller_ ..) ⟨_, queue_push _ _, by simpa using hf⟩
  erase c h := h.aside rfl rfl rfl rfl rfl (queue_of_rest rfl rfl)

/-- A connection is constructed. -/
theorem Mirrors.insertConnection (h : w.Mirrors P) (hw : Wiring w) {fd : Fd}
    (hfd : ¬ w.IsOpen fd) {socket : List WriteResult} (hP : P fd socket) :
    (w.insertConnection app fd socket).Mirrors P := by
  have hself := insertConnection_conns_self w app fd socket
  obtain ⟨hc, hk⟩ := hw.slot_of_not_isOpen hfd
  refine ⟨⟨fun c hl hs => ?_, (hw.insertConnection app hfd socket).distinct⟩, fun c hkc => ?_⟩
  · by_cases hcc : c = w.created
    · subst hcc
      have hself' : ((w.insertConnection app fd socket).atConn w.created).conn.channel_.fd_ = fd :=
        congrArg (·.channel_.fd_) hself
      rw [hself]
      exact ⟨⟨⟨_, _, _, _, hself⟩, by rwa [hself'], by rwa [hself']⟩, hP⟩
    · have hne : (w.insertConnection app fd socket).conns c = w.conns c :=
        insertConnection_conns_ne hcc
      rw [hne] at hs ⊢
      obtain ⟨hnew, hPc⟩ := h.fresh c ((live_insertConnection hcc).mp hl) hs
      refine ⟨⟨?_, ?_, ?_⟩, hPc⟩ <;> simp only [atConn, hne]
      · exact hnew.conn
      · exact hnew.channels_
      · exact hnew.kernel
  · obtain ⟨hl, hs⟩ := knows_iff.mp hkc
    by_cases hcc : c = w.created
    · subst hcc
      rw [hself] at hs
      exact absurd rfl hs
    · have hne : (w.insertConnection app fd socket).conns c = w.conns c :=
        insertConnection_conns_ne hcc
      have hk' : w.knows c = true := by
        rw [live_insertConnection hcc] at hl
        rw [hne] at hs
        exact knows_iff.mpr ⟨hl, hs⟩
      have ha : Aside w (w.insertConnection app fd socket) c :=
        ⟨hne, rfl, rfl, ⟨[], (List.append_nil _).symm, by simp, by simp⟩, rfl, rfl⟩
      exact (h.follows c hk').step ha.step

/-! ### Running a functor -/

section Functor

variable {f : PendingFunctor} {ran rest : List PendingFunctor}

/-- The head of the queue is taken, and run as far as it concerns the connection. -/
theorem view_taken (hp : w.phase = .functors ran (f :: rest)) (c : ConnId) :
    ConnStep (w.view c) .runFunctor
      ((({ w with phase := .functors (ran ++ [f]) rest } : World υ).view c).run f) := by
  have hq : (w.view c).loop.pendingFunctors_ = f :: (rest ++ w.loop.pendingFunctors_) := by
    show w.rest ++ w.loop.pendingFunctors_ = _
    rw [World.rest, hp]
    rfl
  exact .runFunctor hq

/-- A functor that concerns no connection. -/
theorem Mirrors.taken (h : w.Mirrors P) (hp : w.phase = .functors ran (f :: rest))
    (hf : ∀ c, (({ w with phase := .functors (ran ++ [f]) rest } : World υ).view c).run f =
      ({ w with phase := .functors (ran ++ [f]) rest } : World υ).view c) :
    ({ w with phase := .functors (ran ++ [f]) rest } : World υ).Mirrors P := by
  refine ⟨⟨h.fresh, h.distinct⟩, fun c hk => (h.follows c hk).step (a := .runFunctor) ?_⟩
  have hs := view_taken hp c
  rwa [hf] at hs

/-- A functor that a connection has queued for itself. -/
theorem Mirrors.takenBy (h : w.Mirrors P) (hp : w.phase = .functors ran (f :: rest))
    (hf : f.target = some d) (hk : w.knows d = true) {g : LoopConn → LoopConn}
    (hg : LoopConn.Registered (w.atConn d) → LoopConn.Frame (w.atConn d) (g (w.atConn d)))
    (hacts : (w.atConn d).Acts (g (w.atConn d)))
    (hrun : (g (w.atConn d)).view rest =
      (({ w with phase := .functors (ran ++ [f]) rest } : World υ).view d).run f) :
    (World.onConn { w with phase := .functors (ran ++ [f]) rest } d g).Mirrors P := by
  have hfol := h.follows d hk
  have hframe := hg hfol.registered
  have hroot : ({ w with phase := .functors (ran ++ [f]) rest } : World υ).Rooted P :=
    ⟨h.fresh, h.distinct⟩
  refine hroot.setConn (knows_iff.mp hk).1 (fun c hcd hkc => ?_) hframe (knows_onConn hk hacts)
    (hfol.step (a := .runFunctor) ?_)
  · refine (h.follows c hkc).step (a := .runFunctor) ?_
    have hs := view_taken hp c
    rwa [LoopConn.run_of_target_ne (by
      rw [hf]
      exact fun he => hcd (Option.some.inj he).symm)] at hs
  · have hv := view_setConn (w := { w with phase := .functors (ran ++ [f]) rest }) hframe
    have hs := view_taken hp d
    rw [← hrun] at hs
    exact (congrArg (ConnStep (w.view d) .runFunctor) hv).mpr hs

/-- Whatever functor is at the head of the queue. -/
theorem Mirrors.runFunctor (h : w.Mirrors P) (hok : w.Ok)
    (hp : w.phase = .functors ran (f :: rest)) :
    Ensures (Mirrors P) (fun _ => True)
      ({ w with phase := .functors (ran ++ [f]) rest }.runFunctor app f) := by
  have hm : f ∈ w.queue := by simp [queue, World.rest, hp]
  have hother : (∀ c, f ≠ .shutdownInLoop c ∧ f ≠ .forceCloseInLoop c ∧ f ≠ .connectDestroyed c) →
      Ensures (Mirrors P) (fun _ => True)
        ({ w with phase := .functors (ran ++ [f]) rest }.runFunctor app f) := by
    intro hf
    refine kept_mirrors.runFunctor (h.taken hp fun c => LoopConn.run_of_life hf) ?_
      (fun c he => absurd he (hf c).1) (fun c he => absurd he (hf c).2.1)
      fun c he => absurd he (hf c).2.2
    rintro c rfl
    exact hok.live_of_connectEstablished hm
  cases f with
  | shutdownInLoop c =>
      rw [World.runFunctor]
      split
      · trivial
      · exact h.takenBy hp rfl (hok.knows_of_shutdownInLoop hm)
          (fun hr => (LoopConn.quiet_shutdownInLoop hr).frame) LoopConn.Acts.refl.shutdownInLoop
          (LoopConn.view_shutdownInLoop.trans (if_pos rfl).symm)
  | forceCloseInLoop c =>
      rw [World.runFunctor]
      by_cases ho : (w.atConn c).isOpen = true
      · have hk := hok.knows_of_isOpen hm ho
        rw [World.handleClose, if_pos (by exact ho)]
        refine kept_mirrors.closed (h.takenBy hp rfl hk
          (fun hr => (LoopConn.disconnect_spec hr ho).1) LoopConn.Acts.refl.disconnect ?_)
          (knows_onConn hk LoopConn.Acts.refl.disconnect)
        rw [LoopConn.view_disconnect]
        exact ((if_pos rfl).trans (if_pos ho)).symm
      · rw [handleClose_eq_self (by exact ho)]
        refine h.taken hp fun d => ?_
        by_cases hcd : c = d
        · subst hcd
          exact (if_pos rfl).trans (if_neg ho)
        · exact if_neg hcd
  | connectDestroyed c =>
      obtain ⟨hk, hs⟩ := hok.knows_of_connectDestroyed hm
      have he : ({ w with phase := .functors (ran ++ [.connectDestroyed c]) rest } :
          World υ).connectDestroyed app c = .ok (World.onConn
            { w with phase := .functors (ran ++ [.connectDestroyed c]) rest } c
            fun l => l.channelRemove.record .connectDestroyed) := by
        rw [World.connectDestroyed, if_neg (by simp [hs])]
        rfl
      rw [World.runFunctor, he]
      refine h.takenBy hp rfl hk
        (fun hr => (LoopConn.frame_channelRemove hr).record _)
        (LoopConn.Acts.refl.channelRemove.record _) ?_
      rw [LoopConn.view_record_of_isCallback rfl, LoopConn.view_channelRemove]
      refine Eq.symm ((if_pos rfl).trans (congrArg LoopConn.channelRemove (if_neg ?_)))
      show ¬ decide ((w.conns c).state_ = .kConnected) = true
      simp [hs]
  | _ => exact hother fun c => ⟨by simp, by simp, by simp⟩

end Functor

/-! ### Steps and runs -/

/-- A descriptor is closed. -/
theorem Mirrors.destroy (h : w.Mirrors P) (hl : w.Live c) : (w.destroy c).Mirrors P := by
  have haside : ∀ d, (w.destroy c).Live d → w.Live d ∧ Aside w (w.destroy c) d := by
    intro d hd
    obtain ⟨hdc, hd⟩ := live_destroy.mp hd
    refine ⟨hd, ⟨destroy_conns_ne hdc, rfl, rfl, ⟨[], (List.append_nil _).symm, by simp, by simp⟩,
      rfl, ?_⟩⟩
    exact Function.update_of_ne (fun he => hdc (h.distinct d c hd hl he)) _ _
  refine ⟨⟨fun d hd hs => ?_, fun d e hd he hfd => ?_⟩, fun d hk => ?_⟩
  · obtain ⟨hd, ha⟩ := haside d hd
    rw [ha.conn] at hs ⊢
    obtain ⟨hnew, hP⟩ := h.fresh d hd hs
    refine ⟨⟨?_, ?_, ?_⟩, hP⟩ <;> simp only [atConn, ha.conn]
    · exact hnew.conn
    · exact ha.channels_.trans hnew.channels_
    · exact ha.kernel.trans hnew.kernel
  · obtain ⟨hd, had⟩ := haside d hd
    obtain ⟨he, hae⟩ := haside e he
    rw [had.conn, hae.conn] at hfd
    exact h.distinct d e hd he hfd
  · obtain ⟨hd, hs⟩ := knows_iff.mp hk
    obtain ⟨hd, ha⟩ := haside d hd
    rw [ha.conn] at hs
    exact (h.follows d (knows_iff.mpr ⟨hd, hs⟩)).step ha.step

/-- `P` holds of the descriptor of an accepted connection, and of what the kernel will answer on
it. -/
def Accepts (P : Fd → List WriteResult → Prop) (a : ServerAction) : Prop :=
  ∀ fd socket read, a = .handleEvent (some (fd, socket)) read → P fd socket

/-- **Step lemma**: every step of the server is a step, or a few, around each connection. -/
theorem Mirrors.step {a : ServerAction} {t : Except Fault (World υ)} (h : w.Mirrors P)
    (hok : w.Ok) (hs : Step app w a t) (ha : Accepts P a) :
    Ensures (Mirrors P) (fun _ => True) t := by
  cases hs with
  | poll hp =>
      exact h.aside rfl rfl rfl rfl rfl (queue_of_rest (by simp [World.rest, hp]) rfl)
  | @handleEvent channel revents rest accepted read hp hopen =>
      have h₀ : ({ w with phase := .handling rest } : World υ).Mirrors P :=
        h.aside rfl rfl rfl rfl rfl (queue_of_rest (by simp [World.rest, hp]) rfl)
      by_cases hc : channel = .wakeup
      · subst hc
        simp only [World.handleEvent, ensures_ok]
        split
        · exact h₀.aside rfl rfl rfl rfl rfl (queue_of_rest rfl rfl)
        · exact h₀
      · have hact : (channel, revents) ∈ w.active := by simp [World.active, hp]
        refine kept_mirrors.handleEvent h₀ hc (fun c he => hok.knows_of_active hact he)
          (fun b hb => ?_) revents read
        subst hb
        obtain ⟨stage, hw, -⟩ := hok
        exact h₀.insertConnection (hw.wiring.congr rfl rfl rfl rfl rfl) (hopen b rfl)
          (ha b.1 b.2 read rfl)
  | doPendingFunctors hp =>
      exact h.aside rfl rfl rfl rfl rfl ⟨[], by simp [queue, World.rest, hp], by simp⟩
  | runFunctor hp => exact h.runFunctor hok hp
  | endFunctors hp =>
      exact h.aside rfl rfl rfl rfl rfl (queue_of_rest (by simp [World.rest, hp]) rfl)
  | queueInLoop thread n =>
      exact h.aside rfl rfl rfl (EventLoop.queueInLoop_threadId_ ..)
        (EventLoop.queueInLoop_poller_ ..)
        ⟨_, queue_push thread (.user n), by simp [PendingFunctor.target]⟩
  | destroy hl => exact h.destroy hl

theorem mirrors_init (threadId_ me : ThreadId) (wakeupFd acceptFd : Fd) (hostport : IpPort)
    (name : List Char) (user : υ) :
    (World.init threadId_ me wakeupFd acceptFd hostport name user).Mirrors P := by
  have hnone : ∀ c, ¬ (World.init threadId_ me wakeupFd acceptFd hostport name user).Live c :=
    fun c hl => absurd hl.1 (Nat.not_lt_zero c)
  exact ⟨⟨fun c hl => absurd hl (hnone c), fun c _ hl => absurd hl (hnone c)⟩,
    fun c hk => absurd (knows_iff.mp hk).1 (hnone c)⟩

theorem mirrors_run {ls : List ServerAction} {s : Except Fault (World υ)}
    (run : Run (ServerStep app) s ls (.ok w)) (hls : ∀ a ∈ ls, Accepts P a)
    (h0 : Ensures (fun w => w.Mirrors P ∧ w.Ok) (fun _ => True) s) : w.Mirrors P := by
  have hrun : RunWith (ServerStep app) (fun _ a _ => Accepts P a) s ls (.ok w) :=
    runWith_label_iff.mpr ⟨run, hls⟩
  refine (RunWith.invariant
    (I := Ensures (fun w => w.Mirrors P ∧ w.Ok) fun _ => True) ?_ hrun h0).1
  rintro s a t hI ⟨v, rfl, hstep, -⟩ ha
  have hok := ok_step hI.2 hstep
  have hm := hI.1.step hI.2 hstep ha
  cases t with
  | error e => trivial
  | ok w' => exact ⟨hm, hok⟩

end World

/-- The descriptor of a connection stays the same. -/
theorem LoopConn.fd_run {l m : LoopConn} {as : List ConnAction} (run : Run ConnStep l as m) :
    m.conn.channel_.fd_ = l.conn.channel_.fd_ := by
  have hkeep : ∀ (k : LoopConn) a m, k.conn.channel_.fd_ = l.conn.channel_.fd_ →
      ConnStep k a m → m.conn.channel_.fd_ = l.conn.channel_.fd_ := by
    intro k a m hk hs
    have hfd : m.conn.channel_.fd_ = k.conn.channel_.fd_ := by
      cases hs with
      | member a => exact (Acts.refl.member a).fd_
      | handleWrite => exact Acts.refl.handleWrite.fd_
      | handleClose => exact Acts.refl.close.fd_
      | others => rfl
      | runFunctor =>
          unfold LoopConn.run
          split
          · split
            · exact Acts.refl.shutdownInLoop.fd_
            · rfl
          · split
            · exact Acts.refl.close.fd_
            · rfl
          · split
            · exact Acts.refl.destroy.fd_
            · rfl
          · rfl
    exact hfd.trans hk
  exact run.invariant hkeep rfl

/-- **The connections of a server**: in every run of a server, with any application, what has
happened to a connection that the application knows is a run of `ConnStep`, from its construction
when its descriptor was accepted.  So until it is disconnected its channel wants to write exactly
when something is buffered, and if no write on it fails with `EPIPE` or `ECONNRESET` the kernel took
what was sent, but for what is buffered. -/
theorem serverConns {threadId_ me : ThreadId} {wakeupFd acceptFd : Fd} {hostport : IpPort}
    {name : List Char} {user : υ} {ls : List ServerAction}
    (run : Run (ServerStep app)
      (.ok (World.init threadId_ me wakeupFd acceptFd hostport name user)) ls (.ok w))
    (hc : w.knows c = true) :
    ∃ l : LoopConn, (l.New ∧ l.this = c ∧
        ∃ read, .handleEvent (some ((w.conns c).channel_.fd_, l.conn.socket)) read ∈ ls) ∧
      (∃ as, Run ConnStep l.establish as (w.view c)) ∧
      ((w.conns c).state_ ≠ .kDisconnected →
        ((w.conns c).channel_.isWriting = true ↔ (w.conns c).outputBuffer_.readable ≠ []) ∧
        (l.SocketOk →
          (w.conns c).written ++ (w.conns c).outputBuffer_.readable = (w.conns c).sent)) := by
  have hm : w.Mirrors fun fd socket => ∃ read, .handleEvent (some (fd, socket)) read ∈ ls :=
    World.mirrors_run run (fun a ha fd socket read he => ⟨read, he ▸ ha⟩)
      ⟨World.mirrors_init .., ok_init ..⟩
  obtain ⟨l, hnew, hthis, haccepted, as, _, hrun, rfl⟩ := hm.follows c hc
  have hfd : (w.conns c).channel_.fd_ = l.conn.channel_.fd_ :=
    (LoopConn.fd_run hrun).trans LoopConn.Acts.refl.establish.fd_
  rw [← hfd] at haccepted
  have hinv : (w.view c).Inv := hrun.invariant (I := LoopConn.Inv)
    (fun _ _ _ h hs => LoopConn.inv_step h hs) (LoopConn.inv_establish hnew)
  refine ⟨l, ⟨hnew, hthis, haccepted⟩, ⟨as, hrun⟩, fun hup => ⟨hinv.buffering hup, fun hk => ?_⟩⟩
  have hst := hrun.invariant (I := fun l => l.Inv ∧ l.StreamOk)
    (fun _ _ _ h hs => ⟨LoopConn.inv_step h.1 hs, LoopConn.streamOk_step h.1.buffering h.2 hs⟩)
    ⟨LoopConn.inv_establish hnew, LoopConn.streamOk_establish hnew hk⟩
  have he := hst.2.stream hup
  rwa [LoopConn.stream, World.view, LoopConn.view_written, LoopConn.view_sent] at he

/-- The kernel takes three bytes of the greeting to the host. -/
theorem serverConns_host : ∃ w : World MyServer,
    ((w.conns 0).sent = MyServer.hello ∧ (w.conns 0).written = MyServer.hello.take 3) ∧
      ((w.conns 0).channel_.isWriting = true ↔ (w.conns 0).outputBuffer_.readable ≠ []) ∧
      (w.conns 0).written ++ (w.conns 0).outputBuffer_.readable = (w.conns 0).sent := by
  obtain ⟨w, run, ⟨hk, hs⟩, hw⟩ := World.exists_run_ok MyServer.application
    (fun w => (w.knows 0 = true ∧ (w.conns 0).state_ ≠ .kDisconnected) ∧
      (w.conns 0).sent = MyServer.hello ∧ (w.conns 0).written = MyServer.hello.take 3)
    (.ok (World.init 1 2 3 4 ⟨[], by decide⟩ [] { kMaxConnections_ := (2 : ℕ) }))
    [.poll [(4, EPOLLIN)], .handleEvent (some (7, [.wrote 3])) none, .doPendingFunctors,
      .runFunctor, .endFunctors, .poll [(7, EPOLLIN)], .handleEvent none (some [104])]
    (by decide +kernel)
  obtain ⟨l, ⟨-, -, read, hmem⟩, -, hup⟩ := serverConns run hk
  obtain ⟨hwriting, hstream⟩ := hup hs
  refine ⟨w, hw, hwriting, hstream ?_⟩
  have hsocket : ((w.conns 0).channel_.fd_ = 7 ∧ l.conn.socket = [.wrote 3]) ∧ read = none := by
    simpa using hmem
  rw [LoopConn.SocketOk, hsocket.1.2]
  decide

end World

end NetworkStructure
