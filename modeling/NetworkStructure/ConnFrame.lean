import Mathlib.Data.List.Chain
import NetworkStructure.TcpConnection

/-! # What the member functions of a connection leave alone

Between `connectEstablished` and `handleClose` the member functions of a connection (`send`,
`shutdown`, `forceClose`, `handleWrite`, `shutdownInLoop`) only write, buffer, switch the
channel's interest in writing and queue functors.  `Quiet l m` says what such a call, from `l` to
`m`, cannot change: the registration of the channel, the other descriptors of the poller, the
life cycle.  It is reflexive and transitive, so that it also holds of any sequence of them. -/

namespace NetworkStructure

/-! ### The interest in writing -/

namespace Channel.Interest

/-- The two calls made while a connection is up. -/
def writing : Interest → Bool
  | enableWriting | disableWriting => true
  | enableReading | disableReading | disableAll => false

theorem isReading_assign {i : Interest} (hi : i.writing = true) (e : Mask) :
    Mask.test (i.assign e) kReadEvent = Mask.test e kReadEvent := by
  cases i with
  | enableWriting => exact Mask.test_or_of_disjoint (by decide) e
  | disableWriting => exact Mask.test_and_not_of_disjoint (by decide) e
  | _ => cases hi

end Channel.Interest

namespace PendingFunctor

/-- The connection that a functor is bound to. -/
def target : PendingFunctor → Option ConnId
  | connectEstablished c | connectDestroyed c | removeConnectionInLoop c | shutdownInLoop c
  | forceCloseInLoop c | writeCompleteCallback c | highWaterMarkCallback c _ => some c
  | user _ => none

/-- The functors that carry a connection through its life cycle. -/
def life : PendingFunctor → Bool
  | connectEstablished _ | connectDestroyed _ | removeConnectionInLoop _ => true
  | shutdownInLoop _ | forceCloseInLoop _ | writeCompleteCallback _
  | highWaterMarkCallback _ _ | user _ => false

end PendingFunctor

namespace ConnEvent

/-- The notifications of the life cycle. -/
def life : ConnEvent → Bool
  | connectionCallback _ | closeCallback | connectDestroyed => true
  | setState _ | send _ | write _ | shutdownWrite _ | messageCallback _ => false

/-- The value that `state_` takes. -/
def newState : ConnEvent → Option StateE
  | setState s => some s
  | _ => none

end ConnEvent

/-! ### The history of `state_` -/

/-- `state_` may go from the first value to the second. -/
def StateE.forward : StateE → StateE → Bool
  | .kConnecting, .kConnected => true
  | .kConnected, .kDisconnecting => true
  | .kConnected, .kDisconnected => true
  | .kDisconnecting, .kDisconnecting => true
  | .kDisconnecting, .kDisconnected => true
  | _, _ => false

namespace TcpConnection

/-- The values of `state_`, from the constructor on. -/
def states (t : TcpConnection) : List StateE := .kConnecting :: t.log.filterMap ConnEvent.newState

/-- `state_` moved forward only, and is where its history ends. -/
def HistoryOk (t : TcpConnection) : Prop :=
  t.states.IsChain (fun a b => a.forward b = true) ∧ t.states.getLast? = some t.state_

/-- The notifications of the life cycle, in order. -/
def notices (t : TcpConnection) : List ConnEvent := t.log.filter ConnEvent.life

theorem HistoryOk.snoc {t u : TcpConnection} {s : StateE} (h : t.HistoryOk)
    (hl : u.log = t.log ++ [.setState s]) (hu : u.state_ = s)
    (hs : t.state_.forward s = true) : u.HistoryOk := by
  obtain ⟨hc, hlast⟩ := h
  have he : u.states = t.states ++ [s] := by
    simp [TcpConnection.states, hl, List.filterMap_append, ConnEvent.newState]
  refine ⟨?_, ?_⟩
  · rw [he, List.isChain_append]
    refine ⟨hc, List.isChain_singleton _, fun a ha b hb => ?_⟩
    rw [hlast] at ha
    cases ha
    cases hb
    exact hs
  · rw [he, hu]
    simp

/-- An event that is not an assignment to `state_` is no part of its history. -/
theorem HistoryOk.record {t u : TcpConnection} {e : ConnEvent} (h : t.HistoryOk)
    (hl : u.log = t.log ++ [e]) (he : e.newState = none) (hu : u.state_ = t.state_) :
    u.HistoryOk := by
  have hs : u.states = t.states := by simp [TcpConnection.states, hl, he]
  rwa [HistoryOk, hs, hu]

end TcpConnection

namespace LoopConn

variable {l m n : LoopConn}

theorem historyOk_setState {s : StateE} (h : l.conn.HistoryOk)
    (hs : l.conn.state_.forward s = true) : (l.setState s).conn.HistoryOk :=
  h.snoc rfl rfl hs

/-! ### The registration of the channel -/

/-- The channel is in step with the poller, and as the state of the connection asks. -/
structure Registered (l : LoopConn) : Prop where
  inStep : InStep l.loop.poller_ (.conn l.this) l.conn.channel_
  /-- While it is known to the kernel it is interested in reading. -/
  reading : l.conn.channel_.index_ = .cAdded → l.conn.channel_.isReading = true
  /-- It is known to the kernel until the connection is closed. -/
  added : l.conn.state_ ≠ .kDisconnected → l.conn.channel_.index_ = .cAdded

/-- A channel that wants to write is known to the kernel. -/
theorem Registered.index_of_isWriting (h : Registered l)
    (hw : l.conn.channel_.isWriting = true) : l.conn.channel_.index_ = .cAdded := by
  have he : l.conn.channel_.events_ ≠ 0 := Mask.ne_zero_of_test hw
  cases hi : l.conn.channel_.index_ with
  | cAdded => rfl
  | cNew => exact absurd ((inStep_cNew hi).mp h.inStep).1 he
  | cDeleted => exact absurd ((inStep_cDeleted hi).mp h.inStep).1 he

/-- What switching the interest in writing does to a registered channel. -/
theorem channelSet_of_added (h : Registered l) (hx : l.conn.channel_.index_ = .cAdded)
    {i : Channel.Interest} (hi : i.writing = true) :
    l.channelSet i = { l with
      loop := { l.loop with
        poller_ := l.loop.poller_.setSlot l.conn.channel_.fd_ (some (.conn l.this))
          (some ⟨i.assign l.conn.channel_.events_, .conn l.this⟩) }
      conn := { l.conn with
        channel_ := { l.conn.channel_ with events_ := i.assign l.conn.channel_.events_ } } } := by
  have hne : i.assign l.conn.channel_.events_ ≠ 0 := by
    apply Mask.ne_zero_of_test (k := kReadEvent)
    rw [Channel.Interest.isReading_assign hi]
    exact h.reading hx
  have hs : Channel.set i (.conn l.this) l.loop.poller_ l.conn.channel_ = _ :=
    set_of_inStep h.inStep i
  rw [hx] at hs
  simp only [channelSet, hs, if_neg hne, hx]

theorem registered_channelSet (h : Registered l) (hx : l.conn.channel_.index_ = .cAdded)
    {i : Channel.Interest} (hi : i.writing = true) : Registered (l.channelSet i) := by
  have hr := h.reading hx
  rw [channelSet_of_added h hx hi]
  refine ⟨?_, fun _ => ?_, fun _ => hx⟩
  · apply (inStep_cAdded (by exact hx)).mpr
    exact ⟨Poller.setSlot_channels_ .., Poller.setSlot_kernel ..⟩
  · rw [Channel.isReading, Channel.Interest.isReading_assign hi]
    exact hr

/-! ### Quiet calls -/

/-- What the calls made while the connection is up cannot change. -/
structure Quiet (l m : LoopConn) : Prop where
  me : m.me = l.me
  this : m.this = l.this
  threadId_ : m.loop.threadId_ = l.loop.threadId_
  /-- Only functors of this connection that are not of the life cycle are queued, and none
  after it was closed. -/
  pending : ∃ fs, m.loop.pendingFunctors_ = l.loop.pendingFunctors_ ++ fs ∧
    ∀ f ∈ fs, f.target = some l.this ∧ f.life = false ∧
      (f = .shutdownInLoop l.this → l.isOpen = true)
  slots : ∀ fd ≠ l.conn.channel_.fd_,
    m.loop.poller_.channels_ fd = l.loop.poller_.channels_ fd ∧
      m.loop.poller_.kernel fd = l.loop.poller_.kernel fd
  name_ : m.conn.name_ = l.conn.name_
  destroyed : m.conn.destroyed = l.conn.destroyed
  fd_ : m.conn.channel_.fd_ = l.conn.channel_.fd_
  index_ : m.conn.channel_.index_ = l.conn.channel_.index_
  tied_ : m.conn.channel_.tied_ = l.conn.channel_.tied_
  registered : Registered m
  /-- `kConnected` and `kDisconnecting` can become `kDisconnecting`. -/
  state_ : m.conn.state_ = l.conn.state_ ∨
    l.isOpen = true ∧ m.conn.state_ = .kDisconnecting
  history : l.conn.HistoryOk → m.conn.HistoryOk
  notices : m.conn.notices = l.conn.notices

theorem Quiet.rfl (h : Registered l) : Quiet l l where
  me := Eq.refl _
  this := Eq.refl _
  threadId_ := Eq.refl _
  pending := ⟨[], by simp, by simp⟩
  slots _ _ := ⟨Eq.refl _, Eq.refl _⟩
  name_ := Eq.refl _
  destroyed := Eq.refl _
  fd_ := Eq.refl _
  index_ := Eq.refl _
  tied_ := Eq.refl _
  registered := h
  state_ := .inl (Eq.refl _)
  history h := h
  notices := Eq.refl _

theorem Quiet.isOpen_of (h : Quiet l m) (ho : m.isOpen = true) : l.isOpen = true := by
  rcases h.state_ with hs | ⟨hl, -⟩
  · simpa only [isOpen, hs] using ho
  · exact hl

theorem Quiet.trans (h₁ : Quiet l m) (h₂ : Quiet m n) : Quiet l n where
  me := h₂.me.trans h₁.me
  this := h₂.this.trans h₁.this
  threadId_ := h₂.threadId_.trans h₁.threadId_
  pending := by
    obtain ⟨fs, hf, hfs⟩ := h₁.pending
    obtain ⟨gs, hg, hgs⟩ := h₂.pending
    refine ⟨fs ++ gs, by rw [hg, hf, List.append_assoc], fun f hm => ?_⟩
    rcases List.mem_append.mp hm with hm | hm
    · exact hfs f hm
    · obtain ⟨ht, hl, hs⟩ := hgs f hm
      rw [h₁.this] at ht hs
      exact ⟨ht, hl, fun he => h₁.isOpen_of (hs he)⟩
  slots fd hfd := by
    obtain ⟨a₁, b₁⟩ := h₁.slots fd hfd
    obtain ⟨a₂, b₂⟩ := h₂.slots fd (by rwa [h₁.fd_])
    exact ⟨a₂.trans a₁, b₂.trans b₁⟩
  name_ := h₂.name_.trans h₁.name_
  destroyed := h₂.destroyed.trans h₁.destroyed
  fd_ := h₂.fd_.trans h₁.fd_
  index_ := h₂.index_.trans h₁.index_
  tied_ := h₂.tied_.trans h₁.tied_
  registered := h₂.registered
  state_ := by
    rcases h₁.state_ with e₁ | ⟨o₁, e₁⟩ <;> rcases h₂.state_ with e₂ | ⟨o₂, e₂⟩
    · exact .inl (e₂.trans e₁)
    · exact .inr ⟨h₁.isOpen_of o₂, e₂⟩
    · exact .inr ⟨o₁, e₂.trans e₁⟩
    · exact .inr ⟨o₁, e₂⟩
  history h := h₂.history (h₁.history h)
  notices := h₂.notices.trans h₁.notices

/-- A change of the data of the connection that is no event of the life cycle. -/
theorem quiet_data (h : Registered l) {t : TcpConnection} (es : List ConnEvent)
    (hl : t.log = l.conn.log ++ es) (hes : ∀ e ∈ es, e.life = false ∧ e.newState = none)
    (hn : t.name_ = l.conn.name_) (hd : t.destroyed = l.conn.destroyed)
    (hc : t.channel_ = l.conn.channel_) (hs : t.state_ = l.conn.state_) :
    Quiet l { l with conn := t } where
  me := Eq.refl _
  this := Eq.refl _
  threadId_ := Eq.refl _
  pending := ⟨[], by simp, by simp⟩
  slots _ _ := ⟨Eq.refl _, Eq.refl _⟩
  name_ := hn
  destroyed := hd
  fd_ := by rw [hc]
  index_ := by rw [hc]
  tied_ := by rw [hc]
  registered := ⟨by simpa only [hc] using h.inStep, by simpa only [hc] using h.reading,
    by simpa only [hc, hs] using h.added⟩
  state_ := .inl hs
  history := by
    have he : es.filterMap ConnEvent.newState = [] :=
      List.filterMap_eq_nil_iff.mpr fun e he => (hes e he).2
    simp only [TcpConnection.HistoryOk, TcpConnection.states, hl, hs, List.filterMap_append, he,
      List.append_nil]
    exact id
  notices := by
    have he : es.filter ConnEvent.life = [] :=
      List.filter_eq_nil_iff.mpr fun e he => by simp [(hes e he).1]
    simp only [TcpConnection.notices, hl, List.filter_append, he, List.append_nil]

theorem quiet_record (h : Registered l) {e : ConnEvent} (he : e.life = false)
    (hs : e.newState = none) : Quiet l (l.record e) :=
  quiet_data h [e] rfl (by simp [he, hs]) rfl rfl rfl rfl

theorem quiet_write (h : Registered l) (data : List UInt8) : Quiet l (l.write data) :=
  quiet_data h [.write (l.taken data)] rfl (by simp [ConnEvent.life, ConnEvent.newState])
    rfl rfl rfl rfl

theorem quiet_setOutputBuffer (h : Registered l) (b : Buffer) : Quiet l (l.setOutputBuffer b) :=
  quiet_data h [] (by simp) (by simp) rfl rfl rfl rfl

theorem quiet_queueInLoop (h : Registered l) {f : PendingFunctor}
    (ht : f.target = some l.this) (hf : f.life = false)
    (hs : f = .shutdownInLoop l.this → l.isOpen = true) :
    Quiet l (l.queueInLoop f) where
  me := Eq.refl _
  this := Eq.refl _
  threadId_ := EventLoop.queueInLoop_threadId_ ..
  pending := ⟨[f], EventLoop.queueInLoop_pendingFunctors_ .., by simpa using ⟨ht, hf, hs⟩⟩
  slots _ _ := by simp [queueInLoop]
  name_ := Eq.refl _
  destroyed := Eq.refl _
  fd_ := Eq.refl _
  index_ := Eq.refl _
  tied_ := Eq.refl _
  registered := ⟨by simpa [queueInLoop] using h.inStep, h.reading, h.added⟩
  state_ := .inl (Eq.refl _)
  history h := h
  notices := Eq.refl _

theorem quiet_channelSet (h : Registered l) (hx : l.conn.channel_.index_ = .cAdded)
    {i : Channel.Interest} (hi : i.writing = true) : Quiet l (l.channelSet i) := by
  have hr := registered_channelSet h hx hi
  rw [channelSet_of_added h hx hi] at hr ⊢
  exact
    { me := rfl, this := rfl, threadId_ := rfl, pending := ⟨[], by simp, by simp⟩
      slots := fun fd hfd =>
        ⟨Poller.setSlot_channels_ne _ hfd _ _, Poller.setSlot_kernel_ne _ hfd _ _⟩
      name_ := rfl, destroyed := rfl, fd_ := rfl, index_ := rfl, tied_ := rfl
      registered := hr, state_ := .inl rfl, history := fun h => h, notices := rfl }

theorem forward_kDisconnecting (ho : l.isOpen = true) :
    l.conn.state_.forward .kDisconnecting = true := by
  rcases of_decide_eq_true ho with h | h <;> rw [h] <;> rfl

theorem quiet_kDisconnecting (h : Registered l) (ho : l.isOpen = true) :
    Quiet l (l.setState .kDisconnecting) where
  me := Eq.refl _
  this := Eq.refl _
  threadId_ := Eq.refl _
  pending := ⟨[], by simp [setState, record], by simp⟩
  slots _ _ := ⟨Eq.refl _, Eq.refl _⟩
  name_ := Eq.refl _
  destroyed := Eq.refl _
  fd_ := Eq.refl _
  index_ := Eq.refl _
  tied_ := Eq.refl _
  registered := by
    refine ⟨h.inStep, h.reading, fun _ => h.added ?_⟩
    rcases of_decide_eq_true ho with h | h <;> rw [h] <;> decide
  state_ := .inr ⟨ho, Eq.refl _⟩
  history hh := historyOk_setState hh (forward_kDisconnecting ho)
  notices := by simp [TcpConnection.notices, setState, record, ConnEvent.life]

/-! ### The member functions -/

theorem quiet_queueHighWaterMark (h : Registered l) (remaining : ℕ) :
    Quiet l (l.queueHighWaterMark remaining) := by
  unfold queueHighWaterMark
  dsimp only
  split
  · exact quiet_queueInLoop h rfl rfl (by simp)
  · exact .rfl h

theorem quiet_enableWriting (h : Registered l) (hx : l.conn.channel_.index_ = .cAdded) :
    Quiet l l.enableWriting := by
  unfold enableWriting
  split
  · exact .rfl h
  · exact quiet_channelSet h hx rfl

theorem quiet_appendRemaining (h : Registered l) (hx : l.conn.channel_.index_ = .cAdded)
    (remaining : List UInt8) : Quiet l (l.appendRemaining remaining) := by
  unfold appendRemaining
  split
  · exact .rfl h
  · have q₁ := quiet_queueHighWaterMark h remaining.length
    have q₂ := q₁.trans
      (quiet_setOutputBuffer q₁.registered (l.conn.outputBuffer_.append remaining))
    exact q₂.trans (quiet_enableWriting q₂.registered (q₂.index_.trans hx))

theorem quiet_queueWriteComplete (h : Registered l) : Quiet l l.queueWriteComplete := by
  unfold queueWriteComplete
  split
  · exact quiet_queueInLoop h rfl rfl (by simp)
  · exact .rfl h

theorem quiet_sendInLoop (h : Registered l) (data : List UInt8) :
    Quiet l (l.sendInLoop data) := by
  unfold sendInLoop
  split
  · exact .rfl h
  · next hs =>
    have hx := h.added hs
    have hw := quiet_write h data
    split
    · split
      · split
        · exact hw.trans (quiet_queueWriteComplete hw.registered)
        · exact hw.trans (quiet_appendRemaining hw.registered hx _)
      · split
        · exact hw
        · exact hw.trans (quiet_appendRemaining hw.registered hx _)
    · exact quiet_appendRemaining h hx _

theorem quiet_send (h : Registered l) (data : List UInt8) : Quiet l (l.send data) :=
  have q : Quiet l (l.record (.send data)) := quiet_record h rfl rfl
  q.trans (quiet_sendInLoop q.registered data)

theorem quiet_shutdownInLoop (h : Registered l) : Quiet l l.shutdownInLoop := by
  unfold shutdownInLoop
  split
  · exact .rfl h
  · exact quiet_record h rfl rfl

theorem quiet_shutdown (h : Registered l) : Quiet l l.shutdown := by
  unfold shutdown
  split
  · next hs =>
    have q := quiet_kDisconnecting h (by simp [isOpen, hs])
    split
    · exact q.trans (quiet_shutdownInLoop q.registered)
    · exact q.trans (quiet_queueInLoop q.registered rfl rfl fun _ => rfl)
  · exact .rfl h

theorem quiet_forceClose (h : Registered l) : Quiet l l.forceClose := by
  unfold forceClose
  split
  · next ho =>
    have q := quiet_kDisconnecting h ho
    exact q.trans (quiet_queueInLoop q.registered rfl rfl (by simp))
  · exact .rfl h

theorem quiet_drained (h : Registered l) (hx : l.conn.channel_.index_ = .cAdded) :
    Quiet l l.drained := by
  have q₁ := quiet_channelSet h hx (i := .disableWriting) rfl
  have q₂ := q₁.trans (quiet_queueWriteComplete q₁.registered)
  unfold drained
  dsimp only
  split
  · exact q₂.trans (quiet_shutdownInLoop q₂.registered)
  · exact q₂

theorem quiet_retrieve (h : Registered l) (hx : l.conn.channel_.index_ = .cAdded) (n : ℕ) :
    Quiet l (l.retrieve n) := by
  have q := quiet_setOutputBuffer h (l.conn.outputBuffer_.retrieve n)
  unfold retrieve
  dsimp only
  split
  · exact q.trans (quiet_drained q.registered hx)
  · exact q

theorem quiet_handleWrite (h : Registered l) : Quiet l l.handleWrite := by
  unfold handleWrite
  dsimp only
  split
  · next hw =>
    have q := quiet_write h l.conn.outputBuffer_.readable
    split
    · split
      · exact q
      · exact q.trans (quiet_retrieve q.registered (h.index_of_isWriting hw) _)
    · exact q
  · exact .rfl h

theorem quiet_member (h : Registered l) (a : Member) : Quiet l (l.member a) := by
  cases a with
  | send data => exact quiet_send h data
  | shutdown => exact quiet_shutdown h
  | forceClose => exact quiet_forceClose h

/-! ### The steps of the life cycle -/

/-- What a step of a connection cannot change, whichever it is: it works for its connection
alone and keeps its channel in step with the poller. -/
structure Frame (l m : LoopConn) : Prop where
  me : m.me = l.me
  this : m.this = l.this
  threadId_ : m.loop.threadId_ = l.loop.threadId_
  pending : ∃ fs, m.loop.pendingFunctors_ = l.loop.pendingFunctors_ ++ fs ∧
    ∀ f ∈ fs, f.target = some l.this
  slots : ∀ fd ≠ l.conn.channel_.fd_,
    m.loop.poller_.channels_ fd = l.loop.poller_.channels_ fd ∧
      m.loop.poller_.kernel fd = l.loop.poller_.kernel fd
  name_ : m.conn.name_ = l.conn.name_
  destroyed : m.conn.destroyed = l.conn.destroyed
  fd_ : m.conn.channel_.fd_ = l.conn.channel_.fd_
  inStep : InStep m.loop.poller_ (.conn m.this) m.conn.channel_

theorem Quiet.frame (h : Quiet l m) : Frame l m where
  me := h.me
  this := h.this
  threadId_ := h.threadId_
  pending := by
    obtain ⟨fs, hf, hfs⟩ := h.pending
    exact ⟨fs, hf, fun f hm => (hfs f hm).1⟩
  slots := h.slots
  name_ := h.name_
  destroyed := h.destroyed
  fd_ := h.fd_
  inStep := h.registered.inStep

theorem Frame.record (h : Frame l m) (e : ConnEvent) : Frame l (m.record e) :=
  ⟨h.me, h.this, h.threadId_, h.pending, h.slots, h.name_, h.destroyed, h.fd_, h.inStep⟩

theorem Frame.rfl (h : InStep l.loop.poller_ (.conn l.this) l.conn.channel_) : Frame l l :=
  ⟨Eq.refl _, Eq.refl _, Eq.refl _, ⟨[], by simp, by simp⟩, fun _ _ => ⟨Eq.refl _, Eq.refl _⟩,
    Eq.refl _, Eq.refl _, Eq.refl _, h⟩

theorem frame_channelSet (h : InStep l.loop.poller_ (.conn l.this) l.conn.channel_)
    {i : Channel.Interest} (hi : i.enables = true → l.conn.channel_.index_ ≠ .cDeleted) :
    Frame l (l.channelSet i) where
  me := rfl
  this := rfl
  threadId_ := rfl
  pending := ⟨[], by simp [channelSet], by simp⟩
  slots _ hfd := set_slot_ne h i hfd
  name_ := rfl
  destroyed := rfl
  fd_ := set_fd_ i
  inStep := inStep_set h hi

/-- What `connectEstablished` does to a connection whose channel is new. -/
theorem establish_spec (h : InStep l.loop.poller_ (.conn l.this) l.conn.channel_)
    (hx : l.conn.channel_.index_ = .cNew) :
    Frame l l.establish ∧ Registered l.establish ∧ l.establish.conn.state_ = .kConnected ∧
      l.establish.conn.channel_.index_ = .cAdded ∧ l.establish.conn.channel_.tied_ = true ∧
      l.establish.loop.pendingFunctors_ = l.loop.pendingFunctors_ ∧
      l.establish.conn.log = l.conn.log ++ [.setState .kConnected] := by
  -- `tie` does not change what `InStep` reads
  have ht : InStep (l.setState .kConnected).tie.loop.poller_ (.conn l.this)
      (l.setState .kConnected).tie.conn.channel_ := h
  have hf := frame_channelSet (i := .enableReading) ht fun _ => by
    show l.conn.channel_.index_ ≠ .cDeleted
    rw [hx]
    decide
  have hs := set_of_inStep ht .enableReading
  have hx' : (l.setState .kConnected).tie.conn.channel_.index_ = .cNew := hx
  rw [hx'] at hs
  have hc : l.establish.conn.channel_ = _ := congrArg Prod.snd hs
  refine ⟨?_, ⟨hf.inStep, fun _ => ?_, fun _ => ?_⟩, rfl, ?_, ?_, rfl, rfl⟩
  · exact ⟨rfl, rfl, rfl, ⟨[], by simp [establish, channelSet, tie, setState, record], by simp⟩,
      hf.slots, rfl, rfl, hf.fd_, hf.inStep⟩
  all_goals rw [hc]
  · exact Mask.test_or_self (by decide) _
  · rfl

/-- What `handleClose` does to an open connection. -/
theorem disconnect_spec (h : Registered l) (ho : l.isOpen = true) :
    Frame l l.disconnect ∧ Registered l.disconnect ∧ l.disconnect.conn.state_ = .kDisconnected ∧
      l.disconnect.conn.channel_.index_ = .cDeleted ∧
      l.disconnect.conn.channel_.events_ = 0 ∧
      l.disconnect.loop.pendingFunctors_ = l.loop.pendingFunctors_ ∧
      l.disconnect.conn.log = l.conn.log ++ [.setState .kDisconnected] := by
  have hx : l.conn.channel_.index_ = .cAdded := by
    apply h.added
    rcases of_decide_eq_true ho with hs | hs <;> rw [hs] <;> decide
  have hf := frame_channelSet (l := l.setState .kDisconnected) (i := .disableAll) h.inStep
    fun hi => by cases hi
  have hs := set_of_inStep h.inStep .disableAll
  rw [hx] at hs
  have hc : l.disconnect.conn.channel_ = _ := congrArg Prod.snd hs
  simp only [Channel.Interest.assign, kNoneEvent, if_true] at hc
  refine ⟨⟨rfl, rfl, rfl, ⟨[], by simp [disconnect, channelSet, setState, record], by simp⟩,
    hf.slots, rfl, rfl, hf.fd_, hf.inStep⟩, ⟨hf.inStep, fun hi => ?_, fun hi => absurd rfl hi⟩,
    rfl, ?_, ?_, rfl, rfl⟩
  · rw [hc] at hi
    cases hi
  all_goals rw [hc]

/-- What `channel_->remove()` does to a closed connection. -/
theorem channelRemove_spec (h : InStep l.loop.poller_ (.conn l.this) l.conn.channel_)
    (h0 : l.conn.channel_.events_ = 0) :
    Frame l l.channelRemove ∧ l.channelRemove.conn.channel_.index_ = .cNew := by
  have hs := remove_of_inStep h h0
  refine ⟨⟨rfl, rfl, rfl, ⟨[], by simp [channelRemove], by simp⟩, fun _ hfd => remove_slot_ne h hfd,
    rfl, rfl, remove_fd_, inStep_remove h⟩, ?_⟩
  simp only [channelRemove, hs, Channel.set_index_index_]

theorem registered_channelRemove (h : Registered l) : Registered l.channelRemove := by
  by_cases h0 : l.conn.channel_.events_ = 0
  · obtain ⟨hf, hx⟩ := channelRemove_spec h.inStep h0
    refine ⟨hf.inStep, fun hi => ?_, fun hs => ?_⟩
    · rw [hx] at hi
      cases hi
    · -- a connection that is not closed is interested in reading
      have hr := h.reading (h.added hs)
      rw [Channel.isReading, h0, Mask.test_zero] at hr
      cases hr
  · have hn : l.conn.channel_.isNoneEvent = false := by
      rw [Bool.eq_false_iff, Ne, Channel.isNoneEvent_iff]
      exact h0
    have he : l.channelRemove = l := by simp [channelRemove, Channel.remove, hn]
    rwa [he]

theorem registered_destroy (h : Registered l) : Registered l.destroy := by
  unfold destroy
  split
  · next hc =>
    have ho : l.isOpen = true := by
      have : l.conn.state_ = .kConnected := of_decide_eq_true hc
      simp [isOpen, this]
    exact registered_channelRemove (disconnect_spec h ho).2.1
  · exact registered_channelRemove h

end LoopConn
end NetworkStructure
