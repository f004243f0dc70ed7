import NetworkStructure.ConnFrame
import NetworkStructure.TcpServer

/-! # The stages of a connection

A connection of the server goes through the stages `newborn`, `connecting`, `opened`, `down`,
`closing`, `removing`, `destroying`, `erased`, `gone`.  The stage says everything that the rest
of the program may rely on: the state, the entry in `connections_`, the registration of the
channel, the functors of the life cycle that are queued, and the notifications made so far
(`ConnOk`).  `WorldOk w stage` puts the connections together.

The invariant is kept piece by piece.  A call that works for one connection keeps it for the
others (`ConnOk.setConn`); a quiet call keeps every stage (`WorldOk.quiet`), and so does a
callback (`WorldOk.callback`), whatever the application does in it. -/

namespace NetworkStructure

/-- Where a connection stands between `newConnection` and `~TcpConnection`. -/
inductive Stage where
  /-- Constructed and entered in `connections_`; `connectEstablished` is about to be queued or
  to run. -/
  | newborn
  | connecting
  | opened
  /-- Closed; `connectionCallback_` has been or is being called, `closeCallback_` comes next. -/
  | down
  /-- `removeConnectionInLoop` is about to be queued or to run. -/
  | closing
  | removing
  | destroying
  /-- Not in `connections_`; `connectDestroyed` is about to be queued or to run. -/
  | erased
  | gone
deriving DecidableEq, Repr

namespace Stage

/-- The stages at the end of a handler or functor. -/
def resting : Stage → Bool
  | connecting | opened | removing | destroying | gone => true
  | newborn | down | closing | erased => false

def states : Stage → List StateE
  | newborn | connecting => [.kConnecting]
  | opened => [.kConnected, .kDisconnecting]
  | down | closing | removing | destroying | erased | gone => [.kDisconnected]

/-- The functors of the life cycle that are queued. -/
def functors (c : ConnId) : Stage → List PendingFunctor
  | connecting => [.connectEstablished c]
  | removing => [.removeConnectionInLoop c]
  | destroying => [.connectDestroyed c]
  | newborn | opened | down | closing | erased | gone => []

/-- `connections_` has an entry for the connection. -/
def entered : Stage → Bool
  | newborn | connecting | opened | down | closing | removing => true
  | destroying | erased | gone => false

def index_ : Stage → ChannelIndex
  | newborn | connecting | gone => .cNew
  | opened => .cAdded
  | down | closing | removing | destroying | erased => .cDeleted

/-- The notifications that have been made. -/
def notices : Stage → List ConnEvent
  | newborn | connecting => []
  | opened => [.connectionCallback true]
  | down => [.connectionCallback true, .connectionCallback false]
  | closing | removing | destroying | erased =>
      [.connectionCallback true, .connectionCallback false, .closeCallback]
  | gone =>
      [.connectionCallback true, .connectionCallback false, .closeCallback, .connectDestroyed]

end Stage

/-- A functor of the life cycle of `c`. -/
def PendingFunctor.lifeOf (c : ConnId) (f : PendingFunctor) : Bool :=
  f.life && decide (f.target = some c)

/-- `shutdownInLoop`, which does not own its connection, does not come after the functors that
release it. -/
def RawOrder (f g : PendingFunctor) : Prop :=
  ∀ c, f = .removeConnectionInLoop c ∨ f = .connectDestroyed c → g ≠ .shutdownInLoop c

variable {υ : Type}

namespace World

/-- The functors of the batch that are still to run. -/
def rest (w : World υ) : List PendingFunctor :=
  match w.phase with
  | .functors _ rest => rest
  | _ => []

/-- The functors that are still to run, in order. -/
def queue (w : World υ) : List PendingFunctor := w.rest ++ w.loop.pendingFunctors_

/-- The active channels that are still to be handled. -/
def active (w : World υ) : List (ChannelRef × Mask) :=
  match w.phase with
  | .handling activeChannels_ => activeChannels_
  | _ => []

/-- The descriptor that a channel may be registered under. -/
def SlotOf (w : World υ) (fd : Fd) : ChannelRef → Prop
  | .wakeup => fd = w.wakeupFd
  | .acceptor => fd = w.acceptFd
  | .conn c => w.Live c ∧ (w.conns c).channel_.fd_ = fd

end World

/-- The live connections have descriptors of their own, and what the poller and the kernel hold
under a descriptor belongs there. -/
structure Wiring (w : World υ) : Prop where
  distinct : ∀ c d, w.Live c → w.Live d →
    (w.conns c).channel_.fd_ = (w.conns d).channel_.fd_ → c = d
  reserved : ∀ c, w.Live c →
    (w.conns c).channel_.fd_ ≠ w.wakeupFd ∧ (w.conns c).channel_.fd_ ≠ w.acceptFd
  channels_ : ∀ fd r, w.loop.poller_.channels_ fd = some r → w.SlotOf fd r
  kernel : ∀ fd e, w.loop.poller_.kernel fd = some e → w.SlotOf fd e.ptr

/-- What the stage of a connection says. -/
structure ConnOk (w : World υ) (c : ConnId) (s : Stage) : Prop where
  state_ : (w.conns c).state_ ∈ s.states
  functors : w.queue.filter (PendingFunctor.lifeOf c) = s.functors c
  entry : w.server.connections_.lookup (w.conns c).name_ = if s.entered then some c else none
  index_ : (w.conns c).channel_.index_ = s.index_
  reading : (w.conns c).channel_.index_ = .cAdded → (w.conns c).channel_.isReading = true
  notices : (w.conns c).notices = s.notices
  history : (w.conns c).HistoryOk
  inStep : (w.conns c).destroyed = false →
    InStep w.loop.poller_ (.conn c) (w.conns c).channel_
  dead : (w.conns c).destroyed = true → s = .gone
  /-- Before it is established nothing but `connectEstablished` is queued for it. -/
  soft : s = .newborn ∨ s = .connecting → ∀ f ∈ w.queue, f.target = some c → f.life = true
  raw : s = .gone → .shutdownInLoop c ∉ w.queue

structure WorldOk (w : World υ) (stage : ConnId → Stage) : Prop where
  conn : ∀ c < w.created, ConnOk w c (stage c)
  target : ∀ f ∈ w.queue, ∀ c, f.target = some c → c < w.created
  rawOrder : w.queue.Pairwise RawOrder
  entries : ∀ name c, w.server.connections_.lookup name = some c →
    c < w.created ∧ (w.conns c).name_ = name
  names : ∀ c < w.created, (w.conns c).name_ = w.server.connName (c + 1)
  nextConnId_ : w.server.nextConnId_ = w.created + 1
  fits : w.created < INT_MAX
  distinct : ∀ c d, w.Live c → w.Live d →
    (w.conns c).channel_.fd_ = (w.conns d).channel_.fd_ → c = d
  reserved : ∀ c, w.Live c →
    (w.conns c).channel_.fd_ ≠ w.wakeupFd ∧ (w.conns c).channel_.fd_ ≠ w.acceptFd
  channels_ : ∀ fd r, w.loop.poller_.channels_ fd = some r → w.SlotOf fd r
  kernel : ∀ fd e, w.loop.poller_.kernel fd = some e → w.SlotOf fd e.ptr
  active : ∀ r ∈ w.active, ∀ c, r.1 = .conn c → c < w.created ∧ (stage c).index_ ≠ .cNew

/-! ### What a stage implies -/

section ConnOk

variable {w : World υ} {stage : ConnId → Stage} {c d : ConnId} {s : Stage}

theorem ConnOk.not_destroyed (h : ConnOk w c s) (hs : s ≠ .gone) :
    (w.conns c).destroyed = false := by
  rw [Bool.eq_false_iff]
  exact fun hd => hs (h.dead hd)

theorem ConnOk.live (h : ConnOk w c s) (hc : c < w.created) (hs : s ≠ .gone) : w.Live c :=
  ⟨hc, h.not_destroyed hs⟩

/-- The functors of the life cycle that are queued are those of the stage. -/
theorem ConnOk.mem_functors (h : ConnOk w c s) {f : PendingFunctor} (hf : f ∈ w.queue)
    (hl : f.life = true) (ht : f.target = some c) : f ∈ s.functors c := by
  rw [← h.functors, List.mem_filter]
  exact ⟨hf, by simp [PendingFunctor.lifeOf, hl, ht]⟩

/-- An open connection is in the stage `opened`. -/
theorem ConnOk.opened_of_isOpen (h : ConnOk w c s) (ho : (w.atConn c).isOpen = true) :
    s = .opened := by
  have hs := h.state_
  have ho := of_decide_eq_true ho
  simp only [World.atConn] at ho
  cases s with
  | opened => rfl
  | _ =>
      simp only [Stage.states, List.mem_singleton] at hs
      rw [hs] at ho
      simp at ho

theorem ConnOk.state_eq_kConnecting (h : ConnOk w c s) :
    (w.conns c).state_ = .kConnecting ↔ s = .newborn ∨ s = .connecting := by
  have hs := h.state_
  cases s <;> simp_all [Stage.states]
  rcases hs with hs | hs <;> simp [hs]

theorem ConnOk.state_eq_kDisconnected (h : ConnOk w c s) :
    (w.conns c).state_ = .kDisconnected ↔
      s ≠ .newborn ∧ s ≠ .connecting ∧ s ≠ .opened := by
  have hs := h.state_
  cases s <;> simp_all [Stage.states]
  rcases hs with hs | hs <;> simp [hs]

/-- Once it is established, a connection is registered as `Registered` says. -/
theorem ConnOk.registered (h : ConnOk w c s) (hl : (w.conns c).destroyed = false)
    (hs : (w.conns c).state_ ≠ .kConnecting) : LoopConn.Registered (w.atConn c) := by
  refine ⟨h.inStep hl, h.reading, fun hd => ?_⟩
  show (w.conns c).channel_.index_ = .cAdded
  have hd : (w.conns c).state_ ≠ .kDisconnected := hd
  rw [Ne, h.state_eq_kConnecting] at hs
  rw [Ne, h.state_eq_kDisconnected] at hd
  rw [h.index_]
  cases s <;> simp_all [Stage.index_]

/-! ### Acting on one connection -/

@[simp] theorem setConn_conns_self (m : LoopConn) : (w.setConn c m).conns c = m.conn := by
  simp [World.setConn]

theorem setConn_conns_ne (hdc : d ≠ c) (m : LoopConn) : (w.setConn c m).conns d = w.conns d := by
  simp [World.setConn, hdc]

/-- Two calls on one connection. -/
theorem onConn_setConn {m : LoopConn} (hm : m.me = w.me) (ht : m.this = c)
    (g : LoopConn → LoopConn) : (w.setConn c m).onConn c g = w.setConn c (g m) := by
  subst ht
  cases m
  cases hm
  simp [World.onConn, World.setConn, World.atConn]

/-- A call that settles whether the connection is connected, and `connectionCallback_` after it. -/
theorem connectionCallback_setConn {app : Application υ} {m : LoopConn} (hm : m.me = w.me)
    (ht : m.this = c) {up : Bool} (hup : m.conn.connected = up) :
    (w.setConn c m).connectionCallback app c =
      (w.setConn c (m.record (.connectionCallback up))).callback (app.connectionCallback c) := by
  rw [World.connectionCallback, onConn_setConn hm ht, hup]

theorem queue_setConn_of_pending {m : LoopConn} {fs : List PendingFunctor}
    (hp : m.loop.pendingFunctors_ = w.loop.pendingFunctors_ ++ fs) :
    (w.setConn c m).queue = w.queue ++ fs := by
  show w.rest ++ m.loop.pendingFunctors_ = _
  rw [hp, ← List.append_assoc]
  rfl

/-- A call for `c` queues functors for `c` only. -/
theorem queue_setConn {m : LoopConn} (hf : LoopConn.Frame (w.atConn c) m) :
    ∃ fs, (w.setConn c m).queue = w.queue ++ fs ∧ ∀ f ∈ fs, f.target = some c := by
  obtain ⟨fs, hp, ht⟩ := hf.pending
  exact ⟨fs, queue_setConn_of_pending hp, ht⟩

theorem filter_lifeOf_append {q fs : List PendingFunctor} (hdc : d ≠ c)
    (ht : ∀ f ∈ fs, f.target = some c) :
    (q ++ fs).filter (PendingFunctor.lifeOf d) = q.filter (PendingFunctor.lifeOf d) := by
  have he : fs.filter (PendingFunctor.lifeOf d) = [] := by
    refine List.filter_eq_nil_iff.mpr fun f hf => ?_
    have hne : f.target ≠ some d := fun he => hdc (Option.some.inj (he.symm.trans (ht f hf)))
    simp [PendingFunctor.lifeOf, hne]
  rw [List.filter_append, he, List.append_nil]

/-- **Frame rule**: a call for one connection keeps what is known of another. -/
theorem ConnOk.setConn (h : ConnOk w d s) (hdc : d ≠ c)
    (hfd : (w.conns d).destroyed = false →
      (w.conns d).channel_.fd_ ≠ (w.conns c).channel_.fd_)
    {m : LoopConn} (hf : LoopConn.Frame (w.atConn c) m) : ConnOk (w.setConn c m) d s := by
  obtain ⟨fs, hq, ht⟩ := queue_setConn hf
  have hnot : ∀ f ∈ fs, f.target ≠ some d := fun f hm he =>
    hdc (Option.some.inj (he.symm.trans (ht f hm)))
  have hd := setConn_conns_ne hdc (w := w) m
  constructor
  case functors => rw [hq, filter_lifeOf_append hdc ht, h.functors]
  case soft =>
      intro hs f hm hft
      rw [hq, List.mem_append] at hm
      exact hm.elim (fun hm => h.soft hs f hm hft) fun hm => absurd hft (hnot f hm)
  case raw =>
      intro hs hm
      rw [hq, List.mem_append] at hm
      exact hm.elim (h.raw hs) fun hm => hnot _ hm rfl
  case inStep =>
      rw [hd]
      intro hl
      obtain ⟨h₁, h₂⟩ := hf.slots _ (hfd hl)
      exact (h.inStep hl).congr h₁ h₂
  all_goals rw [hd]
  · exact h.state_
  · exact h.entry
  · exact h.index_
  · exact h.reading
  · exact h.notices
  · exact h.history
  · exact h.dead

theorem live_setConn {m : LoopConn} (hf : LoopConn.Frame (w.atConn c) m) (d : ConnId) :
    (w.setConn c m).Live d ↔ w.Live d := by
  by_cases hdc : d = c
  · subst hdc
    simp only [World.Live, setConn_conns_self, hf.destroyed]
    rfl
  · simp only [World.Live, setConn_conns_ne hdc]
    rfl

theorem fd_setConn {m : LoopConn} (hf : LoopConn.Frame (w.atConn c) m) (d : ConnId) :
    ((w.setConn c m).conns d).channel_.fd_ = (w.conns d).channel_.fd_ := by
  by_cases hdc : d = c
  · subst hdc
    rw [setConn_conns_self, hf.fd_]
    rfl
  · rw [setConn_conns_ne hdc]

theorem name_setConn {m : LoopConn} (hf : LoopConn.Frame (w.atConn c) m) (d : ConnId) :
    ((w.setConn c m).conns d).name_ = (w.conns d).name_ := by
  by_cases hdc : d = c
  · subst hdc
    rw [setConn_conns_self, hf.name_]
    rfl
  · rw [setConn_conns_ne hdc]

theorem slotOf_setConn {m : LoopConn} (hf : LoopConn.Frame (w.atConn c) m) {fd : Fd}
    {r : ChannelRef} (h : w.SlotOf fd r) : (w.setConn c m).SlotOf fd r := by
  cases r with
  | wakeup => exact h
  | acceptor => exact h
  | conn d => exact ⟨(live_setConn hf d).mpr h.1, (fd_setConn hf d).trans h.2⟩

/-- A call for one connection keeps every descriptor where it belongs. -/
theorem Wiring.setConn (h : Wiring w) (hl : w.Live c) {m : LoopConn}
    (hf : LoopConn.Frame (w.atConn c) m) : Wiring (w.setConn c m) where
  distinct d e hd he hfd := by
    rw [fd_setConn hf, fd_setConn hf] at hfd
    exact h.distinct d e ((live_setConn hf d).mp hd) ((live_setConn hf e).mp he) hfd
  reserved d hd := by
    rw [fd_setConn hf]
    exact h.reserved d ((live_setConn hf d).mp hd)
  channels_ fd r hr := by
    by_cases hfd : fd = (w.conns c).channel_.fd_
    · have hi := hf.inStep
      rw [hf.this] at hi
      have hm : m.conn.channel_.fd_ = fd := hf.fd_.trans hfd.symm
      have hr' : m.loop.poller_.channels_ fd = some r := hr
      rcases hi.channels_eq with he | he
      · rw [hm, hr'] at he
        cases he
      · rw [hm, hr', Option.some.injEq] at he
        subst he
        exact ⟨(live_setConn hf c).mpr hl, (fd_setConn hf c).trans hfd.symm⟩
    · refine slotOf_setConn hf (h.channels_ fd r ?_)
      rw [← hr]
      exact (hf.slots fd hfd).1.symm
  kernel fd e he := by
    by_cases hfd : fd = (w.conns c).channel_.fd_
    · have hi := hf.inStep
      rw [hf.this] at hi
      have hm : m.conn.channel_.fd_ = fd := hf.fd_.trans hfd.symm
      have he' : m.loop.poller_.kernel m.conn.channel_.fd_ = some e := hm ▸ he
      rw [(hi.kernel_eq he').2]
      exact ⟨(live_setConn hf c).mpr hl, (fd_setConn hf c).trans hfd.symm⟩
    · refine slotOf_setConn hf (h.kernel fd e ?_)
      rw [← he]
      exact (hf.slots fd hfd).2.symm

theorem WorldOk.wiring (h : WorldOk w stage) : Wiring w :=
  ⟨h.distinct, h.reserved, h.channels_, h.kernel⟩

/-- A call for the live connection `c` that takes it to the stage `s`. -/
theorem WorldOk.setConn (h : WorldOk w stage) (hl : w.Live c) {m : LoopConn}
    (hf : LoopConn.Frame (w.atConn c) m) (hok : ConnOk (w.setConn c m) c s)
    (hraw : (w.setConn c m).queue.Pairwise RawOrder)
    (hact : s.index_ ≠ .cNew ∨ (stage c).index_ = .cNew ∨ w.active = []) :
    WorldOk (w.setConn c m) (Function.update stage c s) where
  conn d hd := by
    by_cases hdc : d = c
    · subst hdc
      rwa [Function.update_self]
    · rw [Function.update_of_ne hdc]
      exact (h.conn d hd).setConn hdc
        (fun hld he => hdc (h.distinct d c ⟨hd, hld⟩ hl he)) hf
  target f hm d hd := by
    obtain ⟨fs, hq, ht⟩ := queue_setConn hf
    rw [hq, List.mem_append] at hm
    rcases hm with hm | hm
    · exact h.target f hm d hd
    · rw [ht f hm, Option.some.injEq] at hd
      exact hd ▸ hl.1
  rawOrder := hraw
  entries name d hn := by
    obtain ⟨h₁, h₂⟩ := h.entries name d hn
    exact ⟨h₁, (name_setConn hf d).trans h₂⟩
  names d hd := (name_setConn hf d).trans (h.names d hd)
  nextConnId_ := h.nextConnId_
  fits := h.fits
  distinct := (h.wiring.setConn hl hf).distinct
  reserved := (h.wiring.setConn hl hf).reserved
  channels_ := (h.wiring.setConn hl hf).channels_
  kernel := (h.wiring.setConn hl hf).kernel
  active r hr d hd := by
    obtain ⟨h₁, h₂⟩ := h.active r hr d hd
    refine ⟨h₁, ?_⟩
    by_cases hdc : d = c
    · subst hdc
      rw [Function.update_self]
      rcases hact with ha | ha | ha
      · exact ha
      · exact absurd ha h₂
      · have hr' : r ∈ w.active := hr
        rw [ha] at hr'
        cases hr'
    · rwa [Function.update_of_ne hdc]

/-- A quiet call keeps the stage of its connection. -/
theorem ConnOk.quiet (h : ConnOk w c s) (hs : (w.conns c).state_ ≠ .kConnecting)
    {m : LoopConn} (q : LoopConn.Quiet (w.atConn c) m) : ConnOk (w.setConn c m) c s := by
  obtain ⟨fs, hp, ht⟩ := q.pending
  have hq : (w.setConn c m).queue = w.queue ++ fs := queue_setConn_of_pending hp
  rw [Ne, h.state_eq_kConnecting] at hs
  constructor
  case functors =>
      rw [hq, List.filter_append, h.functors, List.filter_eq_nil_iff.mpr, List.append_nil]
      intro f hm
      simp [PendingFunctor.lifeOf, (ht f hm).2.1]
  case soft => exact fun hs' => absurd hs' hs
  case raw =>
      intro hg hm
      rw [hq, List.mem_append] at hm
      rcases hm with hm | hm
      · exact h.raw hg hm
      · have := h.opened_of_isOpen ((ht _ hm).2.2 rfl)
        rw [hg] at this
        cases this
  all_goals rw [setConn_conns_self]
  · rcases q.state_ with e | ⟨ho, e⟩
    · rw [e]
      exact h.state_
    · rw [e, h.opened_of_isOpen ho]
      simp [Stage.states]
  · rw [q.name_]
    exact h.entry
  · rw [q.index_]
    exact h.index_
  · exact q.registered.reading
  · rw [q.notices]
    exact h.notices
  · exact q.history h.history
  · intro _
    have hi := q.registered.inStep
    rwa [q.this] at hi
  · rw [q.destroyed]
    exact h.dead

/-- A quiet call keeps every stage. -/
theorem WorldOk.quiet (h : WorldOk w stage) (hl : w.Live c)
    (hs : (w.conns c).state_ ≠ .kConnecting) {m : LoopConn}
    (q : LoopConn.Quiet (w.atConn c) m) : WorldOk (w.setConn c m) stage := by
  have hc := h.conn c hl.1
  have hok := hc.quiet hs q
  have hraw : (w.setConn c m).queue.Pairwise RawOrder := by
    obtain ⟨fs, hp, ht⟩ := q.pending
    rw [queue_setConn_of_pending hp, List.pairwise_append]
    refine ⟨h.rawOrder, ?_, ?_⟩
    · refine List.pairwise_of_forall_mem_list fun f hf g _ d hd => ?_
      have hl := (ht f hf).2.1
      rcases hd with rfl | rfl <;> cases hl
    · -- `shutdownInLoop` is queued by an open connection, which no functor releases
      rintro f hf g hg d hd rfl
      obtain ⟨htg, -, ho⟩ := ht _ hg
      have hdc : d = c := Option.some.inj htg
      subst hdc
      have hm : f ∈ (stage d).functors d := by
        rcases hd with rfl | rfl <;> exact hc.mem_functors hf rfl rfl
      rw [hc.opened_of_isOpen (ho rfl)] at hm
      cases hm
  have hact : (stage c).index_ ≠ .cNew ∨ (stage c).index_ = .cNew ∨ w.active = [] := by
    by_cases hx : (stage c).index_ = .cNew
    · exact .inr (.inl hx)
    · exact .inl hx
  have := h.setConn hl q.frame hok hraw hact
  rwa [Function.update_eq_self] at this

/-! ### Changes that no connection sees -/

theorem ConnOk.congr {w' : World υ} (h : ConnOk w c s) (hc : w'.conns c = w.conns c)
    (hq : w'.queue = w.queue)
    (he : w'.server.connections_.lookup (w.conns c).name_ =
      w.server.connections_.lookup (w.conns c).name_)
    (hp : w'.loop.poller_ = w.loop.poller_) : ConnOk w' c s := by
  constructor
  case functors => rw [hq, h.functors]
  case soft => rw [hq]; exact h.soft
  case raw => rw [hq]; exact h.raw
  case entry => rw [hc, he, h.entry]
  case inStep => rw [hc, hp]; exact h.inStep
  all_goals rw [hc]
  · exact h.state_
  · exact h.index_
  · exact h.reading
  · exact h.notices
  · exact h.history
  · exact h.dead

theorem Wiring.congr {w' : World υ} (h : Wiring w) (hn : w'.created = w.created)
    (hc : w'.conns = w.conns) (hp : w'.loop.poller_ = w.loop.poller_)
    (hwf : w'.wakeupFd = w.wakeupFd) (haf : w'.acceptFd = w.acceptFd) : Wiring w' := by
  have hlive : ∀ c, w'.Live c ↔ w.Live c := fun c => by simp only [World.Live, hn, hc]
  have hslot : ∀ fd r, w.SlotOf fd r → w'.SlotOf fd r := by
    intro fd r hr
    cases r with
    | wakeup => rwa [World.SlotOf, hwf]
    | acceptor => rwa [World.SlotOf, haf]
    | conn c => exact ⟨(hlive c).mpr hr.1, by rw [hc]; exact hr.2⟩
  constructor
  case distinct =>
      intro c d hlc hld hfd
      rw [hc] at hfd
      exact h.distinct c d ((hlive c).mp hlc) ((hlive d).mp hld) hfd
  case reserved =>
      intro c hlc
      rw [hc, hwf, haf]
      exact h.reserved c ((hlive c).mp hlc)
  case channels_ =>
      intro fd r hr
      rw [hp] at hr
      exact hslot fd r (h.channels_ fd r hr)
  case kernel =>
      intro fd e he
      rw [hp] at he
      exact hslot fd e.ptr (h.kernel fd e he)

/-- The invariant does not read the state of the application, nor the phase but for the queue
and the active channels. -/
theorem WorldOk.congr {w' : World υ} (h : WorldOk w stage) (hn : w'.created = w.created)
    (hc : w'.conns = w.conns) (hs : w'.server = w.server) (hq : w'.queue = w.queue)
    (hp : w'.loop.poller_ = w.loop.poller_) (hwf : w'.wakeupFd = w.wakeupFd)
    (haf : w'.acceptFd = w.acceptFd)
    (ha : ∀ r ∈ w'.active, ∀ c, r.1 = .conn c → c < w.created ∧ (stage c).index_ ≠ .cNew) :
    WorldOk w' stage := by
  have hw := h.wiring.congr hn hc hp hwf haf
  constructor
  case conn =>
      intro c hcc
      exact (h.conn c (hn ▸ hcc)).congr (by rw [hc]) hq (by rw [hs]) hp
  case target => rw [hq, hn]; exact h.target
  case rawOrder => rw [hq]; exact h.rawOrder
  case entries => rw [hs, hn, hc]; exact h.entries
  case names => rw [hn, hc, hs]; exact h.names
  case nextConnId_ => rw [hs, hn]; exact h.nextConnId_
  case fits => rw [hn]; exact h.fits
  case distinct => exact hw.distinct
  case reserved => exact hw.reserved
  case channels_ => exact hw.channels_
  case kernel => exact hw.kernel
  case active => rw [hn]; exact ha

end ConnOk
end NetworkStructure
