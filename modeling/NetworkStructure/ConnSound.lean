import NetworkStructure.LifeCycle

/-! # What the state of a connection says

The stages of `ConnStages.lean` describe a server that is never destroyed: `connectDestroyed` is
then called on closed connections only.  Here is what remains true without that.  `ConnSound`
says what the state of a live connection tells of its channel and of DOWN, and `WorldSound` adds
that a connection whose channel has not been removed is still held, by `connections_` or by a
functor that will release it.

Callbacks and handlers keep `WorldSound`, whatever the application does, and `connectDestroyed`
keeps it on a connection whose state is `kConnected` or `kDisconnected`. -/

namespace NetworkStructure

variable {υ : Type} {app : Application υ}

/-! ### What the state of a connection says -/

variable {w w' : World υ} {c d : ConnId} {loose : Option ConnId}

/-- The channel of a live connection is in step with the poller, and as the state asks; DOWN has
been delivered when the connection is closed. -/
structure ConnSound (w : World υ) (c : ConnId) : Prop where
  inStep : InStep w.loop.poller_ (.conn c) (w.conns c).channel_
  reading : (w.conns c).channel_.index_ = .cAdded → (w.conns c).channel_.isReading = true
  fresh : (w.conns c).state_ = .kConnecting → (w.conns c).channel_.index_ = .cNew
  added : (w.conns c).state_ ≠ .kConnecting → (w.conns c).state_ ≠ .kDisconnected →
    (w.conns c).channel_.index_ = .cAdded
  closed : (w.conns c).state_ = .kDisconnected → (w.conns c).channel_.index_ ≠ .cAdded
  downs : (w.conns c).log.count (.connectionCallback false) =
    if (w.conns c).state_ = .kDisconnected then 1 else 0

theorem ConnSound.registered (h : ConnSound w c) (hs : (w.conns c).state_ ≠ .kConnecting) :
    LoopConn.Registered (w.atConn c) :=
  ⟨h.inStep, h.reading, h.added hs⟩

/-- A closed channel wants no event. -/
theorem ConnSound.events_eq_zero (h : ConnSound w c) (hs : (w.conns c).state_ = .kDisconnected) :
    (w.conns c).channel_.events_ = 0 := by
  cases hx : (w.conns c).channel_.index_ with
  | cNew => exact ((inStep_cNew hx).mp h.inStep).1
  | cDeleted => exact ((inStep_cDeleted hx).mp h.inStep).1
  | cAdded => exact absurd hx (h.closed hs)

/-- **Frame rule**: a call for one connection keeps what is known of another. -/
theorem ConnSound.setConn (h : ConnSound w d) (hdc : d ≠ c)
    (hfd : (w.conns d).channel_.fd_ ≠ (w.conns c).channel_.fd_) {m : LoopConn}
    (hf : LoopConn.Frame (w.atConn c) m) : ConnSound (w.setConn c m) d := by
  have hd := setConn_conns_ne hdc (w := w) m
  obtain ⟨h₁, h₂⟩ := hf.slots _ hfd
  constructor
  case inStep =>
      rw [hd]
      exact h.inStep.congr h₁ h₂
  all_goals rw [hd]
  · exact h.reading
  · exact h.fresh
  · exact h.added
  · exact h.closed
  · exact h.downs

theorem ConnSound.congr (h : ConnSound w c) (hc : w'.conns c = w.conns c)
    (hp : w'.loop.poller_ = w.loop.poller_) : ConnSound w' c := by
  constructor
  case inStep =>
      rw [hc, hp]
      exact h.inStep
  all_goals rw [hc]
  · exact h.reading
  · exact h.fresh
  · exact h.added
  · exact h.closed
  · exact h.downs

theorem count_notices (t : TcpConnection) (b : Bool) :
    t.notices.count (.connectionCallback b) = t.log.count (.connectionCallback b) :=
  List.count_filter rfl

/-- A quiet call. -/
theorem ConnSound.quiet (h : ConnSound w c) (hs : (w.conns c).state_ ≠ .kConnecting)
    {m : LoopConn} (q : LoopConn.Quiet (w.atConn c) m) : ConnSound (w.setConn c m) c := by
  have hdown : m.conn.state_ = .kDisconnected ↔ (w.conns c).state_ = .kDisconnected := by
    rcases q.state_ with e | ⟨ho, e⟩
    · rw [e]
      rfl
    · have ho : (w.conns c).state_ = .kConnected ∨ (w.conns c).state_ = .kDisconnecting :=
        of_decide_eq_true ho
      rcases ho with ho | ho <;> simp [e, ho]
  have hstate : m.conn.state_ ≠ .kConnecting := by
    rcases q.state_ with e | ⟨-, e⟩ <;> rw [e]
    · exact hs
    · decide
  constructor
  case inStep =>
      have hi := q.registered.inStep
      rw [setConn_conns_self]
      rwa [q.this] at hi
  all_goals rw [setConn_conns_self]
  · exact q.registered.reading
  · exact fun he => absurd he hstate
  · exact fun _ => q.registered.added
  · intro he
    rw [q.index_]
    exact h.closed (hdown.mp he)
  · rw [← count_notices, q.notices, count_notices]
    have hd := h.downs
    simp only [hdown]
    exact hd

/-! ### The process -/

namespace World

/-- `connections_` holds the connection, or a functor that will release it is still to run. -/
def Held (w : World υ) (c : ConnId) : Prop :=
  (∃ name, w.server.connections_.lookup name = some c) ∨
    ∃ f ∈ w.queue, f = .connectDestroyed c ∨ f = .removeConnectionInLoop c

/-- The connection is closed and its channel has been removed. -/
def Removed (w : World υ) (c : ConnId) : Prop :=
  (w.conns c).state_ = .kDisconnected ∧ (w.conns c).channel_.index_ = .cNew

/-- `it->second.reset()` in `~TcpServer`. -/
def resetEntry (w : World υ) (c : ConnId) : World υ :=
  { w with server := { w.server with
    connections_ := w.server.connections_.erase (w.conns c).name_ } }

end World

/-- What holds between two steps of the process; `loose` is a connection that is just being
released. -/
structure WorldSound (w : World υ) (loose : Option ConnId) : Prop where
  conn : ∀ c, w.Live c → ConnSound w c
  held : ∀ c, w.Live c → loose ≠ some c → w.Removed c ∨ w.Held c
  owned : ∀ f ∈ w.batch ++ w.loop.pendingFunctors_, ∀ c, f.owns c = true → w.Live c
  raw : ∀ c, .shutdownInLoop c ∈ w.queue → c < w.created ∧ (w.conns c).state_ ≠ .kConnecting
  entries : ∀ name c, w.server.connections_.lookup name = some c →
    w.Live c ∧ (w.conns c).name_ = name
  named : w.Named
  wiring : Wiring w
  active : ∀ r ∈ w.active, ∀ c, r.1 = .conn c →
    c < w.created ∧ (w.conns c).state_ ≠ .kConnecting

theorem owns_of_target {f : PendingFunctor} (h : f.owns d = true) : f.target = some d := by
  cases f <;> simp_all [PendingFunctor.owns, PendingFunctor.target]

theorem WorldSound.weaken (h : WorldSound w none) : WorldSound w loose :=
  { h with held := fun c hl _ => h.held c hl (by simp) }

/-- A call for the live connection `c`. -/
theorem WorldSound.setConn (h : WorldSound w loose) (hl : w.Live c) {m : LoopConn}
    (hf : LoopConn.Frame (w.atConn c) m) (hok : ConnSound (w.setConn c m) c)
    (hst : m.conn.state_ ≠ .kConnecting)
    (hrem : w.Removed c → m.conn.state_ = .kDisconnected ∧ m.conn.channel_.index_ = .cNew) :
    WorldSound (w.setConn c m) loose := by
  obtain ⟨fs, hp, ht⟩ := hf.pending
  have hq : (w.setConn c m).queue = w.queue ++ fs := queue_setConn_of_pending hp
  have hlive := fun d => live_setConn hf (w := w) d
  have hstate : ∀ d, (w.conns d).state_ ≠ .kConnecting →
      ((w.setConn c m).conns d).state_ ≠ .kConnecting := by
    intro d hd
    by_cases hdc : d = c
    · rw [hdc, setConn_conns_self]
      exact hst
    · rwa [setConn_conns_ne hdc]
  constructor
  case conn =>
      intro d hd
      by_cases hdc : d = c
      · exact hdc ▸ hok
      · have hd' := (hlive d).mp hd
        exact (h.conn d hd').setConn hdc (fun he => hdc (h.wiring.distinct d c hd' hl he)) hf
  case held =>
      intro d hd hne
      rcases h.held d ((hlive d).mp hd) hne with hr | ⟨name, hn⟩ | ⟨f, hm, hf⟩
      · left
        by_cases hdc : d = c
        · subst hdc
          rw [World.Removed, setConn_conns_self]
          exact hrem hr
        · rwa [World.Removed, setConn_conns_ne hdc]
      · exact .inr (.inl ⟨name, hn⟩)
      · exact .inr (.inr ⟨f, by rw [hq]; exact List.mem_append_left _ hm, hf⟩)
  case owned =>
      intro f hm d hd
      rw [hlive]
      have hm : f ∈ w.batch ++ m.loop.pendingFunctors_ := hm
      rw [hp, ← List.append_assoc] at hm
      rcases List.mem_append.mp hm with hm | hm
      · exact h.owned f hm d hd
      · have := (owns_of_target hd).symm.trans (ht f hm)
        rw [Option.some.injEq] at this
        exact this ▸ hl
  case raw =>
      intro d hm
      rw [hq, List.mem_append] at hm
      rcases hm with hm | hm
      · obtain ⟨h₁, h₂⟩ := h.raw d hm
        exact ⟨h₁, hstate d h₂⟩
      · obtain rfl : d = c := Option.some.inj (ht _ hm)
        refine ⟨hl.1, ?_⟩
        rw [setConn_conns_self]
        exact hst
  case entries =>
      intro name d hd
      obtain ⟨h₁, h₂⟩ := h.entries name d hd
      exact ⟨(hlive d).mpr h₁, (name_setConn hf d).trans h₂⟩
  case named =>
      exact ⟨fun d hd => (name_setConn hf d).trans (h.named.names d hd), h.named.nextConnId_,
        h.named.fits⟩
  case wiring => exact h.wiring.setConn hl hf
  case active =>
      intro r hr d hd
      obtain ⟨h₁, h₂⟩ := h.active r hr d hd
      exact ⟨h₁, hstate d h₂⟩

/-- A quiet call. -/
theorem WorldSound.quiet (h : WorldSound w loose) (hl : w.Live c)
    (hs : (w.conns c).state_ ≠ .kConnecting) {m : LoopConn}
    (q : LoopConn.Quiet (w.atConn c) m) : WorldSound (w.setConn c m) loose := by
  refine h.setConn hl q.frame ((h.conn c hl).quiet hs q) ?_ fun hr => ?_
  · rcases q.state_ with e | ⟨-, e⟩ <;> rw [e]
    · exact hs
    · decide
  · rw [q.index_]
    rcases q.state_ with e | ⟨ho, -⟩
    · exact ⟨e.trans hr.1, hr.2⟩
    · have ho := of_decide_eq_true ho
      simp [World.atConn, hr.1] at ho

/-- The invariant reads the phase only for the functors and the active channels. -/
theorem WorldSound.congr (h : WorldSound w loose) (hn : w'.created = w.created)
    (hc : w'.conns = w.conns) (hs : w'.server = w.server) (hq : w'.queue = w.queue)
    (hb : ∀ f ∈ w'.batch ++ w'.loop.pendingFunctors_, f ∈ w.batch ++ w.loop.pendingFunctors_)
    (hp : w'.loop.poller_ = w.loop.poller_) (hwf : w'.wakeupFd = w.wakeupFd)
    (haf : w'.acceptFd = w.acceptFd)
    (ha : ∀ r ∈ w'.active, ∀ c, r.1 = .conn c →
      c < w.created ∧ (w.conns c).state_ ≠ .kConnecting) : WorldSound w' loose := by
  have hlive : ∀ c, w'.Live c ↔ w.Live c := fun c => by simp only [World.Live, hn, hc]
  constructor
  case conn => exact fun c hl => (h.conn c ((hlive c).mp hl)).congr (by rw [hc]) hp
  case held =>
      intro c hl hne
      simp only [World.Removed, World.Held, hc, hs, hq]
      exact h.held c ((hlive c).mp hl) hne
  case owned => exact fun f hf c ho => (hlive c).mpr (h.owned f (hb f hf) c ho)
  case raw => rw [hq, hn, hc]; exact h.raw
  case entries =>
      intro name c hl
      rw [hs] at hl
      rw [hlive, hc]
      exact h.entries name c hl
  case named => exact ⟨by rw [hn, hc, hs]; exact h.named.names,
    by rw [hs, hn]; exact h.named.nextConnId_, by rw [hn]; exact h.named.fits⟩
  case wiring => exact h.wiring.congr hn hc hp hwf haf
  case active => rw [hn, hc]; exact ha

/-! ### Queueing and callbacks -/

theorem WorldSound.push (h : WorldSound w loose) (t : ThreadId) {f : PendingFunctor}
    (ho : ∀ c, f.owns c = true → w.Live c) (hraw : ∀ c, f ≠ .shutdownInLoop c) :
    WorldSound (w.push t f) loose where
  conn c hl := (h.conn c hl).congr rfl (poller_push t f)
  held c hl hne := by
    rcases h.held c hl hne with hr | he | ⟨g, hm, hg⟩
    · exact .inl hr
    · exact .inr (.inl he)
    · exact .inr (.inr ⟨g, by rw [queue_push]; exact List.mem_append_left _ hm, hg⟩)
  owned g hm c hg := by
    have hm : g ∈ w.batch ++ (w.loop.queueInLoop t f).pendingFunctors_ := hm
    rw [EventLoop.queueInLoop_pendingFunctors_, ← List.append_assoc] at hm
    rcases List.mem_append.mp hm with hm | hm
    · exact h.owned g hm c hg
    · rw [List.mem_singleton.mp hm] at hg
      exact ho c hg
  raw c hm := by
    rw [queue_push, List.mem_append, List.mem_singleton] at hm
    rcases hm with hm | hm
    · exact h.raw c hm
    · exact absurd hm.symm (hraw c)
  entries := h.entries
  named := ⟨h.named.names, h.named.nextConnId_, h.named.fits⟩
  wiring := h.wiring.push t f
  active := h.active

/-- What no callback changes. -/
structure Later (w w' : World υ) : Prop where
  same : Same w w'
  live : ∀ c, w'.Live c ↔ w.Live c
  closed : ∀ c, (w.conns c).state_ = .kDisconnected → (w'.conns c).state_ = .kDisconnected
  started : ∀ c, (w.conns c).state_ ≠ .kConnecting → (w'.conns c).state_ ≠ .kConnecting

theorem Later.rfl : Later w w := ⟨.rfl, fun _ => Iff.rfl, fun _ h => h, fun _ h => h⟩

theorem Later.trans {w'' : World υ} (h₁ : Later w w') (h₂ : Later w' w'') : Later w w'' :=
  ⟨h₁.same.trans h₂.same, fun c => (h₂.live c).trans (h₁.live c),
    fun c h => h₂.closed c (h₁.closed c h), fun c h => h₂.started c (h₁.started c h)⟩

theorem later_quiet {m : LoopConn} (q : LoopConn.Quiet (w.atConn c) m) :
    Later w (w.setConn c m) := by
  refine ⟨same_setConn q.frame, live_setConn q.frame, fun d hd => ?_, fun d hd => ?_⟩
  · by_cases hdc : d = c
    · subst hdc
      rw [setConn_conns_self]
      rcases q.state_ with e | ⟨ho, -⟩
      · exact e.trans hd
      · have ho := of_decide_eq_true ho
        simp [World.atConn, hd] at ho
    · rwa [setConn_conns_ne hdc]
  · by_cases hdc : d = c
    · subst hdc
      rw [setConn_conns_self]
      rcases q.state_ with e | ⟨-, e⟩ <;> rw [e]
      · exact hd
      · decide
    · rwa [setConn_conns_ne hdc]

theorem WorldSound.call (h : WorldSound w loose) (a : ApiCall) :
    Ensures (fun w' => WorldSound w' loose ∧ Later w w') (fun _ => True) (w.call a) := by
  cases a with
  | queueInLoop n =>
      exact ⟨h.push _ (fun c hc => by cases hc) (by simp),
        ⟨same_push _ _, fun _ => Iff.rfl, fun _ hd => hd, fun _ hd => hd⟩⟩
  | member conn a =>
      cases conn with
      | none => trivial
      | some c =>
          simp only [World.call, ensures_ok]
          split
          · next hk =>
            simp only [World.knows, Bool.and_eq_true, decide_eq_true_eq, Bool.not_eq_true'] at hk
            obtain ⟨⟨hc, hl⟩, hs⟩ := hk
            have q := LoopConn.quiet_member ((h.conn c ⟨hc, hl⟩).registered hs) a
            exact ⟨h.quiet ⟨hc, hl⟩ hs q, later_quiet q⟩
          · exact ⟨h, .rfl⟩

theorem WorldSound.callback (h : WorldSound w loose) (cb : Callback υ) :
    Ensures (fun w' => WorldSound w' loose ∧ Later w w') (fun _ => True) (w.callback cb) := by
  refine ensures_foldlM (I := fun w' => WorldSound w' loose ∧ Later w w') ?_ ⟨?_, ?_⟩
  · rintro w₁ ⟨h₁, hs₁⟩ a -
    exact (h₁.call a).mono (fun w₂ h₂ => ⟨h₂.1, hs₁.trans h₂.2⟩) fun _ he => he
  · exact h.congr rfl rfl rfl rfl (fun _ hf => hf) rfl rfl rfl h.active
  · exact ⟨⟨rfl, rfl, rfl, rfl⟩, fun _ => Iff.rfl, fun _ hd => hd, fun _ hd => hd⟩

/-! ### From state to state -/

/-- `connectEstablished` on a connection that is not established yet. -/
theorem WorldSound.connectEstablished (h : WorldSound w loose) (hl : w.Live c) :
    Ensures (fun w' => WorldSound w' loose ∧ Same w w') (fun _ => True)
      (w.connectEstablished app c) := by
  unfold World.connectEstablished
  split
  · next hst =>
    have hok := h.conn c hl
    have hx := hok.fresh hst
    obtain ⟨hf, hr, hm, hx', -, -, hlog⟩ :=
      LoopConn.establish_spec (l := w.atConn c) hok.inStep hx
    have hf' := hf.record (.connectionCallback true)
    have hnew : ConnSound (w.setConn c ((w.atConn c).establish.record (.connectionCallback true)))
        c := by
      constructor
      case inStep =>
          rw [setConn_conns_self]
          exact hr.inStep
      all_goals rw [setConn_conns_self]
      · exact hr.reading
      · simp [hm]
      · exact fun _ _ => hx'
      · simp [hm]
      · have hd : (w.atConn c).conn.log.count (.connectionCallback false) = 0 := by
          rw [World.atConn, hok.downs, hst]
          rfl
        simp [hm, hlog, List.count_append, hd]
    have hworld := h.setConn hl hf' hnew (by simp [hm]) fun hrem => by
      have := hrem.1
      rw [hst] at this
      cases this
    have hup : (w.atConn c).establish.conn.connected = true := by
      simp [TcpConnection.connected, hm]
    have heq : (w.onConn c (·.establish)).connectionCallback app c = _ :=
      connectionCallback_setConn (m := (w.atConn c).establish) rfl rfl hup
    rw [heq]
    exact (hworld.callback _).mono
      (fun w' hw' => ⟨hw'.1, (same_setConn hf').trans hw'.2.same⟩) fun _ he => he
  · trivial

/-- An open connection is closed and the application is told. -/
theorem WorldSound.disconnect (h : WorldSound w loose) (hl : w.Live c)
    (ho : (w.atConn c).isOpen = true) :
    Ensures (fun w' => WorldSound w' loose ∧ Same w w' ∧ w'.Live c ∧
        (w'.conns c).state_ = .kDisconnected) (fun _ => True)
      ((w.onConn c (·.disconnect)).connectionCallback app c) := by
  have hok := h.conn c hl
  have hst : (w.conns c).state_ = .kConnected ∨ (w.conns c).state_ = .kDisconnecting :=
    of_decide_eq_true ho
  have hreg := hok.registered (by rcases hst with e | e <;> rw [e] <;> decide)
  obtain ⟨hf, hr, hm, hx, -, -, hlog⟩ := LoopConn.disconnect_spec hreg ho
  have hf' := hf.record (.connectionCallback false)
  have hnew : ConnSound (w.setConn c ((w.atConn c).disconnect.record (.connectionCallback false)))
      c := by
    constructor
    case inStep =>
        rw [setConn_conns_self]
        exact hr.inStep
    all_goals rw [setConn_conns_self]
    · exact hr.reading
    · simp [hm]
    · simp [hm]
    · simp [hx]
    · have hd : (w.atConn c).conn.log.count (.connectionCallback false) = 0 := by
        rw [World.atConn, hok.downs, if_neg (by rcases hst with e | e <;> rw [e] <;> decide)]
      simp [hm, hlog, List.count_append, hd]
  have hworld := h.setConn hl hf' hnew (by simp [hm]) fun hrem => by
    have := hrem.1
    rcases hst with e | e <;> rw [e] at this <;> cases this
  have hup : (w.atConn c).disconnect.conn.connected = false := by
    simp [TcpConnection.connected, hm]
  have heq : (w.onConn c (·.disconnect)).connectionCallback app c = _ :=
    connectionCallback_setConn (m := (w.atConn c).disconnect) rfl rfl hup
  rw [heq]
  refine (hworld.callback _).mono ?_ fun _ he => he
  rintro w' ⟨hw', hlater⟩
  refine ⟨hw', (same_setConn hf').trans hlater.same, ?_, hlater.closed c ?_⟩
  · exact (hlater.live c).mpr ((live_setConn hf' c).mpr hl)
  · rw [setConn_conns_self]
    simp [hm]

/-- The end of `connectDestroyed` on a closed connection. -/
theorem WorldSound.channelRemove (h : WorldSound w (some c)) (hl : w.Live c)
    (hst : (w.conns c).state_ = .kDisconnected) :
    WorldSound (w.onConn c fun l => l.channelRemove.record .connectDestroyed) none ∧
      (w.onConn c fun l => l.channelRemove.record .connectDestroyed).Live c ∧
      (w.onConn c fun l => l.channelRemove.record .connectDestroyed).Removed c := by
  have hok := h.conn c hl
  obtain ⟨hf, hx⟩ := LoopConn.channelRemove_spec (l := w.atConn c) hok.inStep
    (hok.events_eq_zero hst)
  have hf' := hf.record .connectDestroyed
  have hm : ((w.atConn c).channelRemove.record .connectDestroyed).conn.state_ = .kDisconnected :=
    hst
  have hnew : ConnSound (w.setConn c ((w.atConn c).channelRemove.record .connectDestroyed)) c := by
    constructor
    case inStep =>
        rw [setConn_conns_self]
        exact hf'.inStep
    all_goals rw [setConn_conns_self]
    · intro hi
      exact absurd (hx.symm.trans hi) (by decide)
    · exact fun he => absurd (hm.symm.trans he) (by decide)
    · exact fun _ hne => absurd hm hne
    · intro _ hi
      exact absurd (hx.symm.trans hi) (by decide)
    · have hd := hok.downs
      rw [if_pos hst] at hd
      rw [hm, if_pos rfl]
      simpa [LoopConn.channelRemove, World.atConn, List.count_append] using hd
  have hrem : (w.setConn c ((w.atConn c).channelRemove.record .connectDestroyed)).Removed c := by
    rw [World.Removed, setConn_conns_self]
    exact ⟨hm, hx⟩
  have hw := h.setConn hl hf' hnew (by rw [hm]; decide) fun _ => ⟨hm, hx⟩
  refine ⟨{ hw with held := fun d hd _ => ?_ }, (live_setConn hf' c).mpr hl, hrem⟩
  by_cases hdc : d = c
  · exact .inl (hdc ▸ hrem)
  · exact hw.held d hd fun he => hdc (Option.some.inj he).symm

/-- `connectDestroyed` on a connection that is connected or closed removes its channel. -/
theorem WorldSound.connectDestroyed (h : WorldSound w (some c)) (hl : w.Live c)
    (hst : (w.conns c).state_ = .kConnected ∨ (w.conns c).state_ = .kDisconnected) :
    Ensures (fun w' => WorldSound w' none ∧ w'.Live c ∧ w'.Removed c) (fun _ => True)
      (w.connectDestroyed app c) := by
  unfold World.connectDestroyed
  refine Ensures.bind (P := fun w' => WorldSound w' (some c) ∧ w'.Live c ∧
    (w'.conns c).state_ = .kDisconnected) ?_ fun w' hw' => hw'.1.channelRemove hw'.2.1 hw'.2.2
  split
  · next hc =>
    refine (h.disconnect hl (by simp [LoopConn.isOpen, World.atConn, hc])).mono ?_ fun _ he => he
    rintro w' ⟨hw', -, hrest⟩
    exact ⟨hw', hrest⟩
  · next hc => exact ⟨h, hl, hst.resolve_left hc⟩

/-! ### The entry of a connection -/

theorem World.Named.name_injective (h : w.Named) (hc : c < w.created) (hd : d < w.created)
    (he : (w.conns c).name_ = (w.conns d).name_) : c = d := by
  rw [h.names c hc, h.names d hd] at he
  have hle : ∀ e < w.created, e + 1 ≤ INT_MAX := fun e hlt =>
    Nat.le_trans (Nat.succ_le_of_lt hlt) (Nat.le_of_lt h.fits)
  exact Nat.succ.inj
    (suffix_injective w.server (hle c hc) (hle d hd) (List.append_cancel_left he))

theorem WorldSound.resetEntry (h : WorldSound w loose) (hl : w.Live c)
    (hloose : loose = none ∨ loose = some c) : WorldSound (w.resetEntry c) (some c) where
  conn d hd := (h.conn d hd).congr rfl rfl
  held d hd hne := by
    have hdc : d ≠ c := fun he => hne (he ▸ rfl)
    have hloose : loose ≠ some d := by
      rintro rfl
      rcases hloose with he | he
      · cases he
      · exact hdc (Option.some.inj he)
    rcases h.held d hd hloose with hr | ⟨name, hn⟩ | hf
    · exact .inl hr
    · refine .inr (.inl ⟨name, ?_⟩)
      have hname : name ≠ (w.conns c).name_ := by
        rw [← (h.entries name d hn).2]
        exact fun he => hdc (h.named.name_injective hd.1 hl.1 he)
      exact (AList.lookup_erase_ne hname).trans hn
    · exact .inr (.inr hf)
  owned := h.owned
  raw := h.raw
  entries name d hd := by
    apply h.entries name d
    by_cases hn : name = (w.conns c).name_
    · subst hn
      have hd : (w.server.connections_.erase (w.conns c).name_).lookup (w.conns c).name_ = some d :=
        hd
      rw [AList.lookup_erase] at hd
      cases hd
    · exact (AList.lookup_erase_ne hn).symm.trans hd
  named := ⟨h.named.names, h.named.nextConnId_, h.named.fits⟩
  wiring := h.wiring.congr rfl rfl rfl rfl rfl
  active := h.active

/-- A functor that releases the connection is queued. -/
theorem WorldSound.release (h : WorldSound w (some c)) (hl : w.Live c) (t : ThreadId)
    {f : PendingFunctor} (hf : f = .connectDestroyed c ∨ f = .removeConnectionInLoop c) :
    WorldSound (w.push t f) none := by
  have hw := h.push t (f := f)
    (fun d hd => by
      rcases hf with rfl | rfl <;> exact of_decide_eq_true hd ▸ hl)
    (by rcases hf with rfl | rfl <;> simp)
  refine { hw with held := fun d hd _ => ?_ }
  by_cases hdc : d = c
  · subst hdc
    exact .inr (.inr ⟨f, by rw [queue_push]; simp, hf⟩)
  · exact hw.held d hd fun he => hdc (Option.some.inj he).symm

theorem WorldSound.removeConnectionInLoop (h : WorldSound w (some c)) (hl : w.Live c) :
    WorldSound (w.removeConnectionInLoop c) none :=
  (h.resetEntry hl (.inr rfl)).release hl w.me (.inl rfl)

theorem WorldSound.removeConnection (h : WorldSound w none) (hl : w.Live c) :
    WorldSound (w.removeConnection c) none := by
  unfold World.removeConnection
  split
  · exact h.weaken.removeConnectionInLoop hl
  · exact h.weaken.release hl w.me (.inr rfl)

/-! ### Handlers -/

/-- An event other than DOWN is recorded. -/
theorem WorldSound.record (h : WorldSound w loose) (hl : w.Live c)
    (hs : (w.conns c).state_ ≠ .kConnecting) {e : ConnEvent} (he : e ≠ .connectionCallback false) :
    WorldSound (w.onConn c (·.record e)) loose := by
  have hok := h.conn c hl
  refine h.setConn hl ((LoopConn.Frame.rfl (l := w.atConn c) hok.inStep).record e) ?_ hs
    fun hr => hr
  constructor
  case inStep =>
      rw [setConn_conns_self]
      exact hok.inStep
  all_goals rw [setConn_conns_self]
  · exact hok.reading
  · exact hok.fresh
  · exact hok.added
  · exact hok.closed
  · refine Eq.trans ?_ hok.downs
    simp [World.atConn, List.count_append, he]

/-- What a handler of the connection `c` keeps. -/
def SoundAt (c : ConnId) (w : World υ) : Prop :=
  WorldSound w none ∧ w.Live c ∧ (w.conns c).state_ ≠ .kConnecting

theorem WorldSound.handleClose (h : WorldSound w none) (hl : w.Live c) :
    Ensures (fun w' => WorldSound w' none ∧
        ((w.conns c).state_ ≠ .kConnecting → SoundAt c w'))
      (fun _ => True) (w.handleClose app c) := by
  unfold World.handleClose
  split
  · next ho =>
    apply (h.disconnect hl ho).bind
    rintro w₁ ⟨h₁, -, hl₁, hst₁⟩
    have hne : (w₁.conns c).state_ ≠ .kConnecting := by
      rw [hst₁]
      decide
    have h₂ := h₁.record hl₁ hne (e := .closeCallback) (by simp)
    have hl₂ : (w₁.onConn c (·.record .closeCallback)).Live c :=
      (live_setConn ((LoopConn.Frame.rfl (h₁.conn c hl₁).inStep).record .closeCallback) c).mpr hl₁
    have h₃ := h₂.removeConnection hl₂
    have hconns : ((w₁.onConn c (·.record .closeCallback)).removeConnection c).conns =
        (w₁.onConn c (·.record .closeCallback)).conns := by
      unfold World.removeConnection
      split <;> rfl
    refine ⟨h₃, fun _ => ⟨h₃, ?_, ?_⟩⟩
    · refine ⟨?_, by rw [hconns]; exact hl₂.2⟩
      unfold World.removeConnection
      split <;> exact hl₂.1
    · rw [hconns]
      simpa [World.onConn, World.atConn] using hne
  · exact ⟨h, fun hs => ⟨h, hl, hs⟩⟩

theorem SoundAt.handleClose (h : SoundAt c w) :
    Ensures (SoundAt c) (fun _ => True) (w.handleClose app c) :=
  (h.1.handleClose h.2.1).mono (fun _ hw' => hw'.2 h.2.2) fun _ he => he

theorem SoundAt.quiet (h : SoundAt c w) {f : LoopConn → LoopConn}
    (hf : ∀ l, LoopConn.Registered l → LoopConn.Quiet l (f l)) : SoundAt c (w.onConn c f) := by
  obtain ⟨hw, hl, hs⟩ := h
  have q := hf _ ((hw.conn c hl).registered hs)
  have hlater := later_quiet q
  exact ⟨hw.quiet hl hs q, (hlater.live c).mpr hl, hlater.started c hs⟩

theorem SoundAt.callback (h : SoundAt c w) (cb : Callback υ) :
    Ensures (SoundAt c) (fun _ => True) (w.callback cb) := by
  obtain ⟨hw, hl, hs⟩ := h
  refine (hw.callback cb).mono ?_ fun _ he => he
  rintro w' ⟨hw', hlater⟩
  exact ⟨hw', (hlater.live c).mpr hl, hlater.started c hs⟩

theorem SoundAt.handleRead (h : SoundAt c w) (read : Option (List UInt8)) :
    Ensures (SoundAt c) (fun _ => True) (w.handleRead app c read) := by
  unfold World.handleRead
  split
  · exact h
  · exact h.handleClose
  · exact (h.quiet fun l hl => LoopConn.quiet_record hl rfl rfl).callback _

theorem SoundAt.handleEventWithGuard (h : SoundAt c w) (revents : Mask)
    (read : Option (List UInt8)) :
    Ensures (SoundAt c) (fun _ => True) (w.handleEventWithGuard app c revents read) := by
  unfold World.handleEventWithGuard
  refine Ensures.bind (P := SoundAt c) ?_ fun w₁ h₁ =>
    Ensures.bind (P := SoundAt c) ?_ fun w₂ h₂ => ?_
  · split
    · exact h.handleClose
    · exact h
  · split
    · exact h₁.handleRead read
    · exact h₁
  · rw [ensures_ok]
    split
    · exact h₂.quiet fun l hl => LoopConn.quiet_handleWrite hl
    · exact h₂

/-! ### Accepting a connection -/

theorem WorldSound.insertConnection (h : WorldSound w none) {fd : Fd} (hfd : ¬ w.IsOpen fd)
    (socket : List WriteResult) (hmax : w.server.nextConnId_ ≠ INT_MAX) :
    WorldSound (w.insertConnection app fd socket) none ∧
      (w.insertConnection app fd socket).Live w.created := by
  obtain ⟨hfc, hfk⟩ := h.wiring.slot_of_not_isOpen hfd
  have hnone := h.named.lookup_connName fun name c he =>
    ⟨(h.entries name c he).1.1, (h.entries name c he).2⟩
  have hself := insertConnection_conns_self w app fd socket
  have hother : ∀ d, d ≠ w.created →
      (w.insertConnection app fd socket).conns d = w.conns d := fun d hd =>
    insertConnection_conns_ne hd
  have hne : ∀ d, w.Live d → d ≠ w.created := fun d hd => Nat.ne_of_lt hd.1
  have hlive : ∀ d, w.Live d → (w.insertConnection app fd socket).Live d := fun d hd =>
    (live_insertConnection (hne d hd)).mpr hd
  have hnew : (w.insertConnection app fd socket).Live w.created :=
    ⟨Nat.lt_succ_self _, by rw [hself]; rfl⟩
  have hentry : (w.insertConnection app fd socket).server.connections_.lookup
      (w.server.connName w.server.nextConnId_) = some w.created := AList.lookup_insert _
  have hstate : ∀ d < w.created, (w.conns d).state_ ≠ .kConnecting →
      d < (w.insertConnection app fd socket).created ∧
        ((w.insertConnection app fd socket).conns d).state_ ≠ .kConnecting := fun d hd hs =>
    ⟨Nat.lt_succ_of_lt hd, by rwa [hother d (Nat.ne_of_lt hd)]⟩
  refine ⟨?_, hnew⟩
  constructor
  case conn =>
      intro d hd
      by_cases hdc : d = w.created
      · subst hdc
        constructor
        case inStep =>
            rw [hself]
            exact (inStep_cNew rfl).mpr ⟨rfl, hfc, hfk⟩
        all_goals rw [hself]
        · intro hx
          cases hx
        · exact fun _ => rfl
        · exact fun hs => absurd rfl hs
        · intro hs
          cases hs
        · rfl
      · exact (h.conn d ((live_insertConnection hdc).mp hd)).congr (hother d hdc) rfl
  case held =>
      intro d hd _
      by_cases hdc : d = w.created
      · exact .inr (.inl ⟨_, hdc ▸ hentry⟩)
      · rcases h.held d ((live_insertConnection hdc).mp hd) (by simp) with hr | ⟨name, hn⟩ | hf
        · left
          rwa [World.Removed, hother d hdc]
        · refine .inr (.inl ⟨name, ?_⟩)
          refine (AList.lookup_insert_ne ?_).trans hn
          rintro rfl
          rw [hnone] at hn
          cases hn
        · exact .inr (.inr hf)
  case owned => exact fun f hf d hd => hlive d (h.owned f hf d hd)
  case raw =>
      intro d hm
      obtain ⟨h₁, h₂⟩ := h.raw d hm
      exact hstate d h₁ h₂
  case entries =>
      intro name d hd
      rcases entry_insertConnection hd with ⟨rfl, hn⟩ | hd
      · exact ⟨hnew, hn⟩
      · obtain ⟨h₁, h₂⟩ := h.entries name d hd
        exact ⟨hlive d h₁, by rw [hother d (hne d h₁), h₂]⟩
  case named => exact h.named.insertConnection app fd socket hmax
  case wiring => exact h.wiring.insertConnection app hfd socket
  case active =>
      intro r hr d hd
      obtain ⟨h₁, h₂⟩ := h.active r hr d hd
      exact hstate d h₁ h₂

theorem WorldSound.newConnection (h : WorldSound w none) {fd : Fd} (hfd : ¬ w.IsOpen fd)
    (socket : List WriteResult) :
    Ensures (fun w' => WorldSound w' none) (fun _ => True) (w.newConnection app fd socket) := by
  unfold World.newConnection
  split
  · trivial
  · next hmax =>
    obtain ⟨hi, hl⟩ := h.insertConnection hfd socket hmax
    split
    · exact (hi.connectEstablished hl).mono (fun _ hw' => hw'.1) fun _ he => he
    · exact hi.push w.me (f := .connectEstablished w.created)
        (fun d hd => of_decide_eq_true hd ▸ hl) (by simp)

theorem WorldSound.handleEvent (h : WorldSound w none) {channel : ChannelRef} {revents : Mask}
    (hact : ∀ c, channel = .conn c → c < w.created ∧ (w.conns c).state_ ≠ .kConnecting)
    {accepted : Option (Fd × List WriteResult)} (ha : ∀ a, accepted = some a → ¬ w.IsOpen a.1)
    (read : Option (List UInt8)) :
    Ensures (fun w' => WorldSound w' none) (fun _ => True)
      (w.handleEvent app channel revents accepted read) := by
  cases channel with
  | wakeup =>
      simp only [World.handleEvent, ensures_ok]
      split
      · exact h.congr rfl rfl rfl rfl (fun _ hf => hf) rfl rfl rfl h.active
      · exact h
  | acceptor =>
      cases accepted with
      | none => exact h
      | some a =>
          simp only [World.handleEvent]
          split
          · exact h.newConnection (ha a rfl) a.2
          · exact h
  | conn c =>
      obtain ⟨hc, hs⟩ := hact c rfl
      rw [World.handleEvent, World.handleConn]
      split
      · split
        · exact h
        · trivial
      · next hl =>
        exact (SoundAt.handleEventWithGuard ⟨h, ⟨hc, Bool.eq_false_iff.mpr hl⟩, hs⟩ revents
          read).mono (fun _ hw' => hw'.1) fun _ he => he

end NetworkStructure
