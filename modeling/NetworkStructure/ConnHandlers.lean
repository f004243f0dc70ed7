import NetworkStructure.ConnStages

/-! # Handlers and stages

What the callbacks, the handlers and the member functions of the server do to the stages of the
connections.  A callback keeps every stage.  The member functions of the life cycle move one
connection on: `connectEstablished` from `newborn` to `opened`, `handleClose` from `opened`
through `down` and `closing` to `removing` or, when the loop's thread calls directly, to
`destroying`.  `Handled` is what every handler of a connection ensures. -/

namespace NetworkStructure

variable {υ : Type} {app : Application υ} {w w' : World υ} {stage : ConnId → Stage}
  {c d : ConnId} {s s' : Stage}

/-! ### Callbacks -/

/-- What no handler changes. -/
structure Same (w w' : World υ) : Prop where
  phase : w'.phase = w.phase
  created : w'.created = w.created
  me : w'.me = w.me
  threadId_ : w'.loop.threadId_ = w.loop.threadId_

theorem Same.rfl : Same w w := ⟨Eq.refl _, Eq.refl _, Eq.refl _, Eq.refl _⟩

theorem Same.trans {w'' : World υ} (h₁ : Same w w') (h₂ : Same w' w'') : Same w w'' :=
  ⟨h₂.phase.trans h₁.phase, h₂.created.trans h₁.created, h₂.me.trans h₁.me,
    h₂.threadId_.trans h₁.threadId_⟩

theorem same_setConn {m : LoopConn} (hf : LoopConn.Frame (w.atConn c) m) :
    Same w (w.setConn c m) := ⟨Eq.refl _, Eq.refl _, Eq.refl _, hf.threadId_⟩

/-- Any thread queues a functor. -/
def World.push (w : World υ) (thread : ThreadId) (f : PendingFunctor) : World υ :=
  { w with loop := w.loop.queueInLoop thread f }

theorem queue_push (t : ThreadId) (f : PendingFunctor) :
    (w.push t f).queue = w.queue ++ [f] := by
  show w.rest ++ (w.loop.queueInLoop t f).pendingFunctors_ = _
  rw [EventLoop.queueInLoop_pendingFunctors_, ← List.append_assoc]
  rfl

theorem poller_push (t : ThreadId) (f : PendingFunctor) :
    (w.push t f).loop.poller_ = w.loop.poller_ := EventLoop.queueInLoop_poller_ ..

theorem same_push (t : ThreadId) (f : PendingFunctor) : Same w (w.push t f) :=
  ⟨Eq.refl _, Eq.refl _, Eq.refl _, EventLoop.queueInLoop_threadId_ ..⟩

/-- A functor that is queued for nobody, or for another connection. -/
theorem ConnOk.push (h : ConnOk w d s) (t : ThreadId) {f : PendingFunctor}
    (hf : f.target ≠ some d) : ConnOk (w.push t f) d s := by
  constructor
  case functors =>
      rw [queue_push, List.filter_append, h.functors]
      simp [PendingFunctor.lifeOf, hf]
  case soft =>
      intro hs g hm hg
      rw [queue_push, List.mem_append, List.mem_singleton] at hm
      rcases hm with hm | rfl
      · exact h.soft hs g hm hg
      · exact absurd hg hf
  case raw =>
      intro hs hm
      rw [queue_push, List.mem_append, List.mem_singleton] at hm
      rcases hm with hm | rfl
      · exact h.raw hs hm
      · exact hf rfl
  case inStep =>
      rw [poller_push]
      exact h.inStep
  case state_ => exact h.state_
  case entry => exact h.entry
  case index_ => exact h.index_
  case reading => exact h.reading
  case notices => exact h.notices
  case history => exact h.history
  case dead => exact h.dead

/-- The stage that a connection enters when its next functor of the life cycle is queued. -/
def Stage.queued : Stage → Stage
  | .newborn => .connecting
  | .closing => .removing
  | .erased => .destroying
  | s => s

theorem ConnOk.push_life (h : ConnOk w c s) (t : ThreadId) {f : PendingFunctor}
    (hf : s.queued.functors c = [f]) (hs : s.functors c = []) :
    ConnOk (w.push t f) c s.queued := by
  have hfl : PendingFunctor.lifeOf c f = true := by
    cases s <;> simp_all [Stage.queued, Stage.functors] <;> subst hf <;>
      simp [PendingFunctor.lifeOf, PendingFunctor.life, PendingFunctor.target]
  have hlife : f.life = true := by
    simp only [PendingFunctor.lifeOf, Bool.and_eq_true] at hfl
    exact hfl.1
  constructor
  case functors => simp [queue_push, List.filter_append, h.functors, hs, hf, hfl]
  case soft =>
      intro hs' g hm hg
      rw [queue_push, List.mem_append, List.mem_singleton] at hm
      rcases hm with hm | rfl
      · refine h.soft ?_ g hm hg
        cases s <;> simp_all [Stage.queued]
      · exact hlife
  case raw =>
      intro hs'
      cases s <;> simp_all [Stage.queued, Stage.functors]
  case inStep =>
      rw [poller_push]
      exact h.inStep
  case dead =>
      intro hd
      have := h.dead hd
      subst this
      rfl
  case reading => exact h.reading
  case history => exact h.history
  case state_ =>
      have := h.state_
      cases s <;> exact this
  case entry =>
      have := h.entry
      cases s <;> exact this
  case index_ =>
      have := h.index_
      cases s <;> exact this
  case notices =>
      have := h.notices
      cases s <;> exact this

theorem Wiring.push (h : Wiring w) (t : ThreadId) (f : PendingFunctor) : Wiring (w.push t f) :=
  h.congr rfl rfl (poller_push t f) rfl rfl

/-- Queueing a functor that no connection is bound to, or the next one of the life cycle. -/
theorem WorldOk.push (h : WorldOk w stage) (t : ThreadId) {f : PendingFunctor}
    {stage' : ConnId → Stage} (hraw : ∀ c, f ≠ .shutdownInLoop c)
    (hc : ∀ c, f.target = some c → c < w.created ∧ ConnOk (w.push t f) c (stage' c))
    (hd : ∀ d, f.target ≠ some d → stage' d = stage d)
    (hx : ∀ d, (stage' d).index_ = (stage d).index_) : WorldOk (w.push t f) stage' where
  conn d hdc := by
    by_cases ht : f.target = some d
    · exact (hc d ht).2
    · rw [hd d ht]
      exact (h.conn d hdc).push t ht
  target g hm d hg := by
    rw [queue_push, List.mem_append, List.mem_singleton] at hm
    rcases hm with hm | rfl
    · exact h.target g hm d hg
    · exact (hc d hg).1
  rawOrder := by
    rw [queue_push, List.pairwise_append]
    refine ⟨h.rawOrder, List.pairwise_singleton _ _, fun g _ f' hf' d _ => ?_⟩
    rw [List.mem_singleton.mp hf']
    exact hraw d
  entries := h.entries
  names := h.names
  nextConnId_ := h.nextConnId_
  fits := h.fits
  distinct := (h.wiring.push t f).distinct
  reserved := (h.wiring.push t f).reserved
  channels_ := (h.wiring.push t f).channels_
  kernel := (h.wiring.push t f).kernel
  active r hr e he := by
    rw [hx]
    exact h.active r hr e he

theorem WorldOk.push_user (h : WorldOk w stage) (t : ThreadId) (n : ℕ) :
    WorldOk (w.push t (.user n)) stage :=
  h.push t (by simp) (fun _ he => nomatch he) (fun _ _ => rfl) fun _ => rfl

theorem WorldOk.push_life (h : WorldOk w stage) (t : ThreadId) {f : PendingFunctor}
    (hc : c < w.created) (hf : (stage c).queued.functors c = [f]) (hs : (stage c).functors c = []) :
    WorldOk (w.push t f) (Function.update stage c (stage c).queued) := by
  have ht : f.target = some c ∧ ∀ d, f ≠ .shutdownInLoop d := by
    cases hsc : stage c <;> simp_all [Stage.queued, Stage.functors] <;> subst hf <;>
      simp [PendingFunctor.target]
  refine h.push t ht.2 (fun d hd => ?_) (fun d hd => ?_) fun d => ?_
  · obtain rfl : c = d := Option.some.inj (ht.1.symm.trans hd)
    rw [Function.update_self]
    exact ⟨hc, (h.conn c hc).push_life t hf hs⟩
  · rw [Function.update_of_ne]
    rintro rfl
    exact hd ht.1
  · by_cases hdc : d = c
    · subst hdc
      rw [Function.update_self]
      cases stage d <;> rfl
    · rw [Function.update_of_ne hdc]

/-- A call of the application keeps every stage. -/
theorem WorldOk.call (h : WorldOk w stage) (a : ApiCall) :
    Ensures (fun w' => WorldOk w' stage ∧ Same w w') (· = Fault.nullPointer) (w.call a) := by
  cases a with
  | queueInLoop n => exact ⟨h.push_user _ n, same_push _ _⟩
  | member conn a =>
      cases conn with
      | none => exact rfl
      | some c =>
          simp only [World.call, ensures_ok]
          split
          · next hk =>
            simp only [World.knows, Bool.and_eq_true, decide_eq_true_eq, Bool.not_eq_true'] at hk
            obtain ⟨⟨hc, hl⟩, hs⟩ := hk
            have q := LoopConn.quiet_member ((h.conn c hc).registered hl hs) a
            exact ⟨h.quiet ⟨hc, hl⟩ hs q, same_setConn q.frame⟩
          · exact ⟨h, .rfl⟩

/-- A callback keeps every stage, whatever the application does in it. -/
theorem WorldOk.callback (h : WorldOk w stage) (cb : Callback υ) :
    Ensures (fun w' => WorldOk w' stage ∧ Same w w') (· = Fault.nullPointer) (w.callback cb) := by
  refine ensures_foldlM (I := fun w' => WorldOk w' stage ∧ Same w w') ?_ ⟨?_, ?_⟩
  · rintro w₁ ⟨h₁, hs₁⟩ a -
    exact (h₁.call a).mono (fun w₂ h₂ => ⟨h₂.1, hs₁.trans h₂.2⟩) fun _ he => he
  · exact h.congr rfl rfl rfl rfl rfl rfl rfl h.active
  · exact ⟨rfl, rfl, rfl, rfl⟩

/-! ### From stage to stage -/

/-- A step of the life cycle that queues nothing. -/
theorem ConnOk.advance (h : ConnOk w c s) {m : LoopConn} (hf : LoopConn.Frame (w.atConn c) m)
    (hp : m.loop.pendingFunctors_ = w.loop.pendingFunctors_)
    (hst : m.conn.state_ ∈ s'.states) (hfun : s'.functors c = s.functors c)
    (hent : s'.entered = s.entered) (hx : m.conn.channel_.index_ = s'.index_)
    (hr : m.conn.channel_.index_ = .cAdded → m.conn.channel_.isReading = true)
    (hn : m.conn.notices = s'.notices) (hh : m.conn.HistoryOk)
    (hl : (w.conns c).destroyed = false) (hs : s' ≠ .newborn ∧ s' ≠ .connecting)
    (hraw : s' = .gone → .shutdownInLoop c ∉ w.queue) : ConnOk (w.setConn c m) c s' := by
  have hq : (w.setConn c m).queue = w.queue := by
    have := queue_setConn_of_pending (w := w) (c := c) (hp.trans (List.append_nil _).symm)
    rwa [List.append_nil] at this
  constructor
  case functors => rw [hq, h.functors, hfun]
  case soft => exact fun hs' => absurd hs' (by simp [hs])
  case raw => rwa [hq]
  all_goals rw [setConn_conns_self]
  · exact hst
  · rw [hf.name_, hent]
    exact h.entry
  · exact hx
  · exact hr
  · exact hn
  · exact hh
  · intro _
    have hi := hf.inStep
    rwa [hf.this] at hi
  · intro hd
    rw [hf.destroyed] at hd
    exact absurd hd (by simp [World.atConn, hl])

theorem WorldOk.advance (h : WorldOk w stage) (hl : w.Live c) {m : LoopConn}
    (hf : LoopConn.Frame (w.atConn c) m)
    (hp : m.loop.pendingFunctors_ = w.loop.pendingFunctors_)
    (hok : ConnOk (w.setConn c m) c s)
    (hact : s.index_ ≠ .cNew ∨ (stage c).index_ = .cNew ∨ w.active = []) :
    WorldOk (w.setConn c m) (Function.update stage c s) := by
  have hq : (w.setConn c m).queue = w.queue := by
    have := queue_setConn_of_pending (w := w) (c := c) (hp.trans (List.append_nil _).symm)
    rwa [List.append_nil] at this
  exact h.setConn hl hf hok (by rw [hq]; exact h.rawOrder) hact

/-- `connectEstablished` does not fail on a newborn connection, and opens it. -/
theorem WorldOk.connectEstablished (h : WorldOk w stage) (hc : c < w.created)
    (hs : stage c = .newborn) :
    Ensures (fun w' => WorldOk w' (Function.update stage c .opened) ∧ Same w w')
      (· = Fault.nullPointer) (w.connectEstablished app c) := by
  have hok := h.conn c hc
  rw [hs] at hok
  have hl := hok.not_destroyed (by simp)
  have hst : (w.conns c).state_ = .kConnecting := hok.state_eq_kConnecting.mpr (.inl rfl)
  obtain ⟨hf, hr, hm, hx, -, hp, hlog⟩ :=
    LoopConn.establish_spec (l := w.atConn c) (hok.inStep hl) hok.index_
  have hf' := hf.record (.connectionCallback true)
  have hnew : ConnOk (w.setConn c ((w.atConn c).establish.record (.connectionCallback true))) c
      .opened := by
    refine hok.advance hf' hp ?_ rfl rfl hx hr.reading ?_ ?_ hl (by simp) (by simp)
    · simp [hm, Stage.states]
    · have hn := hok.notices
      simp only [TcpConnection.notices, LoopConn.record_log, hlog, List.filter_append] at hn ⊢
      simp [World.atConn, hn, Stage.notices, ConnEvent.life]
    · refine TcpConnection.HistoryOk.record (t := (w.atConn c).establish.conn) ?_ rfl rfl rfl
      exact hok.history.snoc hlog hm (by rw [hst]; rfl)
  have hworld := h.advance ⟨hc, hl⟩ hf' hp hnew (.inl (by simp [Stage.index_]))
  have hup : (w.atConn c).establish.conn.connected = true := by
    simp [TcpConnection.connected, hm]
  have heq : (w.onConn c (·.establish)).connectionCallback app c = _ :=
    connectionCallback_setConn (m := (w.atConn c).establish) rfl rfl hup
  rw [World.connectEstablished, if_pos hst, heq]
  exact (hworld.callback _).mono
    (fun w' hw' => ⟨hw'.1, (same_setConn hf').trans hw'.2⟩) fun _ he => he

/-- An open connection is closed and the application is told. -/
theorem WorldOk.disconnect (h : WorldOk w stage) (hc : c < w.created)
    (ho : (w.atConn c).isOpen = true) :
    Ensures (fun w' => WorldOk w' (Function.update stage c .down) ∧ Same w w')
      (· = Fault.nullPointer) ((w.onConn c (·.disconnect)).connectionCallback app c) := by
  have hs := (h.conn c hc).opened_of_isOpen ho
  have hok := h.conn c hc
  rw [hs] at hok
  have hl := hok.not_destroyed (by simp)
  have hreg := hok.registered hl (by
    rw [Ne, hok.state_eq_kConnecting]
    simp)
  obtain ⟨hf, hr, hm, hx, -, hp, hlog⟩ := LoopConn.disconnect_spec hreg ho
  have hf' := hf.record (.connectionCallback false)
  have hnew : ConnOk (w.setConn c ((w.atConn c).disconnect.record (.connectionCallback false))) c
      .down := by
    refine hok.advance hf' hp ?_ rfl rfl hx hr.reading ?_ ?_ hl (by simp) (by simp)
    · simp [hm, Stage.states]
    · have hn := hok.notices
      simp only [TcpConnection.notices, LoopConn.record_log, hlog, List.filter_append] at hn ⊢
      simp [World.atConn, hn, Stage.notices, ConnEvent.life]
    · refine TcpConnection.HistoryOk.record (t := (w.atConn c).disconnect.conn) ?_ rfl rfl rfl
      apply hok.history.snoc hlog hm
      rcases of_decide_eq_true ho with e | e <;> simp only [World.atConn] at e <;> rw [e] <;> rfl
  have hworld := h.advance ⟨hc, hl⟩ hf' hp hnew (.inl (by simp [Stage.index_]))
  have hup : (w.atConn c).disconnect.conn.connected = false := by
    simp [TcpConnection.connected, hm]
  have heq : (w.onConn c (·.disconnect)).connectionCallback app c = _ :=
    connectionCallback_setConn (m := (w.atConn c).disconnect) rfl rfl hup
  rw [heq]
  exact (hworld.callback _).mono
    (fun w' hw' => ⟨hw'.1, (same_setConn hf').trans hw'.2⟩) fun _ he => he

/-- `closeCallback_` is recorded. -/
theorem WorldOk.recordClose (h : WorldOk w stage) (hc : c < w.created) (hs : stage c = .down) :
    WorldOk (w.onConn c (·.record .closeCallback)) (Function.update stage c .closing) := by
  have hok := h.conn c hc
  rw [hs] at hok
  have hl := hok.not_destroyed (by simp)
  have hf := (LoopConn.Frame.rfl (l := w.atConn c) (hok.inStep hl)).record .closeCallback
  refine h.advance ⟨hc, hl⟩ hf rfl ?_ (.inl (by simp [Stage.index_]))
  refine hok.advance hf rfl hok.state_ rfl rfl hok.index_ hok.reading ?_ ?_ hl (by simp) (by simp)
  · have hn := hok.notices
    simp only [TcpConnection.notices] at hn
    simp [TcpConnection.notices, World.atConn, List.filter_append, hn, Stage.notices,
      ConnEvent.life]
  · exact hok.history.record rfl rfl rfl

/-- The entry of a closed connection is erased. -/
theorem WorldOk.erase (h : WorldOk w stage) (hc : c < w.created) (hs : stage c = .closing) :
    WorldOk { w with server := { w.server with
      connections_ := w.server.connections_.erase (w.conns c).name_ } }
      (Function.update stage c .erased) := by
  have hok := h.conn c hc
  rw [hs] at hok
  have hentry : w.server.connections_.lookup (w.conns c).name_ = some c := hok.entry
  have hne : ∀ d name, d ≠ c → w.server.connections_.lookup name = some d →
      name ≠ (w.conns c).name_ := by
    rintro d name hdc hd rfl
    rw [hentry, Option.some.injEq] at hd
    exact hdc hd.symm
  have hw : Wiring { w with server := { w.server with
      connections_ := w.server.connections_.erase (w.conns c).name_ } } :=
    h.wiring.congr rfl rfl rfl rfl rfl
  constructor
  case conn =>
      intro d hd
      by_cases hdc : d = c
      · subst hdc
        rw [Function.update_self]
        exact
          { state_ := hok.state_, functors := hok.functors
            entry := AList.lookup_erase _ _
            index_ := hok.index_, reading := hok.reading, notices := hok.notices
            history := hok.history, inStep := hok.inStep
            dead := fun hd => by
              rw [hok.not_destroyed (by simp)] at hd
              cases hd
            soft := by simp
            raw := by simp }
      · rw [Function.update_of_ne hdc]
        refine (h.conn d hd).congr rfl rfl ?_ rfl
        by_cases hn : (w.conns d).name_ = (w.conns c).name_
        · have he := (h.conn d hd).entry
          rw [hn, hentry] at he
          split at he
          · cases he
            exact absurd rfl hdc
          · cases he
        · exact AList.lookup_erase_ne hn
  case entries =>
      intro name d hd
      apply h.entries name d
      by_cases hn : name = (w.conns c).name_
      · subst hn
        rw [AList.lookup_erase] at hd
        cases hd
      · rwa [AList.lookup_erase_ne hn] at hd
  case target => exact h.target
  case rawOrder => exact h.rawOrder
  case names => exact h.names
  case nextConnId_ => exact h.nextConnId_
  case fits => exact h.fits
  case distinct => exact hw.distinct
  case reserved => exact hw.reserved
  case channels_ => exact hw.channels_
  case kernel => exact hw.kernel
  case active =>
      intro r hr d hd
      obtain ⟨h₁, h₂⟩ := h.active r hr d hd
      refine ⟨h₁, ?_⟩
      by_cases hdc : d = c
      · subst hdc
        simp [Stage.index_]
      · rwa [Function.update_of_ne hdc]

/-- `removeConnectionInLoop` on a connection that is still entered. -/
theorem WorldOk.removeConnectionInLoop (h : WorldOk w stage) (hc : c < w.created)
    (hs : stage c = .closing) :
    WorldOk (w.removeConnectionInLoop c) (Function.update stage c .destroying) := by
  have he := h.erase hc hs
  have := he.push_life w.me (f := .connectDestroyed c) hc (by simp [Stage.queued, Stage.functors])
    (by simp [Stage.functors])
  rw [Function.update_self, Function.update_idem] at this
  exact this

/-- `closeCallback_`: the connection is on its way to its removal. -/
theorem WorldOk.removeConnection (h : WorldOk w stage) (hc : c < w.created)
    (hs : stage c = .closing) :
    ∃ s, s.resting = true ∧ s.index_ ≠ .cNew ∧
      WorldOk (w.removeConnection c) (Function.update stage c s) := by
  unfold World.removeConnection
  split
  · exact ⟨.destroying, rfl, by simp [Stage.index_], h.removeConnectionInLoop hc hs⟩
  · refine ⟨.removing, rfl, by simp [Stage.index_], ?_⟩
    have := h.push_life w.me (f := .removeConnectionInLoop c) hc
      (by simp [hs, Stage.queued, Stage.functors]) (by simp [hs, Stage.functors])
    rw [hs] at this
    exact this

theorem same_removeConnection : Same w (w.removeConnection c) := by
  unfold World.removeConnection
  split
  · exact ⟨rfl, rfl, rfl, EventLoop.queueInLoop_threadId_ ..⟩
  · exact ⟨rfl, rfl, rfl, EventLoop.queueInLoop_threadId_ ..⟩

/-! ### Handlers -/

/-- What a handler of the connection `c` ensures: every connection rests in some stage, and `c`
is known to the poller. -/
def Handled (w : World υ) (c : ConnId) (w' : World υ) : Prop :=
  Same w w' ∧ ∃ stage, WorldOk w' stage ∧ (∀ d, (stage d).resting = true) ∧
    (stage c).index_ ≠ .cNew

/-- The faults that may end a run. -/
def Fault.expected (e : Fault) : Prop := e = .nullPointer ∨ e = .signedOverflow

theorem resting_update (hr : ∀ d, (stage d).resting = true) (hs : s.resting = true) (d : ConnId) :
    (Function.update stage c s d).resting = true := by
  by_cases hdc : d = c
  · subst hdc
    rwa [Function.update_self]
  · rw [Function.update_of_ne hdc]
    exact hr d

/-- `handleClose` closes an open connection and does nothing to another. -/
theorem WorldOk.handleClose (h : WorldOk w stage) (hc : c < w.created)
    (hr : ∀ d, (stage d).resting = true) :
    Ensures (fun w' => Same w w' ∧ ∃ s, s.resting = true ∧
        ((stage c).index_ ≠ .cNew → s.index_ ≠ .cNew) ∧ WorldOk w' (Function.update stage c s))
      (· = Fault.nullPointer) (w.handleClose app c) := by
  unfold World.handleClose
  split
  · next ho =>
    apply (h.disconnect hc ho).bind
    rintro w₁ ⟨h₁, hs₁⟩
    have hc₁ : c < w₁.created := hs₁.created ▸ hc
    have h₂ := h₁.recordClose hc₁ (Function.update_self ..)
    rw [Function.update_idem] at h₂
    obtain ⟨s, hs, hx, h₃⟩ := h₂.removeConnection hc₁ (Function.update_self ..)
    rw [Function.update_idem] at h₃
    have hs₂ : Same w₁ (w₁.onConn c (·.record .closeCallback)) := ⟨rfl, rfl, rfl, rfl⟩
    exact ⟨hs₁.trans (hs₂.trans same_removeConnection), s, hs, fun _ => hx, h₃⟩
  · refine ⟨.rfl, stage c, hr c, fun hx => hx, ?_⟩
    rwa [Function.update_eq_self]

theorem Handled.handleClose {w₀ : World υ} (h : Handled w₀ c w) (hc : c < w₀.created) :
    Ensures (Handled w₀ c) Fault.expected (w.handleClose app c) := by
  obtain ⟨hs, stage, hw, hr, hx⟩ := h
  refine (hw.handleClose (hs.created ▸ hc) hr).mono ?_ fun _ he => .inl he
  rintro w' ⟨hs', s, hres, hx', hw'⟩
  exact ⟨hs.trans hs', _, hw', resting_update hr hres, by rw [Function.update_self]; exact hx' hx⟩

/-- A quiet call of a handler. -/
theorem Handled.quiet {w₀ : World υ} (h : Handled w₀ c w) (hc : c < w₀.created)
    {f : LoopConn → LoopConn} (hf : ∀ l, LoopConn.Registered l → LoopConn.Quiet l (f l)) :
    Handled w₀ c (w.onConn c f) := by
  obtain ⟨hs, stage, hw, hr, hx⟩ := h
  have hok := hw.conn c (hs.created ▸ hc)
  have hl := hok.not_destroyed (by
    rintro hg
    rw [hg] at hx
    exact hx rfl)
  have hst : (w.conns c).state_ ≠ .kConnecting := by
    rw [Ne, hok.state_eq_kConnecting]
    rintro (hg | hg) <;> rw [hg] at hx <;> exact hx rfl
  have q := hf _ (hok.registered hl hst)
  exact ⟨hs.trans (same_setConn q.frame), stage,
    hw.quiet ⟨hs.created ▸ hc, hl⟩ hst q, hr, hx⟩

theorem Handled.callback {w₀ : World υ} (h : Handled w₀ c w) (cb : Callback υ) :
    Ensures (Handled w₀ c) Fault.expected (w.callback cb) := by
  obtain ⟨hs, stage, hw, hr, hx⟩ := h
  exact (hw.callback cb).mono (fun w' hw' => ⟨hs.trans hw'.2, stage, hw'.1, hr, hx⟩)
    fun _ he => .inl he

theorem Handled.handleRead {w₀ : World υ} (h : Handled w₀ c w) (hc : c < w₀.created)
    (read : Option (List UInt8)) :
    Ensures (Handled w₀ c) Fault.expected (w.handleRead app c read) := by
  unfold World.handleRead
  split
  · exact h
  · exact h.handleClose hc
  · exact (h.quiet hc fun l hl => LoopConn.quiet_record hl rfl rfl).callback _

theorem Handled.handleEventWithGuard {w₀ : World υ} (h : Handled w₀ c w) (hc : c < w₀.created)
    (revents : Mask) (read : Option (List UInt8)) :
    Ensures (Handled w₀ c) Fault.expected (w.handleEventWithGuard app c revents read) := by
  unfold World.handleEventWithGuard
  refine Ensures.bind (P := Handled w₀ c) ?_ fun w₁ h₁ =>
    Ensures.bind (P := Handled w₀ c) ?_ fun w₂ h₂ => ?_
  · split
    · exact h.handleClose hc
    · exact h
  · split
    · exact h₁.handleRead hc read
    · exact h₁
  · rw [ensures_ok]
    split
    · exact h₂.quiet hc fun l hl => LoopConn.quiet_handleWrite hl
    · exact h₂

end NetworkStructure
