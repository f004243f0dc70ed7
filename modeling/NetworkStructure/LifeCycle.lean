import NetworkStructure.ConnHandlers
import NetworkStructure.Replay

/-! # The life cycle of the connections of a server

`World.Ok` says that every connection rests in some stage.  It holds initially (`ok_init`) and
every step keeps it (`ok_step`): accepting a connection, taking a functor from the queue and
running it, handling an event, destroying a connection that nobody owns.  The functors of the
life cycle are taken in the order in which they were queued, which is why `connectEstablished`
finds its connection newborn and `connectDestroyed` finds its connection closed.

What the stages say about the history of a connection is the life cycle (`lifeCycle`). -/

namespace NetworkStructure

variable {υ : Type} {app : Application υ} {w w' : World υ} {stage : ConnId → Stage}
  {c d : ConnId} {s : Stage}

/-! ### Accepting a connection -/

theorem suffix_injective (s : TcpServer) {m n : ℕ} (hm : m ≤ INT_MAX) (hn : n ≤ INT_MAX)
    (h : s.suffix m = s.suffix n) : m = n := by
  have hlen : ∀ k ≤ INT_MAX,
      ('-' :: s.hostport_.text ++ '#' :: Nat.toDigits 10 k).length ≤ 63 := by
    intro k hk
    have hd : (Nat.toDigits 10 k).length ≤ 10 :=
      (Nat.length_toDigits_le_iff (by decide) (by decide)).mpr
        (Nat.lt_of_le_of_lt hk (by decide))
    have ht := s.hostport_.fits
    simp only [List.length_append, List.length_cons]
    omega
  rw [TcpServer.suffix, TcpServer.suffix, List.take_of_length_le (hlen m hm),
    List.take_of_length_le (hlen n hn)] at h
  have hd : Nat.toDigits 10 m = Nat.toDigits 10 n :=
    (List.cons.inj (List.append_cancel_left h)).2
  rw [← Nat.ofDigitChars_ten_toDigits (n := m), hd, Nat.ofDigitChars_ten_toDigits]

/-- The names of the connections are numbered. -/
structure World.Named (w : World υ) : Prop where
  names : ∀ c < w.created, (w.conns c).name_ = w.server.connName (c + 1)
  nextConnId_ : w.server.nextConnId_ = w.created + 1
  fits : w.created < INT_MAX

/-- The name that `newConnection` builds is not in `connections_`. -/
theorem World.Named.lookup_connName (h : w.Named)
    (hentries : ∀ name c, w.server.connections_.lookup name = some c →
      c < w.created ∧ (w.conns c).name_ = name) :
    w.server.connections_.lookup (w.server.connName w.server.nextConnId_) = none := by
  cases he : w.server.connections_.lookup (w.server.connName w.server.nextConnId_) with
  | none => rfl
  | some c =>
      obtain ⟨hc, hn⟩ := hentries _ c he
      rw [h.names c hc, h.nextConnId_] at hn
      have he := suffix_injective w.server
        (Nat.le_trans (Nat.succ_le_of_lt hc) (Nat.le_of_lt h.fits)) h.fits
        (List.append_cancel_left hn)
      exact absurd (Nat.succ.inj he) (Nat.ne_of_lt hc)

theorem WorldOk.named (h : WorldOk w stage) : w.Named := ⟨h.names, h.nextConnId_, h.fits⟩

theorem WorldOk.lookup_connName (h : WorldOk w stage) :
    w.server.connections_.lookup (w.server.connName w.server.nextConnId_) = none :=
  h.named.lookup_connName h.entries

/-- A descriptor that is not open is not registered. -/
theorem Wiring.slot_of_not_isOpen (h : Wiring w) {fd : Fd} (hfd : ¬ w.IsOpen fd) :
    w.loop.poller_.channels_ fd = none ∧ w.loop.poller_.kernel fd = none := by
  have hslot : ∀ r, ¬ w.SlotOf fd r := by
    rintro r hr
    cases r with
    | wakeup => exact hfd (.inl hr)
    | acceptor => exact hfd (.inr (.inl hr))
    | conn c => exact hfd (.inr (.inr ⟨c, hr.1, hr.2⟩))
  constructor
  · cases hr : w.loop.poller_.channels_ fd with
    | none => rfl
    | some r => exact absurd (h.channels_ fd r hr) (hslot r)
  · cases he : w.loop.poller_.kernel fd with
    | none => rfl
    | some e => exact absurd (h.kernel fd e he) (hslot e.ptr)

theorem live_insertConnection {fd : Fd} {socket : List WriteResult} (hd : d ≠ w.created) :
    (w.insertConnection app fd socket).Live d ↔ w.Live d := by
  simp only [World.Live, World.insertConnection, Function.update_of_ne hd]
  constructor
  · rintro ⟨h, hl⟩
    exact ⟨Nat.lt_of_le_of_ne (Nat.le_of_lt_succ h) hd, hl⟩
  · rintro ⟨h, hl⟩
    exact ⟨Nat.lt_succ_of_lt h, hl⟩

section insertConnection

variable {fd : Fd} {socket : List WriteResult}

theorem insertConnection_conns_self (w : World υ) (app : Application υ) (fd : Fd)
    (socket : List WriteResult) : (w.insertConnection app fd socket).conns w.created =
    .new (w.server.connName w.server.nextConnId_) fd app.writeCompleteCallback.isSome socket := by
  simp [World.insertConnection]

theorem insertConnection_conns_ne (hd : d ≠ w.created) :
    (w.insertConnection app fd socket).conns d = w.conns d := by
  simp [World.insertConnection, hd]

/-- The new connection has a descriptor of its own. -/
theorem Wiring.insertConnection (h : Wiring w) (app : Application υ) (hfd : ¬ w.IsOpen fd)
    (socket : List WriteResult) :
    Wiring (w.insertConnection app fd socket) := by
  have hnewlive : ∀ d, (w.insertConnection app fd socket).Live d → d ≠ w.created → w.Live d :=
    fun d hd hne => (live_insertConnection hne).mp hd
  have hslot : ∀ f r, w.SlotOf f r → (w.insertConnection app fd socket).SlotOf f r := by
    intro f r hr
    cases r with
    | wakeup => exact hr
    | acceptor => exact hr
    | conn d =>
        have hd := Nat.ne_of_lt hr.1.1
        exact ⟨(live_insertConnection hd).mpr hr.1,
          by rw [insertConnection_conns_ne hd]; exact hr.2⟩
  have hself : ((w.insertConnection app fd socket).conns w.created).channel_.fd_ = fd := by
    rw [insertConnection_conns_self]
    rfl
  have hfdne : ∀ d, w.Live d → (w.conns d).channel_.fd_ ≠ fd := fun d hd he =>
    hfd (.inr (.inr ⟨d, hd, he⟩))
  constructor
  case distinct =>
      intro d e hd he hde
      by_cases hdc : d = w.created
      · by_cases hec : e = w.created
        · rw [hdc, hec]
        · subst hdc
          rw [hself, insertConnection_conns_ne hec] at hde
          exact absurd hde.symm (hfdne e (hnewlive e he hec))
      · by_cases hec : e = w.created
        · subst hec
          rw [hself, insertConnection_conns_ne hdc] at hde
          exact absurd hde (hfdne d (hnewlive d hd hdc))
        · rw [insertConnection_conns_ne hdc, insertConnection_conns_ne hec] at hde
          exact h.distinct d e (hnewlive d hd hdc) (hnewlive e he hec) hde
  case reserved =>
      intro d hd
      by_cases hdc : d = w.created
      · subst hdc
        rw [hself]
        exact ⟨fun he => hfd (.inl he), fun he => hfd (.inr (.inl he))⟩
      · rw [insertConnection_conns_ne hdc]
        exact h.reserved d (hnewlive d hd hdc)
  case channels_ => exact fun f r hr => hslot f r (h.channels_ f r hr)
  case kernel => exact fun f e he => hslot f e.ptr (h.kernel f e he)

/-- The new connection takes the next name. -/
theorem World.Named.insertConnection (h : w.Named) (app : Application υ) (fd : Fd)
    (socket : List WriteResult) (hmax : w.server.nextConnId_ ≠ INT_MAX) :
    (w.insertConnection app fd socket).Named where
  names := by
    intro d hd
    by_cases hdc : d = w.created
    · subst hdc
      rw [insertConnection_conns_self, ← h.nextConnId_]
      rfl
    · rw [insertConnection_conns_ne hdc]
      exact h.names d (Nat.lt_of_le_of_ne (Nat.le_of_lt_succ hd) hdc)
  nextConnId_ := congrArg (· + 1) h.nextConnId_
  fits := by
    have hne : w.created + 1 ≠ INT_MAX := h.nextConnId_ ▸ hmax
    exact Nat.lt_of_le_of_ne h.fits hne

/-- An entry is that of the new connection, or was there before. -/
theorem entry_insertConnection {name : List Char}
    (hd : (w.insertConnection app fd socket).server.connections_.lookup name = some d) :
    d = w.created ∧ ((w.insertConnection app fd socket).conns d).name_ = name ∨
      w.server.connections_.lookup name = some d := by
  by_cases hn : name = w.server.connName w.server.nextConnId_
  · subst hn
    have hd : some w.created = some d := (AList.lookup_insert _).symm.trans hd
    cases hd
    exact .inl ⟨rfl, by rw [insertConnection_conns_self]; rfl⟩
  · exact .inr ((AList.lookup_insert_ne hn).symm.trans hd)

end insertConnection

/-- The new connection is newborn. -/
theorem WorldOk.insertConnection (h : WorldOk w stage) {fd : Fd} (hfd : ¬ w.IsOpen fd)
    (socket : List WriteResult) (hmax : w.server.nextConnId_ ≠ INT_MAX) :
    WorldOk (w.insertConnection app fd socket) (Function.update stage w.created .newborn) := by
  obtain ⟨hfc, hfk⟩ := h.wiring.slot_of_not_isOpen hfd
  have hwiring := h.wiring.insertConnection app hfd socket
  have hnamed := h.named.insertConnection app fd socket hmax
  have hself := insertConnection_conns_self w app fd socket
  have hother : ∀ d, d ≠ w.created →
      (w.insertConnection app fd socket).conns d = w.conns d := fun d hd =>
    insertConnection_conns_ne hd
  have hlt : ∀ d < w.created + 1, d ≠ w.created → d < w.created := fun d hd hne =>
    Nat.lt_of_le_of_ne (Nat.le_of_lt_succ hd) hne
  have hnot : ∀ f ∈ w.queue, f.target ≠ some w.created := fun f hf ht =>
    Nat.lt_irrefl _ (h.target f hf _ ht)
  constructor
  case conn =>
      intro d hd
      by_cases hdc : d = w.created
      · subst hdc
        rw [Function.update_self]
        constructor
        case functors =>
            refine List.filter_eq_nil_iff.mpr fun f hf => ?_
            simp [PendingFunctor.lifeOf, hnot f hf]
        case soft => exact fun _ f hf ht => absurd ht (hnot f hf)
        case raw => simp
        case inStep =>
            rw [hself]
            intro _
            exact (inStep_cNew rfl).mpr ⟨rfl, hfc, hfk⟩
        case entry =>
            rw [hself]
            exact AList.lookup_insert _
        all_goals rw [hself]
        · exact List.mem_singleton_self _
        · rfl
        · intro hx
          cases hx
        · rfl
        · exact ⟨List.isChain_singleton _, rfl⟩
        · intro hd
          cases hd
      · rw [Function.update_of_ne hdc]
        have hd' := hlt d hd hdc
        refine (h.conn d hd').congr (hother d hdc) rfl ?_ rfl
        refine AList.lookup_insert_ne fun he => hdc ?_
        have hn := h.names d hd'
        rw [he, h.nextConnId_] at hn
        have := suffix_injective w.server h.fits
          (Nat.le_trans (Nat.succ_le_of_lt hd') (Nat.le_of_lt h.fits)) (List.append_cancel_left hn)
        exact (Nat.succ.inj this).symm
  case target =>
      intro f hf d hd
      exact Nat.lt_succ_of_lt (h.target f hf d hd)
  case rawOrder => exact h.rawOrder
  case entries =>
      intro name d hd
      rcases entry_insertConnection hd with ⟨rfl, hn⟩ | hd
      · exact ⟨Nat.lt_succ_self _, hn⟩
      · obtain ⟨h₁, h₂⟩ := h.entries name d hd
        exact ⟨Nat.lt_succ_of_lt h₁, by rw [hother d (Nat.ne_of_lt h₁), h₂]⟩
  case names => exact hnamed.names
  case nextConnId_ => exact hnamed.nextConnId_
  case fits => exact hnamed.fits
  case distinct => exact hwiring.distinct
  case reserved => exact hwiring.reserved
  case channels_ => exact hwiring.channels_
  case kernel => exact hwiring.kernel
  case active =>
      intro r hr d hd
      obtain ⟨h₁, h₂⟩ := h.active r hr d hd
      exact ⟨Nat.lt_succ_of_lt h₁, by rwa [Function.update_of_ne (Nat.ne_of_lt h₁)]⟩

/-- Every connection rests in some stage. -/
def World.Ok (w : World υ) : Prop :=
  ∃ stage, WorldOk w stage ∧ ∀ c, (stage c).resting = true

theorem Handled.ok {w₀ : World υ} (h : Handled w₀ c w) : w.Ok := by
  obtain ⟨-, stage, hw, hr, -⟩ := h
  exact ⟨stage, hw, hr⟩

theorem WorldOk.newConnection (h : WorldOk w stage) (hr : ∀ d, (stage d).resting = true)
    {fd : Fd} (hfd : ¬ w.IsOpen fd) (socket : List WriteResult) :
    Ensures World.Ok Fault.expected (w.newConnection app fd socket) := by
  unfold World.newConnection
  split
  · exact .inr rfl
  · next hmax =>
    have hi : WorldOk (w.insertConnection app fd socket) _ := h.insertConnection hfd socket hmax
    have hc : w.created < (w.insertConnection app fd socket).created := Nat.lt_succ_self _
    split
    · refine (hi.connectEstablished hc (Function.update_self ..)).mono ?_ fun _ he => .inl he
      rintro w' ⟨hw', -⟩
      rw [Function.update_idem] at hw'
      exact ⟨_, hw', resting_update hr rfl⟩
    · have := hi.push_life w.me (f := .connectEstablished w.created) hc
        (by simp [Stage.queued, Stage.functors]) (by simp [Stage.functors])
      rw [Function.update_self, Function.update_idem] at this
      exact ⟨_, this, resting_update hr rfl⟩

/-! ### Running a functor -/

/-- The stage of a connection when its functor of the life cycle is taken from the queue. -/
def Stage.taken : Stage → Stage
  | .connecting => .newborn
  | .removing => .closing
  | .destroying => .erased
  | s => s

/-- The stages after the functor `f` is taken. -/
def takeStage (f : PendingFunctor) (stage : ConnId → Stage) (c : ConnId) : Stage :=
  if f.lifeOf c then (stage c).taken else stage c

theorem ConnOk.take {f : PendingFunctor} {ran rest : List PendingFunctor}
    (h : ConnOk w c s) (hp : w.phase = .functors ran (f :: rest)) :
    ConnOk { w with phase := .functors (ran ++ [f]) rest } c
      (if f.lifeOf c then s.taken else s) := by
  have hq : w.queue = f :: ({ w with phase := .functors (ran ++ [f]) rest } : World υ).queue := by
    simp [World.queue, World.rest, hp]
  have hfun := h.functors
  rw [hq, List.filter_cons] at hfun
  split
  · next hf =>
    rw [if_pos hf] at hfun
    have hraw := h.raw
    constructor
    case functors =>
        cases s <;> simp_all [Stage.functors, Stage.taken]
    case soft =>
        intro hs g hg ht
        refine h.soft ?_ g (hq ▸ List.mem_cons_of_mem _ hg) ht
        cases s <;> simp_all [Stage.taken, Stage.functors]
    case raw =>
        intro hs
        cases s <;> simp_all [Stage.taken, Stage.functors]
    case dead =>
        intro hd
        have := h.dead hd
        subst this
        simp [Stage.functors] at hfun
    case state_ =>
        have := h.state_
        cases s <;> exact this
    case entry =>
        have := h.entry
        cases s <;> exact this
    case index_ =>
        have := h.index_
        cases s <;> exact this
    case notices =>
        have := h.notices
        cases s <;> exact this
    case reading => exact h.reading
    case history => exact h.history
    case inStep => exact h.inStep
  · next hf =>
    rw [if_neg hf] at hfun
    exact
      { state_ := h.state_, functors := hfun, entry := h.entry, index_ := h.index_
        reading := h.reading, notices := h.notices, history := h.history, inStep := h.inStep
        dead := h.dead
        soft := fun hs g hg => h.soft hs g (hq ▸ List.mem_cons_of_mem _ hg)
        raw := fun hs hm => h.raw hs (hq ▸ List.mem_cons_of_mem _ hm) }

theorem WorldOk.take {f : PendingFunctor} {ran rest : List PendingFunctor}
    (h : WorldOk w stage) (hp : w.phase = .functors ran (f :: rest)) :
    WorldOk { w with phase := .functors (ran ++ [f]) rest } (takeStage f stage) := by
  have hq : w.queue = f :: ({ w with phase := .functors (ran ++ [f]) rest } : World υ).queue := by
    simp [World.queue, World.rest, hp]
  have hw : Wiring { w with phase := .functors (ran ++ [f]) rest } :=
    h.wiring.congr rfl rfl rfl rfl rfl
  constructor
  case conn => exact fun c hc => (h.conn c hc).take hp
  case target => exact fun g hg => h.target g (hq ▸ List.mem_cons_of_mem _ hg)
  case rawOrder =>
      have hr := h.rawOrder
      rw [hq, List.pairwise_cons] at hr
      exact hr.2
  case active => exact fun _ hr => nomatch hr
  case entries => exact h.entries
  case names => exact h.names
  case nextConnId_ => exact h.nextConnId_
  case fits => exact h.fits
  case distinct => exact hw.distinct
  case reserved => exact hw.reserved
  case channels_ => exact hw.channels_
  case kernel => exact hw.kernel

theorem takeStage_of_soft {f : PendingFunctor} (hf : f.life = false) :
    takeStage f stage = stage := by
  funext c
  simp [takeStage, PendingFunctor.lifeOf, hf]

theorem takeStage_of_life {f : PendingFunctor} (hf : f.life = true) (ht : f.target = some c)
    (hs : stage c = s) : takeStage f stage c = s.taken := by
  simp [takeStage, PendingFunctor.lifeOf, hf, ht, hs]

/-- Taking the functor `f` of the connection `c` concerns `c` only. -/
theorem resting_takeStage {f : PendingFunctor} (hf : f.target = some c)
    (hr : ∀ d, (stage d).resting = true) (hs : s.resting = true) (d : ConnId) :
    (Function.update (takeStage f stage) c s d).resting = true := by
  by_cases hdc : d = c
  · subst hdc
    rwa [Function.update_self]
  · have hne : f.target ≠ some d := fun he => hdc (Option.some.inj (he.symm.trans hf))
    rw [Function.update_of_ne hdc, takeStage, if_neg (by simp [PendingFunctor.lifeOf, hne])]
    exact hr d

/-- `connectDestroyed` on a closed and erased connection removes its channel. -/
theorem WorldOk.connectDestroyed (app : Application υ) (h : WorldOk w stage) (hc : c < w.created)
    (hs : stage c = .erased) (hraw : .shutdownInLoop c ∉ w.queue) (hact : w.active = []) :
    ∃ w', w.connectDestroyed app c = .ok w' ∧
      WorldOk w' (Function.update stage c .gone) := by
  have hok := h.conn c hc
  rw [hs] at hok
  have hl := hok.not_destroyed (by simp)
  have hst : (w.conns c).state_ = .kDisconnected :=
    hok.state_eq_kDisconnected.mpr (by simp)
  have hin := hok.inStep hl
  have h0 := ((inStep_cDeleted hok.index_).mp hin).1
  obtain ⟨hf, hx⟩ := LoopConn.channelRemove_spec (l := w.atConn c) hin h0
  have hf' := hf.record .connectDestroyed
  refine ⟨_, by rw [World.connectDestroyed, hst]; rfl, ?_⟩
  refine h.advance ⟨hc, hl⟩ hf' rfl ?_ (.inr (.inr hact))
  refine hok.advance hf' rfl ?_ rfl rfl hx ?_ ?_ ?_ hl (by simp) fun _ => hraw
  · exact List.mem_singleton.mpr hst
  · intro hi
    exact absurd (hx.symm.trans hi) (by decide)
  · have hn := hok.notices
    simp only [TcpConnection.notices] at hn
    simp [TcpConnection.notices, LoopConn.channelRemove, World.atConn, List.filter_append, hn,
      Stage.notices, ConnEvent.life]
  · exact hok.history.record rfl rfl rfl

/-- A queued functor of the life cycle tells the stage of its connection. -/
theorem WorldOk.stage_of_mem (h : WorldOk w stage) {f : PendingFunctor} (hm : f ∈ w.queue)
    (hl : f.life = true) (ht : f.target = some c) : c < w.created ∧ f ∈ (stage c).functors c := by
  have hc := h.target f hm c ht
  exact ⟨hc, (h.conn c hc).mem_functors hm hl ht⟩

theorem WorldOk.connecting_of_mem (h : WorldOk w stage) (hm : .connectEstablished c ∈ w.queue) :
    c < w.created ∧ stage c = .connecting := by
  obtain ⟨hc, hs⟩ := h.stage_of_mem hm rfl rfl
  cases hsc : stage c <;> simp_all [Stage.functors]

theorem WorldOk.destroying_of_mem (h : WorldOk w stage) (hm : .connectDestroyed c ∈ w.queue) :
    c < w.created ∧ stage c = .destroying := by
  obtain ⟨hc, hs⟩ := h.stage_of_mem hm rfl rfl
  cases hsc : stage c <;> simp_all [Stage.functors]

theorem WorldOk.removing_of_mem (h : WorldOk w stage) (hm : .removeConnectionInLoop c ∈ w.queue) :
    c < w.created ∧ stage c = .removing := by
  obtain ⟨hc, hs⟩ := h.stage_of_mem hm rfl rfl
  cases hsc : stage c <;> simp_all [Stage.functors]

/-- `shutdownInLoop` does not own its connection, but runs before it is released. -/
theorem WorldOk.live_of_shutdownInLoop (h : WorldOk w stage) (hm : .shutdownInLoop c ∈ w.queue) :
    w.Live c := by
  have hc := h.target _ hm c rfl
  have hok := h.conn c hc
  exact hok.live hc fun hg => hok.raw hg hm

/-- Whatever functor is at the head of the queue, it can run, and leaves every connection in
some stage. -/
theorem WorldOk.runFunctor (h : WorldOk w stage) (hr : ∀ d, (stage d).resting = true)
    {f : PendingFunctor} {ran rest : List PendingFunctor}
    (hp : w.phase = .functors ran (f :: rest)) :
    Ensures World.Ok Fault.expected
      ({ w with phase := .functors (ran ++ [f]) rest }.runFunctor app f) := by
  have ht := h.take hp
  have hq : w.queue = f :: ({ w with phase := .functors (ran ++ [f]) rest } : World υ).queue := by
    simp [World.queue, World.rest, hp]
  have hm : f ∈ w.queue := hq ▸ List.mem_cons_self ..
  have hcb : ∀ cb : Callback υ, f.life = false →
      Ensures World.Ok Fault.expected
        (World.callback { w with phase := .functors (ran ++ [f]) rest } cb) := by
    intro cb hf
    rw [takeStage_of_soft hf] at ht
    exact (ht.callback cb).mono (fun w' hw' => ⟨stage, hw'.1, hr⟩) fun _ he => .inl he
  cases f with
  | connectEstablished c =>
      obtain ⟨hc, hs⟩ := h.connecting_of_mem hm
      have hts : takeStage (.connectEstablished c) stage c = .newborn :=
        takeStage_of_life rfl rfl hs
      exact (ht.connectEstablished hc hts).mono
        (fun w' hw' => ⟨_, hw'.1, resting_takeStage rfl hr rfl⟩) fun _ he => .inl he
  | connectDestroyed c =>
      obtain ⟨hc, hs⟩ := h.destroying_of_mem hm
      have hts : takeStage (.connectDestroyed c) stage c = .erased :=
        takeStage_of_life rfl rfl hs
      have hraw := h.rawOrder
      rw [hq, List.pairwise_cons] at hraw
      obtain ⟨w', hw', hok⟩ := ht.connectDestroyed app hc hts
        (fun hm => hraw.1 _ hm c (.inr rfl) rfl) rfl
      rw [World.runFunctor, hw']
      exact ⟨_, hok, resting_takeStage rfl hr rfl⟩
  | removeConnectionInLoop c =>
      obtain ⟨hc, hs⟩ := h.removing_of_mem hm
      have hts : takeStage (.removeConnectionInLoop c) stage c = .closing :=
        takeStage_of_life rfl rfl hs
      exact ⟨_, ht.removeConnectionInLoop hc hts, resting_takeStage rfl hr rfl⟩
  | shutdownInLoop c =>
      obtain ⟨hc, hl⟩ := h.live_of_shutdownInLoop hm
      have hok := h.conn c hc
      have hst : (w.conns c).state_ ≠ .kConnecting := by
        rw [Ne, hok.state_eq_kConnecting]
        intro hs
        cases hok.soft hs _ hm rfl
      rw [takeStage_of_soft rfl] at ht
      have q := LoopConn.quiet_shutdownInLoop (hok.registered hl hst)
      have he : World.runFunctor app { w with
          phase := .functors (ran ++ [.shutdownInLoop c]) rest } (.shutdownInLoop c) =
          .ok (World.onConn { w with phase := .functors (ran ++ [.shutdownInLoop c]) rest } c
            (·.shutdownInLoop)) := by
        rw [World.runFunctor, if_neg (by simp [hl])]
      rw [he]
      exact ⟨stage, ht.quiet ⟨hc, hl⟩ hst q, hr⟩
  | forceCloseInLoop c =>
      have hc := h.target _ hm c rfl
      rw [takeStage_of_soft rfl] at ht
      refine (ht.handleClose hc hr).mono ?_ fun _ he => .inl he
      rintro w' ⟨-, s, hs, -, hw'⟩
      exact ⟨_, hw', resting_update hr hs⟩
  | writeCompleteCallback c =>
      rw [World.runFunctor]
      split
      · exact hcb _ rfl
      · rw [takeStage_of_soft rfl] at ht
        exact ⟨stage, ht, hr⟩
  | highWaterMarkCallback c len =>
      rw [takeStage_of_soft rfl] at ht
      exact ⟨stage, ht, hr⟩
  | user n => exact hcb _ rfl

/-! ### Steps -/

theorem queue_subset_batch : w.queue ⊆ w.batch ++ w.loop.pendingFunctors_ := by
  intro f hf
  unfold World.queue World.rest World.batch at *
  cases hp : w.phase with
  | functors ran rest =>
      rw [hp] at hf
      rcases List.mem_append.mp hf with hf | hf
      · exact List.mem_append_left _ (List.mem_append_right _ hf)
      · exact List.mem_append_right _ hf
  | polling | handling _ => rwa [hp] at hf

/-- A connection that nobody owns has been through `connectDestroyed`. -/
theorem WorldOk.gone_of_not_owned (h : WorldOk w stage) (hr : ∀ d, (stage d).resting = true)
    (hc : c < w.created) (ho : ¬ w.Owned app c) : stage c = .gone := by
  have hok := h.conn c hc
  have hentry : (stage c).entered = false := by
    rw [Bool.eq_false_iff]
    intro he
    have := hok.entry
    rw [if_pos he] at this
    exact ho (.inl ⟨_, this⟩)
  have hfun : ∀ f, (stage c).functors c = [f] → f.owns c = false := by
    intro f hf
    rw [Bool.eq_false_iff]
    intro hfo
    have hm : f ∈ w.queue.filter (PendingFunctor.lifeOf c) := by
      rw [hok.functors, hf]
      exact List.mem_singleton_self f
    exact ho (.inr (.inl ⟨f, queue_subset_batch (List.mem_filter.mp hm).1, hfo⟩))
  have hrc := hr c
  cases hs : stage c with
  | gone => rfl
  | destroying =>
      rw [hs] at hfun
      have := hfun _ rfl
      simp [PendingFunctor.owns] at this
  | _ =>
      rw [hs] at hentry hrc
      first | exact absurd hrc (by decide) | exact absurd hentry (by decide)

/-- The slot of a connection that has been through `connectDestroyed` is empty. -/
theorem ConnOk.slot_of_gone (h : ConnOk w c .gone) (hl : (w.conns c).destroyed = false) :
    w.loop.poller_.channels_ (w.conns c).channel_.fd_ = none ∧
      w.loop.poller_.kernel (w.conns c).channel_.fd_ = none :=
  ((inStep_cNew h.index_).mp (h.inStep hl)).2

section destroy

theorem destroy_conns_self : (w.destroy c).conns c = { w.conns c with destroyed := true } := by
  simp [World.destroy]

theorem destroy_conns_ne (hd : d ≠ c) : (w.destroy c).conns d = w.conns d := by
  simp [World.destroy, hd]

theorem live_destroy : (w.destroy c).Live d ↔ d ≠ c ∧ w.Live d := by
  by_cases hdc : d = c
  · subst hdc
    simp [World.Live, destroy_conns_self]
  · simp only [World.Live, destroy_conns_ne hdc, ne_eq, hdc, not_false_iff, true_and]
    rfl

/-- Where the interest set has no entry for the descriptor, closing it changes nothing. -/
theorem destroy_poller_ (hk : w.loop.poller_.kernel (w.conns c).channel_.fd_ = none) :
    (w.destroy c).loop.poller_ = w.loop.poller_ := by
  have : Function.update w.loop.poller_.kernel (w.conns c).channel_.fd_ none =
      w.loop.poller_.kernel := by rw [← hk, Function.update_eq_self]
  simp only [World.destroy, this]

/-- A connection whose slot is empty is destroyed. -/
theorem destroy_name_ (d : ConnId) : ((w.destroy c).conns d).name_ = (w.conns d).name_ := by
  by_cases hdc : d = c
  · rw [hdc, destroy_conns_self]
  · rw [destroy_conns_ne hdc]

theorem destroy_state_ (d : ConnId) : ((w.destroy c).conns d).state_ = (w.conns d).state_ := by
  by_cases hdc : d = c
  · rw [hdc, destroy_conns_self]
  · rw [destroy_conns_ne hdc]

theorem World.Named.destroy (h : w.Named) (c : ConnId) : (w.destroy c).Named :=
  ⟨fun d hd => (destroy_name_ d).trans (h.names d hd), h.nextConnId_, h.fits⟩

theorem Wiring.destroy (h : Wiring w)
    (hsc : w.loop.poller_.channels_ (w.conns c).channel_.fd_ = none)
    (hsk : w.loop.poller_.kernel (w.conns c).channel_.fd_ = none) : Wiring (w.destroy c) := by
  have hpoll := destroy_poller_ hsk
  have hslot : ∀ fd r, w.SlotOf fd r → r ≠ .conn c → (w.destroy c).SlotOf fd r := by
    intro fd r hr hne
    cases r with
    | wakeup => exact hr
    | acceptor => exact hr
    | conn d =>
        have hdc : d ≠ c := fun he => hne (he ▸ rfl)
        exact ⟨live_destroy.mpr ⟨hdc, hr.1⟩, by rw [destroy_conns_ne hdc]; exact hr.2⟩
  constructor
  case distinct =>
      intro d e hd he hde
      obtain ⟨hdc, hd⟩ := live_destroy.mp hd
      obtain ⟨hec, he⟩ := live_destroy.mp he
      rw [destroy_conns_ne hdc, destroy_conns_ne hec] at hde
      exact h.distinct d e hd he hde
  case reserved =>
      intro d hd
      obtain ⟨hdc, hd⟩ := live_destroy.mp hd
      rw [destroy_conns_ne hdc]
      exact h.reserved d hd
  case channels_ =>
      intro fd r hr
      rw [hpoll] at hr
      apply hslot fd r (h.channels_ fd r hr)
      rintro rfl
      have := (h.channels_ fd _ hr).2
      rw [← this, hsc] at hr
      cases hr
  case kernel =>
      intro fd e he
      rw [hpoll] at he
      apply hslot fd e.ptr (h.kernel fd e he)
      intro hp
      have := h.kernel fd e he
      rw [hp] at this
      rw [← this.2, hsk] at he
      cases he

end destroy

/-- Destroying a connection that is gone. -/
theorem WorldOk.destroy (h : WorldOk w stage) (hl : w.Live c) (hs : stage c = .gone) :
    WorldOk (w.destroy c) stage := by
  have hok := h.conn c hl.1
  rw [hs] at hok
  obtain ⟨hsc, hsk⟩ := hok.slot_of_gone hl.2
  have hother : ∀ d, d ≠ c → (w.destroy c).conns d = w.conns d := fun d hd =>
    destroy_conns_ne hd
  have hself := destroy_conns_self (w := w) (c := c)
  have hpoll := destroy_poller_ hsk
  have hwiring := h.wiring.destroy hsc hsk
  constructor
  case conn =>
      intro d hd
      by_cases hdc : d = c
      · subst hdc
        rw [hs]
        constructor
        case inStep =>
            rw [hself]
            exact fun hd => nomatch hd
        case dead => exact fun _ => rfl
        case functors => exact hok.functors
        case soft => simp
        case raw => exact hok.raw
        all_goals rw [hself]
        · exact hok.state_
        · exact hok.entry
        · exact hok.index_
        · exact hok.reading
        · exact hok.notices
        · exact hok.history
      · exact (h.conn d hd).congr (hother d hdc) rfl rfl hpoll
  case target => exact h.target
  case rawOrder => exact h.rawOrder
  case entries =>
      intro name d hd
      obtain ⟨h₁, h₂⟩ := h.entries name d hd
      exact ⟨h₁, (destroy_name_ d).trans h₂⟩
  case names => exact (h.named.destroy c).names
  case nextConnId_ => exact h.nextConnId_
  case fits => exact h.fits
  case distinct => exact hwiring.distinct
  case reserved => exact hwiring.reserved
  case channels_ => exact hwiring.channels_
  case kernel => exact hwiring.kernel
  case active => exact h.active

/-- The channel of a connection is reported for the descriptor of the connection. -/
theorem Wiring.activeChannels (h : Wiring w) {report : List (Fd × Mask)} {r : ChannelRef × Mask}
    (hr : r ∈ w.activeChannels report) (hc : r.1 = .conn c) :
    w.Live c ∧ ∃ e, w.loop.poller_.kernel (w.conns c).channel_.fd_ = some e := by
  simp only [World.activeChannels, List.mem_filterMap, Option.map_eq_some_iff] at hr
  obtain ⟨⟨fd, m⟩, -, e, he, rfl⟩ := hr
  have hs := h.kernel fd e he
  rw [show e.ptr = .conn c from hc] at hs
  exact ⟨hs.1, e, hs.2 ▸ he⟩

/-- A channel that the kernel reports belongs to a registered connection. -/
theorem WorldOk.poll (h : WorldOk w stage) (hp : w.phase = .polling)
    (report : List (Fd × Mask)) :
    WorldOk { w with phase := .handling (w.activeChannels report) } stage := by
  refine h.congr rfl rfl rfl (by simp [World.queue, World.rest, hp]) rfl rfl rfl ?_
  intro r hr c hc
  obtain ⟨hl, e, he⟩ := h.wiring.activeChannels hr hc
  have hok := h.conn c hl.1
  refine ⟨hl.1, ?_⟩
  rw [← hok.index_, ((hok.inStep hl.2).kernel_eq he).1]
  decide

/-- The head of the active channels is taken. -/
theorem WorldOk.takeActive (h : WorldOk w stage) {r : ChannelRef × Mask}
    {rest : List (ChannelRef × Mask)} (hp : w.phase = .handling (r :: rest)) :
    WorldOk { w with phase := .handling rest } stage := by
  refine h.congr rfl rfl rfl (by simp [World.queue, World.rest, hp]) rfl rfl rfl ?_
  intro r' hr'
  apply h.active r'
  simp only [World.active, hp]
  exact List.mem_cons_of_mem _ hr'

theorem WorldOk.handleEvent (h : WorldOk w stage) (hr : ∀ d, (stage d).resting = true)
    {channel : ChannelRef} {revents : Mask}
    (hact : ∀ c, channel = .conn c → c < w.created ∧ (stage c).index_ ≠ .cNew)
    {accepted : Option (Fd × List WriteResult)} (ha : ∀ a, accepted = some a → ¬ w.IsOpen a.1)
    (read : Option (List UInt8)) :
    Ensures World.Ok Fault.expected (w.handleEvent app channel revents accepted read) := by
  cases channel with
  | wakeup =>
      simp only [World.handleEvent, ensures_ok]
      split
      · exact ⟨stage, h.congr rfl rfl rfl rfl rfl rfl rfl h.active, hr⟩
      · exact ⟨stage, h, hr⟩
  | acceptor =>
      cases accepted with
      | none => exact ⟨stage, h, hr⟩
      | some a =>
          simp only [World.handleEvent]
          split
          · exact h.newConnection hr (ha a rfl) a.2
          · exact ⟨stage, h, hr⟩
  | conn c =>
      obtain ⟨hc, hx⟩ := hact c rfl
      have hl := (h.conn c hc).not_destroyed (by
        rintro hg
        rw [hg] at hx
        exact hx rfl)
      have hh : Handled w c w := ⟨.rfl, stage, h, hr, hx⟩
      rw [World.handleEvent, World.handleConn, if_neg (by simp [hl])]
      exact (hh.handleEventWithGuard hc revents read).mono (fun _ h => h.ok) fun _ he => he

/-- **Every step keeps every connection in some stage**, and ends in a fault only by a null
pointer of the application or an overflow of `nextConnId_`. -/
theorem ok_step {a : ServerAction} {t : Except Fault (World υ)} (h : w.Ok)
    (hs : World.Step app w a t) : Ensures World.Ok Fault.expected t := by
  obtain ⟨stage, hw, hr⟩ := h
  cases hs with
  | poll hp _ => exact ⟨stage, hw.poll hp _, hr⟩
  | @handleEvent channel revents rest accepted read hp ha =>
      refine (hw.takeActive hp).handleEvent hr ?_ ha read
      rintro c rfl
      refine hw.active (.conn c, revents) ?_ c rfl
      simp [World.active, hp]
  | doPendingFunctors hp =>
      refine ⟨stage, hw.congr rfl rfl rfl ?_ rfl rfl rfl (fun _ hr => nomatch hr), hr⟩
      simp [World.queue, World.rest, hp]
  | runFunctor hp => exact hw.runFunctor hr hp
  | endFunctors hp =>
      refine ⟨stage, hw.congr rfl rfl rfl ?_ rfl rfl rfl (fun _ hr => nomatch hr), hr⟩
      simp [World.queue, World.rest, hp]
  | queueInLoop thread n => exact ⟨stage, hw.push_user thread n, hr⟩
  | destroy hl ho => exact ⟨stage, hw.destroy hl (hw.gone_of_not_owned hr hl.1 ho), hr⟩

/-- The process starts without connections. -/
theorem ok_init (threadId_ me : ThreadId) (wakeupFd acceptFd : Fd) (hostport : IpPort)
    (name : List Char) (user : υ) :
    (World.init threadId_ me wakeupFd acceptFd hostport name user).Ok := by
  refine ⟨fun _ => .gone, ?_, fun _ => rfl⟩
  constructor
  case channels_ =>
      intro fd r hr
      rcases updateChannel_channels_ hr with hr | ⟨rfl, rfl⟩
      · rcases updateChannel_channels_ hr with hr | ⟨rfl, rfl⟩
        · cases hr
        · rfl
      · rfl
  case kernel =>
      intro fd e he
      rcases updateChannel_kernel he with he | ⟨rfl, hp⟩
      · rcases updateChannel_kernel he with he | ⟨rfl, hp⟩
        · cases he
        · rw [hp]
          rfl
      · rw [hp]
        rfl
  case conn => exact fun _ hc => absurd hc (Nat.not_lt_zero _)
  case target => exact fun _ hf => nomatch hf
  case rawOrder => exact .nil
  case entries => exact fun _ _ hn => nomatch hn
  case names => exact fun _ hc => absurd hc (Nat.not_lt_zero _)
  case nextConnId_ => rfl
  case fits => exact (by decide : 0 < INT_MAX)
  case distinct => exact fun _ _ hc => absurd hc.1 (Nat.not_lt_zero _)
  case reserved => exact fun _ hc => absurd hc.1 (Nat.not_lt_zero _)
  case active => exact fun _ hr => nomatch hr

theorem ok_run {ls : List ServerAction} {w : World υ} {t : Except Fault (World υ)} (h : w.Ok)
    (run : Run (ServerStep app) (.ok w) ls t) : Ensures World.Ok Fault.expected t := by
  refine Run.invariant (I := Ensures World.Ok Fault.expected) ?_ run h
  rintro s a t hs ⟨w, rfl, hstep, -⟩
  exact ok_step hs hstep

/-! ### What the stages say about a connection -/

/-- The life cycle of a connection, as its history records it. -/
structure TcpConnection.LifeCycleOk (t : TcpConnection) : Prop where
  /-- `state_` moves forward along `kConnecting`, `kConnected`, `kDisconnecting`,
  `kDisconnected`, where `kDisconnecting` may be skipped. -/
  history : t.HistoryOk
  up : t.log.count (.connectionCallback true) = if t.state_ = .kConnecting then 0 else 1
  down : t.log.count (.connectionCallback false) = if t.state_ = .kDisconnected then 1 else 0
  close : t.log.count .closeCallback = if t.state_ = .kDisconnected then 1 else 0

theorem Stage.count_notices (s : Stage) (hs : s.resting = true) : ∀ st ∈ s.states,
    s.notices.count (.connectionCallback true) = (if st = .kConnecting then 0 else 1) ∧
      s.notices.count (.connectionCallback false) = (if st = .kDisconnected then 1 else 0) ∧
      s.notices.count .closeCallback = if st = .kDisconnected then 1 else 0 := by
  cases s <;> revert hs <;> decide

theorem ConnOk.lifeCycleOk (h : ConnOk w c s) (hs : s.resting = true) :
    (w.conns c).LifeCycleOk := by
  have hcount : ∀ e : ConnEvent, e.life = true →
      (w.conns c).log.count e = s.notices.count e := fun e he => by
    rw [← h.notices, TcpConnection.notices, List.count_filter he]
  obtain ⟨hup, hdown, hclose⟩ := s.count_notices hs _ h.state_
  exact ⟨h.history, (hcount _ rfl).trans hup, (hcount _ rfl).trans hdown,
    (hcount _ rfl).trans hclose⟩

/-- **Connection life cycle**: in every run of the server, whatever the application does in its
callbacks, `connectEstablished` never fails its assertion, and at every point where no handler
and no functor is executing the state of every connection has moved forward only, and the
callbacks have been invoked exactly as its state says. -/
theorem lifeCycle {threadId_ me : ThreadId} {wakeupFd acceptFd : Fd} {hostport : IpPort}
    {name : List Char} {user : υ} {ls : List ServerAction} {t : Except Fault (World υ)}
    (run : Run (ServerStep app)
      (.ok (World.init threadId_ me wakeupFd acceptFd hostport name user)) ls t) :
    t ≠ .error .assertion ∧
      ∀ w, t = .ok w → ∀ c < w.created, (w.conns c).LifeCycleOk := by
  have h := ok_run (ok_init threadId_ me wakeupFd acceptFd hostport name user) run
  refine ⟨?_, ?_⟩
  · rintro rfl
    rcases h with h | h <;> cases h
  · rintro w rfl c hc
    obtain ⟨stage, hw, hr⟩ := h
    exact (hw.conn c hc).lifeCycleOk (hr c)

/-- An application that does nothing. -/
def idleApplication : Application Unit where
  connectionCallback _ _ _ := ((), [])
  messageCallback _ _ _ _ := ((), [])
  functor _ _ _ := ((), [])

/-- Two clients connect and the first one closes. -/
theorem lifeCycle_example :
    ∃ w : World Unit, (w.conns 0).state_ = .kDisconnected ∧ (w.conns 1).state_ = .kConnected ∧
      (w.conns 0).notices =
        [.connectionCallback true, .connectionCallback false, .closeCallback, .connectDestroyed] ∧
      (w.conns 0).LifeCycleOk ∧ (w.conns 1).LifeCycleOk := by
  obtain ⟨w, run, hc, h0, h1, hn⟩ := World.exists_run_ok idleApplication
    (fun w => w.created = 2 ∧ (w.conns 0).state_ = .kDisconnected ∧
      (w.conns 1).state_ = .kConnected ∧ (w.conns 0).notices =
        [.connectionCallback true, .connectionCallback false, .closeCallback, .connectDestroyed])
    (.ok (World.init 1 1 3 4 ⟨[], by decide⟩ [] ()))
    [.poll [(4, EPOLLIN)], .handleEvent (some (7, [])) none, .doPendingFunctors, .endFunctors,
      .poll [(4, EPOLLIN)], .handleEvent (some (8, [])) none, .doPendingFunctors, .endFunctors,
      .poll [(7, EPOLLIN)], .handleEvent none (some []), .doPendingFunctors, .runFunctor,
      .endFunctors] (by decide +kernel)
  have hlife := (lifeCycle run).2 w rfl
  exact ⟨w, h0, h1, hn, hlife 0 (by omega), hlife 1 (by omega)⟩

end NetworkStructure
