import NetworkStructure.ConnSound
import NetworkStructure.Registry

/-! # The destructor of the server

`~TcpServer` goes through `connections_`, resets each entry and runs `connectDestroyed` on the
connection, directly on the thread `threadId_` and as a functor from any other.  An iteration of
that loop is one more step of the process, `TeardownStep`, and may come between any two others.

So `connectDestroyed` is no longer called on closed connections only.  It disables the channel
and reports DOWN when the state is `kConnected`; in every other state it goes on to
`Channel::remove`, which does nothing while the channel wants an event.  `Ready` is the condition
that the state is `kConnected` or `kDisconnected`, and it is exact (`teardown_iff`). -/

namespace NetworkStructure

variable {υ : Type} {app : Application υ}

namespace World

/-- A computation on the thread `thread`. -/
def onThread (w : World υ) (thread : ThreadId) (f : World υ → Except Fault (World υ)) :
    Except Fault (World υ) :=
  (f { w with me := thread }).map fun u : World υ => { u with me := w.me }

/-- One iteration of `~TcpServer` on the thread `thread`: the entry is reset, then
`runInLoop(bind(&TcpConnection::connectDestroyed, conn))`. -/
def destroyEntry (w : World υ) (app : Application υ) (thread : ThreadId) (c : ConnId) :
    Except Fault (World υ) :=
  if w.loop.isInLoopThread thread then
    (w.resetEntry c).onThread thread (·.connectDestroyed app c)
  else .ok ((w.resetEntry c).push thread (.connectDestroyed c))

end World

inductive TeardownAction where
  | server (a : ServerAction)
  | entry (thread : ThreadId) (c : ConnId)

/-- The steps of the process and the iterations of `~TcpServer`.  A connection that is closed
after the destructor calls into the freed server; the model lets that call go on. -/
inductive TeardownStep (app : Application υ) :
    Except Fault (World υ) → TeardownAction → Except Fault (World υ) → Prop
  | server {s t : Except Fault (World υ)} {a : ServerAction} (h : ServerStep app s a t) :
      TeardownStep app s (.server a) t
  | entry {w : World υ} {thread : ThreadId} {c : ConnId}
      (h : w.server.connections_.lookup (w.conns c).name_ = some c) :
      TeardownStep app (.ok w) (.entry thread c) (w.destroyEntry app thread c)

namespace World

/-- The connection on which an action invokes `connectDestroyed`. -/
def destroys (w : World υ) : TeardownAction → Option ConnId
  | .server .runFunctor =>
      match w.rest with
      | .connectDestroyed c :: _ => some c
      | _ => none
  | .server _ => none
  | .entry thread c => if w.loop.isInLoopThread thread then some c else none

/-- The descriptor of `c` is not registered, and DOWN has been delivered once. -/
def TornDown (w : World υ) (c : ConnId) : Prop :=
  w.loop.poller_.channels_ (w.conns c).channel_.fd_ = none ∧
    w.loop.poller_.kernel (w.conns c).channel_.fd_ = none ∧
    (w.conns c).log.count (.connectionCallback false) = 1

end World

/-- **Teardown**: a connection on which `connectDestroyed` has been invoked is torn down. -/
def TearsDown (s : Except Fault (World υ)) (a : TeardownAction) (t : Except Fault (World υ)) :
    Prop :=
  ∀ w w', s = .ok w → t = .ok w' → ∀ c, w.destroys a = some c → w'.TornDown c

/-- `connectDestroyed` is invoked on connections whose state is `kConnected` or
`kDisconnected`. -/
def Ready (s : Except Fault (World υ)) (a : TeardownAction) (_ : Except Fault (World υ)) : Prop :=
  ∀ w, s = .ok w → ∀ c, w.destroys a = some c →
    (w.conns c).state_ = .kConnected ∨ (w.conns c).state_ = .kDisconnected

variable {w w' : World υ} {c d : ConnId} {loose : Option ConnId}

theorem ConnSound.tornDown (h : ConnSound w c) (hr : w.Removed c) : w.TornDown c := by
  obtain ⟨-, hc, hk⟩ := (inStep_cNew hr.2).mp h.inStep
  exact ⟨hc, hk, by rw [h.downs, if_pos hr.1]⟩

theorem WorldSound.tearsDown (h : WorldSound w (some c)) (hl : w.Live c)
    (hst : (w.conns c).state_ = .kConnected ∨ (w.conns c).state_ = .kDisconnected) :
    Ensures (fun w' => WorldSound w' none ∧ w'.TornDown c) (fun _ => True)
      (w.connectDestroyed app c) :=
  (h.connectDestroyed hl hst).mono
    (fun _ hw' => ⟨hw'.1, (hw'.1.conn c hw'.2.1).tornDown hw'.2.2⟩) fun _ he => he

/-- On any other connection `connectDestroyed` delivers nothing. -/
theorem WorldSound.not_tornDown (h : WorldSound w loose) (hl : w.Live c)
    (hst : ¬ ((w.conns c).state_ = .kConnected ∨ (w.conns c).state_ = .kDisconnected)) :
    ∃ w', w.connectDestroyed app c = .ok w' ∧ ¬ w'.TornDown c := by
  push Not at hst
  refine ⟨_, by rw [World.connectDestroyed, if_neg hst.1]; rfl, ?_⟩
  have hd := (h.conn c hl).downs
  rw [if_neg hst.2] at hd
  rintro ⟨-, -, hdown⟩
  simp [World.onConn, LoopConn.channelRemove, World.atConn, List.count_append, hd] at hdown

/-! ### Functors -/

/-- The connection that a functor is about to release. -/
def PendingFunctor.releases : PendingFunctor → Option ConnId
  | connectDestroyed c | removeConnectionInLoop c => some c
  | _ => none

theorem WorldSound.take {f : PendingFunctor} {ran rest : List PendingFunctor}
    (h : WorldSound w none) (hp : w.phase = .functors ran (f :: rest)) :
    WorldSound { w with phase := .functors (ran ++ [f]) rest } f.releases := by
  have hq : w.queue = f :: ({ w with phase := .functors (ran ++ [f]) rest } : World υ).queue := by
    simp [World.queue, World.rest, hp]
  constructor
  case conn => exact fun c hl => (h.conn c hl).congr rfl rfl
  case held =>
      intro c hl hne
      rcases h.held c hl (by simp) with hr | he | ⟨g, hm, hg⟩
      · exact .inl hr
      · exact .inr (.inl he)
      · rw [hq, List.mem_cons] at hm
        rcases hm with rfl | hm
        · exact absurd (by rcases hg with rfl | rfl <;> rfl) hne
        · exact .inr (.inr ⟨g, hm, hg⟩)
  case owned =>
      intro g hm c hg
      refine h.owned g ?_ c hg
      simpa [World.batch, hp] using hm
  case raw => exact fun c hm => h.raw c (hq ▸ List.mem_cons_of_mem _ hm)
  case entries => exact h.entries
  case named => exact ⟨h.named.names, h.named.nextConnId_, h.named.fits⟩
  case wiring => exact h.wiring.congr rfl rfl rfl rfl rfl
  case active => exact fun _ hr => absurd hr List.not_mem_nil

theorem WorldSound.runFunctor (h : WorldSound w none) {f : PendingFunctor}
    {ran rest : List PendingFunctor} (hp : w.phase = .functors ran (f :: rest))
    (hready : ∀ c, f = .connectDestroyed c →
      (w.conns c).state_ = .kConnected ∨ (w.conns c).state_ = .kDisconnected) :
    Ensures (fun w' => WorldSound w' none ∧ ∀ c, f = .connectDestroyed c → w'.TornDown c)
      (fun _ => True) ({ w with phase := .functors (ran ++ [f]) rest }.runFunctor app f) := by
  have ht := h.take hp
  have hm : f ∈ w.queue := by simp [World.queue, World.rest, hp]
  have hlive : ∀ c, f.owns c = true → w.Live c := h.owned f (queue_subset_batch hm)
  -- every functor but `connectDestroyed` only has to keep the invariant
  suffices hkeep : (∀ c, f ≠ .connectDestroyed c) → Ensures (fun w' => WorldSound w' none)
      (fun _ => True) ({ w with phase := .functors (ran ++ [f]) rest }.runFunctor app f) by
    by_cases hc : ∃ c, f = .connectDestroyed c
    · obtain ⟨c, rfl⟩ := hc
      have hl : w.Live c := hlive c (decide_eq_true rfl)
      refine (ht.tearsDown hl (hready c rfl)).mono ?_ fun _ he => he
      rintro w' ⟨hw', htorn⟩
      refine ⟨hw', fun d hd => ?_⟩
      cases hd
      exact htorn
    · push Not at hc
      exact (hkeep hc).mono (fun w' hw' => ⟨hw', fun c he => absurd he (hc c)⟩) fun _ he => he
  intro hne
  have hcb : ∀ cb : Callback υ, f.releases = none → Ensures (fun w' => WorldSound w' none)
      (fun _ => True) (World.callback { w with phase := .functors (ran ++ [f]) rest } cb) := by
    intro cb hf
    rw [hf] at ht
    exact (ht.callback cb).mono (fun w' hw' => hw'.1) fun _ he => he
  cases f with
  | connectEstablished c =>
      exact (ht.connectEstablished (hlive c (decide_eq_true rfl))).mono (fun w' hw' => hw'.1)
        fun _ he => he
  | connectDestroyed c => exact absurd rfl (hne c)
  | removeConnectionInLoop c => exact ht.removeConnectionInLoop (hlive c (decide_eq_true rfl))
  | shutdownInLoop c =>
      obtain ⟨hc, hs⟩ := h.raw c hm
      rw [World.runFunctor]
      split
      · trivial
      · next hl =>
        have hl : w.Live c := ⟨hc, Bool.eq_false_iff.mpr hl⟩
        exact ht.quiet hl hs (LoopConn.quiet_shutdownInLoop ((ht.conn c hl).registered hs))
  | forceCloseInLoop c =>
      exact (WorldSound.handleClose ht (hlive c (decide_eq_true rfl))).mono
        (fun w' hw' => hw'.1) fun _ he => he
  | writeCompleteCallback c =>
      rw [World.runFunctor]
      split
      · exact hcb _ rfl
      · exact ht
  | highWaterMarkCallback c len => exact ht
  | user n => exact hcb _ rfl

/-! ### Steps -/

/-- A connection that nobody owns has been removed. -/
theorem WorldSound.destroy (h : WorldSound w none) (hl : w.Live c) (ho : ¬ w.Owned app c) :
    WorldSound (w.destroy c) none := by
  have hrem : w.Removed c := by
    rcases h.held c hl (by simp) with hr | ⟨name, hn⟩ | ⟨f, hm, hf⟩
    · exact hr
    · exact absurd (.inl ⟨name, hn⟩) ho
    · refine absurd (.inr (.inl ⟨f, queue_subset_batch hm, ?_⟩)) ho
      rcases hf with rfl | rfl <;> exact decide_eq_true rfl
  obtain ⟨-, hsc, hsk⟩ := (inStep_cNew hrem.2).mp (h.conn c hl).inStep
  have hpoll := destroy_poller_ hsk
  constructor
  case conn =>
      intro d hd
      obtain ⟨hdc, hd⟩ := live_destroy.mp hd
      exact (h.conn d hd).congr (destroy_conns_ne hdc) hpoll
  case held =>
      intro d hd _
      obtain ⟨hdc, hd⟩ := live_destroy.mp hd
      rcases h.held d hd (by simp) with hr | hh
      · left
        rwa [World.Removed, destroy_conns_ne hdc]
      · exact .inr hh
  case owned =>
      intro f hf d hd
      refine live_destroy.mpr ⟨?_, h.owned f hf d hd⟩
      rintro rfl
      exact ho (.inr (.inl ⟨f, hf, hd⟩))
  case raw =>
      intro d hm
      rw [destroy_state_]
      exact h.raw d hm
  case entries =>
      intro name d hd
      obtain ⟨h₁, h₂⟩ := h.entries name d hd
      have hdc : d ≠ c := by
        rintro rfl
        exact ho (.inl ⟨name, hd⟩)
      exact ⟨live_destroy.mpr ⟨hdc, h₁⟩, (destroy_name_ d).trans h₂⟩
  case named => exact h.named.destroy c
  case wiring => exact h.wiring.destroy hsc hsk
  case active =>
      intro r hr d hd
      rw [destroy_state_]
      exact h.active r hr d hd

/-- A channel that the kernel reports belongs to a connection that has been established. -/
theorem WorldSound.poll (h : WorldSound w none) (hp : w.phase = .polling)
    (report : List (Fd × Mask)) :
    WorldSound { w with phase := .handling (w.activeChannels report) } none := by
  refine h.congr rfl rfl rfl (by simp [World.queue, World.rest, hp])
    (fun f hf => by simpa [World.batch, hp] using hf) rfl rfl rfl ?_
  intro r hr c hc
  obtain ⟨hl, e, he⟩ := h.wiring.activeChannels hr hc
  have hok := h.conn c hl
  refine ⟨hl.1, fun hst => ?_⟩
  have := (hok.inStep.kernel_eq he).1
  rw [hok.fresh hst] at this
  cases this

theorem worldSound_server {a : ServerAction} {t : Except Fault (World υ)} (h : WorldSound w none)
    (hs : World.Step app w a t)
    (hready : ∀ c, w.destroys (.server a) = some c →
      (w.conns c).state_ = .kConnected ∨ (w.conns c).state_ = .kDisconnected) :
    Ensures (fun w' => WorldSound w' none ∧
      ∀ c, w.destroys (.server a) = some c → w'.TornDown c) (fun _ => True) t := by
  cases hs with
  | poll hp _ => exact ⟨h.poll hp _, fun c hc => by cases hc⟩
  | @handleEvent channel revents rest accepted read hp ha =>
      have ht : WorldSound { w with phase := .handling rest } none := by
        refine h.congr rfl rfl rfl (by simp [World.queue, World.rest, hp])
          (fun f hf => by simpa [World.batch, hp] using hf) rfl rfl rfl fun r hr => ?_
        apply h.active r
        simp only [World.active, hp]
        exact List.mem_cons_of_mem _ hr
      refine (ht.handleEvent ?_ ha read).mono
        (fun w' hw' => ⟨hw', fun c hc => by cases hc⟩) fun _ he => he
      rintro c rfl
      exact h.active (.conn c, revents) (by simp [World.active, hp]) c rfl
  | doPendingFunctors hp =>
      refine ⟨h.congr rfl rfl rfl ?_ (fun f hf => ?_) rfl rfl rfl
        (fun _ hr => absurd hr List.not_mem_nil),
        fun c hc => by cases hc⟩
      · simp [World.queue, World.rest, hp]
      · simpa [World.batch, hp] using hf
  | @runFunctor ran rest f hp =>
      have hd : ∀ c, f = .connectDestroyed c ↔ w.destroys (.server .runFunctor) = some c := by
        intro c
        simp only [World.destroys, World.rest, hp]
        cases f <;> simp
      refine (h.runFunctor hp fun c hc => hready c ((hd c).mp hc)).mono ?_ fun _ he => he
      exact fun w' hw' => ⟨hw'.1, fun c hc => hw'.2 c ((hd c).mpr hc)⟩
  | @endFunctors ran hp =>
      refine ⟨h.congr rfl rfl rfl ?_ (fun f hf => ?_) rfl rfl rfl
        (fun _ hr => absurd hr List.not_mem_nil),
        fun c hc => by cases hc⟩
      · simp [World.queue, World.rest, hp]
      · have hf : f ∈ w.loop.pendingFunctors_ := hf
        exact List.mem_append_right _ hf
  | queueInLoop thread n =>
      exact ⟨h.push thread (f := .user n) (fun c hc => by cases hc) (by simp),
        fun c hc => by cases hc⟩
  | destroy hl ho => exact ⟨h.destroy hl ho, fun c hc => by cases hc⟩

/-- An iteration of `~TcpServer`. -/
theorem worldSound_entry {thread : ThreadId} (h : WorldSound w none)
    (hn : w.server.connections_.lookup (w.conns c).name_ = some c)
    (hready : w.loop.isInLoopThread thread = true →
      (w.conns c).state_ = .kConnected ∨ (w.conns c).state_ = .kDisconnected) :
    Ensures (fun w' => WorldSound w' none ∧
      (w.loop.isInLoopThread thread = true → w'.TornDown c)) (fun _ => True)
      (w.destroyEntry app thread c) := by
  have hl := (h.entries _ c hn).1
  have hreset := h.resetEntry hl (.inl rfl)
  have hme : ∀ {u : World υ} {loose : Option ConnId} (me : ThreadId), WorldSound u loose →
      WorldSound { u with me := me } loose := fun me hu =>
    hu.congr rfl rfl rfl rfl (fun _ hf => hf) rfl rfl rfl hu.active
  unfold World.destroyEntry World.onThread
  split
  · next hin =>
    apply ((hme thread hreset).tearsDown hl (hready hin)).map
    exact fun u hu => ⟨hme w.me hu.1, fun _ => hu.2⟩
  · next hin => exact ⟨hreset.release hl thread (.inl rfl), fun hin' => absurd hin' hin⟩

theorem worldSound_step {a : TeardownAction} {t : Except Fault (World υ)} (h : WorldSound w none)
    (hs : TeardownStep app (.ok w) a t) (hready : Ready (.ok w) a t) :
    Ensures (fun w' => WorldSound w' none ∧ ∀ c, w.destroys a = some c → w'.TornDown c)
      (fun _ => True) t := by
  cases hs with
  | server hs =>
      obtain ⟨_, ⟨⟩, hstep, -⟩ := hs
      exact worldSound_server h hstep (hready w rfl)
  | @entry _ thread c hn =>
      have hd : w.loop.isInLoopThread thread = true → w.destroys (.entry thread c) = some c :=
        fun hin => if_pos hin
      refine (worldSound_entry h hn fun hin => hready w rfl c (hd hin)).mono ?_ fun _ he => he
      rintro w' ⟨hw', htorn⟩
      refine ⟨hw', fun d hdd => ?_⟩
      simp only [World.destroys] at hdd
      split at hdd
      · next hin =>
          cases hdd
          exact htorn hin
      · cases hdd

/-- A step that invokes `connectDestroyed` on any other connection does not tear it down. -/
theorem ready_of_tearsDown {a : TeardownAction} {t : Except Fault (World υ)}
    (h : WorldSound w none) (hs : TeardownStep app (.ok w) a t) (ht : TearsDown (.ok w) a t) :
    Ready (.ok w) a t := by
  rintro _ ⟨⟩ c hc
  by_contra hready
  cases hs with
  | server hs =>
      obtain ⟨_, ⟨⟩, hstep, -⟩ := hs
      cases hstep with
      | @runFunctor ran rest f hp =>
          obtain rfl : f = .connectDestroyed c := by
            simp only [World.destroys, World.rest, hp] at hc
            cases f <;> simp_all
          have hm : .connectDestroyed c ∈ w.queue := by simp [World.queue, World.rest, hp]
          have hl : w.Live c := h.owned _ (queue_subset_batch hm) c (decide_eq_true rfl)
          obtain ⟨w', hw', hnot⟩ :=
            (h.take hp).not_tornDown hl hready
          exact hnot (ht w w' rfl hw' c hc)
      | _ => cases hc
  | @entry _ thread d hn =>
      simp only [World.destroys] at hc
      split at hc
      · next hin =>
          cases hc
          have hl := (h.entries _ c hn).1
          have hreset := h.resetEntry hl (.inl rfl)
          have hme : WorldSound { w.resetEntry c with me := thread } (some c) :=
            hreset.congr rfl rfl rfl rfl (fun _ hf => hf) rfl rfl rfl hreset.active
          obtain ⟨u, hu, hnot⟩ := hme.not_tornDown hl hready
          have he : w.destroyEntry app thread c = .ok { u with me := w.me } := by
            rw [World.destroyEntry, if_pos hin, World.onThread, hu]
            rfl
          exact hnot (ht w _ rfl he c (if_pos hin))
      · cases hc

theorem worldSound_init (threadId_ me : ThreadId) (wakeupFd acceptFd : Fd) (hostport : IpPort)
    (name : List Char) (user : υ) :
    WorldSound (World.init threadId_ me wakeupFd acceptFd hostport name user) none := by
  obtain ⟨stage, hw, -⟩ := ok_init threadId_ me wakeupFd acceptFd hostport name user
  constructor
  case conn => exact fun _ hl => absurd hl.1 (Nat.not_lt_zero _)
  case held => exact fun _ hl => absurd hl.1 (Nat.not_lt_zero _)
  case owned => exact fun _ hf => nomatch hf
  case raw => exact fun _ hf => nomatch hf
  case entries => exact fun _ _ hn => nomatch hn
  case named => exact ⟨hw.names, hw.nextConnId_, hw.fits⟩
  case wiring => exact hw.wiring
  case active => exact fun _ hr => nomatch hr

/-- **Teardown**: over any run of the server, whatever the application does, with iterations of
`~TcpServer` on any threads between its steps, every invocation of `connectDestroyed`
unregisters the connection, with DOWN delivered exactly once, if and only if each of them finds
its connection in the state `kConnected` or `kDisconnected`. -/
theorem teardown_iff (threadId_ me : ThreadId) (wakeupFd acceptFd : Fd) (hostport : IpPort)
    (name : List Char) (user : υ) (ls : List TeardownAction) (t : Except Fault (World υ)) :
    RunWith (TeardownStep app) TearsDown
        (.ok (World.init threadId_ me wakeupFd acceptFd hostport name user)) ls t ↔
      RunWith (TeardownStep app) Ready
        (.ok (World.init threadId_ me wakeupFd acceptFd hostport name user)) ls t := by
  refine runWith_iff (I := Ensures (fun w => WorldSound w none) fun _ => True) ?_ ?_
    (worldSound_init threadId_ me wakeupFd acceptFd hostport name user)
  · intro s a t hI hs hready
    cases s with
    | error e =>
        cases hs with
        | server h => obtain ⟨_, ⟨⟩, -⟩ := h
    | ok w =>
        exact (worldSound_step hI hs hready).mono (fun _ hw' => hw'.1) fun _ he => he
  · intro s a t hI hs
    cases s with
    | error e =>
        cases hs with
        | server h => obtain ⟨_, ⟨⟩, -⟩ := h
    | ok w =>
        refine ⟨fun ht => ready_of_tearsDown hI hs ht, fun hready => ?_⟩
        rintro _ w' ⟨⟩ rfl c hc
        exact (worldSound_step hI hs hready).2 c hc

theorem run_server {s t : Except Fault (World υ)} {ls : List ServerAction}
    (h : Run (ServerStep app) s ls t) : Run (TeardownStep app) s (ls.map .server) t := by
  induction h with
  | nil => exact .nil _
  | cons hs _ ih => exact .cons (.server hs) ih

/-- A connection is shut down as soon as it is up, and the server is destroyed: the channel stays
registered, and DOWN is not delivered. -/
theorem not_teardown :
    ∃ w w' : World Unit,
      Run (TeardownStep shutdownApplication)
        (.ok (World.init 1 1 3 4 ⟨[], by decide⟩ [] ()))
        [.server (.poll [(4, EPOLLIN)]), .server (.handleEvent (some (7, [])) none)] (.ok w) ∧
      (w.conns 0).state_ = .kDisconnecting ∧
      TeardownStep shutdownApplication (.ok w) (.entry 1 0) (.ok w') ∧
      w'.loop.poller_.channels_ 7 = some (.conn 0) ∧ w'.loop.poller_.kernel 7 ≠ none ∧
      (w'.conns 0).log.count (.connectionCallback false) = 0 ∧
      ¬ TearsDown (.ok w) (.entry 1 0) (.ok w') := by
  obtain ⟨w, run, hs, hn, hd, hany⟩ := World.exists_run_ok shutdownApplication
    (fun w => (w.conns 0).state_ = .kDisconnecting ∧
      w.server.connections_.lookup (w.conns 0).name_ = some 0 ∧
      w.destroys (.entry 1 0) = some 0 ∧
      (w.destroyEntry shutdownApplication 1 0).toOption.any (fun w' =>
        decide (w'.loop.poller_.channels_ 7 = some (.conn 0) ∧ w'.loop.poller_.kernel 7 ≠ none ∧
          (w'.conns 0).log.count (.connectionCallback false) = 0)) = true)
    (.ok (World.init 1 1 3 4 ⟨[], by decide⟩ [] ()))
    [.poll [(4, EPOLLIN)], .handleEvent (some (7, [])) none] (by decide +kernel)
  obtain ⟨w', hw', hp⟩ := (Option.any_eq_true _ _).mp hany
  obtain ⟨hc, hk, hcount⟩ := of_decide_eq_true hp
  have he : w.destroyEntry shutdownApplication 1 0 = .ok w' := by
    cases hx : w.destroyEntry shutdownApplication 1 0 with
    | error e => simp [hx, Except.toOption] at hw'
    | ok u => simpa [hx, Except.toOption] using hw'
  refine ⟨w, w', run_server run, hs, he ▸ .entry hn, hc, hk, hcount, fun h => ?_⟩
  have hdown := (h w w' rfl rfl 0 hd).2.2
  rw [hcount] at hdown
  cases hdown

end NetworkStructure
