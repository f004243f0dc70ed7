import NetworkStructure.AdmissionRuns

/-! # The host of a MyServer

`onMessage` sends to the host without asking whether `hostPtr_.lock()` has found it.  The host is
the first connection that was admitted, and nobody chooses another when it is gone: `flag` is
cleared for good.

While data can be delivered there is a host (`Hosted`), and the connection object lives exactly
until `connectDestroyed` has run on it: nothing that the server queues owns it longer.  So the
server runs without dereferencing a null pointer exactly as long as no data is delivered after
`connectDestroyed` has run on the host (`hostAlive_iff`). -/

namespace NetworkStructure
namespace Admission

variable {a : Admission} {c : ConnId} {f : PendingFunctor} {fs rest : List PendingFunctor} {K : ℕ}

/-- The first connection that came up is the host, and no functor of the server keeps it. -/
structure Hosted (a : Admission) : Prop where
  flag : a.user.flag = true ↔ a.user.hostPtr_ = none
  first : a.user.hostPtr_ = none → ∀ c, a.state c = .kConnecting
  host : ∀ h, a.user.hostPtr_ = some h →
    a.state h ≠ .kConnecting ∧ .forceCloseInLoop h ∉ a.rest ++ a.pending
  outputs : ∀ f ∈ a.rest ++ a.pending, f.isOutput = false

theorem Hosted.setRest (h : a.Hosted) (hr : a.rest = f :: rest) :
    ({ a with rest := rest }).Hosted :=
  { h with
    host := fun d hd => ⟨(h.host d hd).1, fun hm => (h.host d hd).2 (by
      rw [hr]
      exact List.mem_cons_of_mem _ hm)⟩
    outputs := fun g hg => h.outputs g (by
      rw [hr]
      exact List.mem_cons_of_mem _ hg) }

theorem Hosted.append (h : a.Hosted)
    (hc : ∀ d, a.user.hostPtr_ = some d → .forceCloseInLoop d ∉ fs)
    (ho : ∀ f ∈ fs, f.isOutput = false) : ({ a with pending := a.pending ++ fs }).Hosted :=
  { h with
    host := fun d hd => ⟨(h.host d hd).1, fun hm => by
      rw [← List.append_assoc] at hm
      exact (List.mem_append.mp hm).elim (h.host d hd).2 (hc d hd)⟩
    outputs := fun g hg => by
      rw [← List.append_assoc] at hg
      exact (List.mem_append.mp hg).elim (h.outputs g) (ho g) }

theorem Hosted.push (h : a.Hosted) (hf : f.isForceClose = false) (ho : f.isOutput = false) :
    ({ a with pending := a.pending ++ [f] }).Hosted := by
  refine h.append (fun d _ hm => ?_) fun g hg => List.mem_singleton.mp hg ▸ ho
  rw [← List.mem_singleton.mp hm] at hf
  cases hf

/-- A connection moves on, after the first one has come up. -/
theorem Hosted.setState (h : a.Hosted) (hn : a.user.hostPtr_ ≠ none) {s : StateE}
    (hs : s ≠ .kConnecting) : ({ a with state := Function.update a.state c s }).Hosted :=
  { h with
    first := fun he => absurd he hn
    host := fun d hd => ⟨by
      show Function.update a.state c s d ≠ .kConnecting
      rw [Function.update_apply]
      split
      · exact hs
      · exact (h.host d hd).1, (h.host d hd).2⟩ }

theorem Hosted.insert (h : a.Hosted) (hg : a.Gate) : a.insert.Hosted := by
  have hs : Function.update a.state a.created .kConnecting = a.state := hg.insert_state
  rw [Admission.insert, hs]
  exact { h with }

theorem opened_eq_zero (h : ∀ d, a.state d = .kConnecting) : a.opened = 0 := by
  unfold opened
  rw [Nat.count_eq_card_filter_range, Finset.card_eq_zero, Finset.filter_eq_empty_iff]
  intro d _
  rw [h d]
  decide

/-- The connection that comes up first is not refused, and becomes the host. -/
theorem Hosted.up (h : a.Hosted) (hg : a.Gate) (ht : a.Tally K) (hK : 1 ≤ K)
    (hs : a.state c = .kConnecting) (hfs : Refusal c fs) : (a.up c fs).Hosted := by
  have hlimit := ht.limit
  have hcount := ht.counted
  unfold Admission.up
  split
  · next hfull =>
    have hn : a.user.hostPtr_ ≠ none := by
      intro hn
      have h0 : a.opened = 0 := opened_eq_zero (h.first hn)
      omega
    have hnot : ∀ d, a.user.hostPtr_ = some d → .forceCloseInLoop d ∉ fs := by
      rintro d hd hm
      have hdc : d = c := by rcases hfs with rfl | rfl <;> simpa using hm
      subst hdc
      exact (h.host d hd).1 hs
    have hs' := (h.append hnot (by
      rcases hfs with rfl | rfl <;> simp [PendingFunctor.isOutput])).setState (c := c) hn
        (s := .kDisconnecting) (by decide)
    have hu := a.user.up_hostPtr_ c (a.others c)
    have hf := a.user.up_flag c (a.others c)
    rw [if_pos hfull] at hu hf
    constructor
    case flag => exact (hf.symm ▸ hu.symm ▸ h.flag)
    case first => exact fun he => absurd (hu.symm.trans he) hn
    case host => exact fun d hd => hs'.host d (hu.symm.trans hd)
    case outputs => exact hs'.outputs
  · next hfull =>
    have hu := a.user.up_hostPtr_ c (a.others c)
    have hf := a.user.up_flag c (a.others c)
    rw [if_neg hfull] at hu hf
    have hsome : (a.user.up c (a.others c)).hostPtr_ ≠ none := by
      rw [hu]
      split
      · simp
      · next hfl => exact fun he => hfl (h.flag.mpr he)
    constructor
    case flag => exact ⟨fun he => (Bool.false_ne_true (hf.symm.trans he)).elim,
      fun he => absurd he hsome⟩
    case first => exact fun he => absurd he hsome
    case outputs => exact h.outputs
    case host =>
        intro d hd
        have hd : (a.user.up c (a.others c)).hostPtr_ = some d := hd
        show Function.update a.state c .kConnected d ≠ .kConnecting ∧ _
        rw [Function.update_apply]
        rw [hu] at hd
        split at hd
        · -- `c` is the new host
          cases hd
          rw [if_pos rfl]
          exact ⟨by decide, fun hm => hg.late c hm hs⟩
        · obtain ⟨h₁, h₂⟩ := h.host d hd
          refine ⟨?_, h₂⟩
          split
          · decide
          · exact h₁

theorem Hosted.close (h : a.Hosted) (hf : f.Neutral) : (a.close c f).Hosted := by
  unfold Admission.close
  split
  · next ho =>
    have hn : a.user.hostPtr_ ≠ none := by
      intro hn
      rw [h.first hn c] at ho
      exact absurd ho (by decide)
    have := (h.setState (c := c) hn (s := .kDisconnected) (by decide)).push hf.2.1 hf.2.2
    exact { this with }
  · exact h

theorem Hosted.move {a' : Admission} (h : a.Hosted) (hF : a.Fair K) (hK : 1 ≤ K)
    (hm : Move a a') : a'.Hosted := by
  have hg := hF.gate
  have ht := hF.tally
  cases hm with
  | pass _ => exact { h with }
  | swap hr =>
      exact { h with
        host := fun d hd => by simpa [hr] using h.host d hd
        outputs := by simpa [hr] using h.outputs }
  | take hr _ _ => exact h.setRest hr
  | push hf => exact h.push hf.2.1 hf.2.2
  | accept _ _ _ => exact (h.insert hg).push rfl rfl
  | acceptUp _ _ _ hfs =>
      exact (h.insert hg).up hg.insert (ht.insert hg) hK (Function.update_self ..) hfs
  | @establish c rest fs hr hc hs hfs =>
      have hg' := hg.tail hr fun _ he => nomatch he
      have ht' : ({ a with rest := rest }).Tally K := { ht with }
      exact (h.setRest hr).up hg' ht' hK hs hfs
  | forceClose hr _ hf => exact (h.setRest hr).close hf
  | close _ hf => exact h.close hf

end Admission

variable {w : World MyServer} {K : ℕ} {host : ConnId} {stage : ConnId → Stage}

/-! ### The life of the host -/

/-- A connection that has been through `connectDestroyed` has the stage `gone`. -/
theorem ConnOk.connectDestroyed_mem {s : Stage} {c : ConnId} (h : ConnOk w c s) :
    .connectDestroyed ∈ (w.conns c).log ↔ s = .gone := by
  have hm : .connectDestroyed ∈ (w.conns c).log ↔ .connectDestroyed ∈ s.notices := by
    rw [← h.notices, TcpConnection.notices, List.mem_filter]
    simp [ConnEvent.life]
  rw [hm]
  cases s <;> simp [Stage.notices]

/-- Between two functors nobody owns a host that has been through `connectDestroyed`. -/
theorem WorldOk.not_owned_host (h : WorldOk w stage) (hh : w.admission.Hosted)
    (hp : w.batch = []) (hu : w.user.hostPtr_ = some host) (hc : host < w.created)
    (hs : stage host = .gone) : ¬ w.Owned MyServer.application host := by
  have hok := h.conn host hc
  rw [hs] at hok
  rintro (⟨name, hn⟩ | ⟨f, hf, ho⟩ | ho)
  · -- its entry has been erased
    have he := hok.entry
    rw [(h.entries name host hn).2, hn] at he
    cases he
  · -- none of the functors that own a connection is queued for it
    have hm : f ∈ w.queue := by
      rw [hp, List.nil_append] at hf
      exact List.mem_append_right _ hf
    have hlife : f.life = true → f.target ≠ some host := by
      intro hl ht
      exact absurd (hok.mem_functors hm hl ht) List.not_mem_nil
    cases f with
    | connectEstablished d | connectDestroyed d | removeConnectionInLoop d =>
        exact hlife rfl (congrArg some (of_decide_eq_true ho))
    | forceCloseInLoop d =>
        obtain rfl : d = host := of_decide_eq_true ho
        exact (hh.host d hu).2 hm
    | writeCompleteCallback d | highWaterMarkCallback d n => cases hh.outputs _ hm
    | shutdownInLoop d | user n => cases ho
  · cases ho

/-- The step serves the host: it does not deliver data after `connectDestroyed` has run on the
host. -/
def World.ServesHost (w : World MyServer) (a : ServerAction) : Prop :=
  w.delivery a = true → ∀ host, w.user.hostPtr_ = some host →
    .connectDestroyed ∉ (w.conns host).log

/-- While data is delivered the host can be locked until `connectDestroyed` has run on it. -/
theorem lock_iff {a : ServerAction} (h : Served K w) (hh : w.admission.Hosted)
    (hset : w.Settled MyServer.application) (hd : w.delivery a = true) :
    w.user.lock w.conns ≠ none ↔ w.ServesHost a := by
  obtain ⟨stage, hw, hr⟩ := h.ok
  obtain ⟨c, revents, rest, hp⟩ : ∃ c revents rest,
      w.phase = .handling ((.conn c, revents) :: rest) := by
    unfold World.delivery at hd
    split at hd
    · split at hd
      · next hp => exact ⟨_, _, _, hp⟩
      · cases hd
    · cases hd
  obtain ⟨hc, hx⟩ := hw.active (.conn c, revents) (by simp [World.active, hp]) c rfl
  -- the connection that delivers has come up, so there is a host
  have hup : (w.conns c).state_ ≠ .kConnecting := by
    rw [Ne, (hw.conn c hc).state_eq_kConnecting]
    rintro (hs | hs) <;> rw [hs] at hx <;> exact hx rfl
  obtain ⟨host, hu⟩ : ∃ host, w.user.hostPtr_ = some host :=
    Option.ne_none_iff_exists'.mp fun hn => hup (hh.first hn c)
  have hhost : host < w.created := by
    by_contra hlt
    exact (hh.host host hu).1 (h.fair.gate.unborn host (Nat.le_of_not_lt hlt))
  have hok := hw.conn host hhost
  have hdead : (w.conns host).destroyed = true ↔ .connectDestroyed ∈ (w.conns host).log := by
    rw [hok.connectDestroyed_mem]
    refine ⟨hok.dead, fun hs => ?_⟩
    by_contra hl
    refine hw.not_owned_host hh ?_ hu hhost hs (hset host ⟨hhost, Bool.eq_false_iff.mpr hl⟩)
    simp only [World.batch, hp]
  have hlock : w.user.lock w.conns ≠ none ↔ (w.conns host).destroyed ≠ true := by
    simp [MyServer.lock, hu]
  rw [hlock, Ne, hdead]
  constructor
  · rintro hnot - host' hu'
    rw [hu, Option.some.injEq] at hu'
    exact hu' ▸ hnot
  · exact fun hserves => hserves hd host hu

/-! ### Runs -/

theorem hosted_init (K : ℕ) (threadId_ me : ThreadId) (wakeupFd acceptFd : Fd) (hostport : IpPort)
    (name : List Char) : (World.init threadId_ me wakeupFd acceptFd hostport name
      { kMaxConnections_ := (K : ℤ) : MyServer }).admission.Hosted where
  flag := ⟨fun _ => rfl, fun _ => rfl⟩
  first _ _ := rfl
  host _ h := nomatch h
  outputs _ h := nomatch h

theorem hosted_moves {a a' : Admission} (h : a.Hosted) (hF : a.Fair K) (hK : 1 ≤ K)
    (hm : a.Moves a') : a'.Hosted := by
  induction hm with
  | refl => exact h
  | tail hm hstep ih => exact ih.move (hF.moves hm) hK hstep

/-- A step dereferences a null pointer exactly when it does not serve the host. -/
theorem nullPointer_iff {a : ServerAction} {t : Except Fault (World MyServer)}
    (h : Served K w) (hh : w.admission.Hosted)
    (hs : ServerStep MyServer.application (.ok w) a t) :
    t ≠ .error .nullPointer ↔ w.ServesHost a := by
  obtain ⟨_, ⟨⟩, hstep, hset⟩ := hs
  have hmoves := step_moves h.ok h.noOutputCallbacks hstep
  by_cases hd : w.delivery a = true
  · have hset : w.Settled MyServer.application := by
      rcases hset with ⟨c, rfl⟩ | hset
      · cases hd
      · exact hset
    rw [← lock_iff h hh hset hd]
    by_cases hl : w.user.lock w.conns = none
    · rw [if_pos ⟨hd, hl⟩] at hmoves
      simp [hmoves, hl]
    · rw [if_neg fun hdl => hl hdl.2] at hmoves
      refine ⟨fun _ => hl, ?_⟩
      rintro - rfl
      cases hmoves
  · rw [if_neg fun hdl => hd hdl.1] at hmoves
    refine ⟨fun _ hd' => absurd hd' hd, ?_⟩
    rintro - rfl
    cases hmoves

/-- **The host of a `MyServer`**: a run never dereferences a null pointer exactly when none of
its steps delivers data after `connectDestroyed` has run on the host. -/
theorem hostAlive_iff (hK : 1 ≤ K) {threadId_ me : ThreadId} {wakeupFd acceptFd : Fd}
    {hostport : IpPort} {name : List Char} {ls : List ServerAction}
    {t : Except Fault (World MyServer)} :
    RunWith (ServerStep MyServer.application) (fun _ _ t => t ≠ .error .nullPointer)
        (.ok (World.init threadId_ me wakeupFd acceptFd hostport name { kMaxConnections_ := K }))
        ls t ↔
      RunWith (ServerStep MyServer.application) (fun s a _ => ∀ w, s = .ok w → w.ServesHost a)
        (.ok (World.init threadId_ me wakeupFd acceptFd hostport name { kMaxConnections_ := K }))
        ls t := by
  refine runWith_iff (I := Ensures (fun w => Served K w ∧ w.admission.Hosted) fun _ => True)
    ?_ ?_ ⟨served_init K .., hosted_init K ..⟩
  · rintro s a t hI ⟨w, rfl, hstep, hset⟩ -
    obtain ⟨h, hh⟩ := hI
    have hserved := served_step h hstep
    have hmoves := step_moves h.ok h.noOutputCallbacks hstep
    cases t with
    | error e => trivial
    | ok w' =>
        refine ⟨hserved, ?_⟩
        split at hmoves
        · cases hmoves
        · exact hosted_moves hh h.fair hK hmoves.1
  · rintro s a t hI ⟨w, rfl, hs⟩
    obtain ⟨h, hh⟩ := hI
    rw [nullPointer_iff h hh ⟨w, rfl, hs⟩]
    exact ⟨fun hw w' he => Except.ok.inj he ▸ hw, fun hw => hw w rfl⟩

/-- No step of a run that has not ended in a fault is a fault. -/
theorem runWith_of_ok {s : Except Fault (World MyServer)} {ls : List ServerAction}
    (run : Run (ServerStep MyServer.application) s ls (.ok w)) :
    RunWith (ServerStep MyServer.application) (fun _ _ t => t ≠ .error .nullPointer) s ls
      (.ok w) := by
  generalize ht : Except.ok w = t at run
  induction run with
  | nil => exact .nil _
  | cons hs run ih =>
      refine .cons ⟨hs, ?_⟩ (ih ht)
      cases run with
      | nil => simp [← ht]
      | cons hs' _ =>
          obtain ⟨w', rfl, -⟩ := hs'
          simp

/-- The host sends data and is greeted. -/
theorem hostAlive_iff_example :
    ∃ w : World MyServer, .send MyServer.hello ∈ (w.conns 0).log ∧
      RunWith (ServerStep MyServer.application) (fun s a _ => ∀ w, s = .ok w → w.ServesHost a)
        (.ok (World.init 1 2 3 4 ⟨[], by decide⟩ [] { kMaxConnections_ := (1 : ℕ) }))
        [.poll [(4, EPOLLIN)], .handleEvent (some (7, [])) none, .doPendingFunctors, .runFunctor,
          .endFunctors, .poll [(7, EPOLLIN)], .handleEvent none (some [104])] (.ok w) := by
  obtain ⟨w, run, hm⟩ := World.exists_run_ok MyServer.application
    (fun w => .send MyServer.hello ∈ (w.conns 0).log)
    (.ok (World.init 1 2 3 4 ⟨[], by decide⟩ [] { kMaxConnections_ := (1 : ℕ) }))
    [.poll [(4, EPOLLIN)], .handleEvent (some (7, [])) none, .doPendingFunctors,
      .runFunctor, .endFunctors, .poll [(7, EPOLLIN)], .handleEvent none (some [104])]
    (by decide +kernel)
  exact ⟨w, hm, (hostAlive_iff (Nat.le_refl 1)).mp (runWith_of_ok run)⟩

/-- The server of one connection: the host closes, another connection takes its place, and a
message of that connection finds no host. -/
theorem not_hostAlive :
    Run (ServerStep MyServer.application)
      (.ok (World.init 1 2 3 4 ⟨[], by decide⟩ [] { kMaxConnections_ := (1 : ℕ) }))
      [.poll [(4, EPOLLIN)], .handleEvent (some (7, [])) none, .doPendingFunctors, .runFunctor,
        .endFunctors, .poll [(4, EPOLLIN), (7, EPOLLIN)], .handleEvent (some (8, [])) none,
        .handleEvent none (some []), .doPendingFunctors, .runFunctor, .runFunctor, .endFunctors,
        .poll [], .doPendingFunctors, .runFunctor, .endFunctors, .destroy 0,
        .poll [(8, EPOLLIN)], .handleEvent none (some [104])]
      (.error .nullPointer) :=
  World.exists_run_error MyServer.application (by decide +kernel)

end NetworkStructure
