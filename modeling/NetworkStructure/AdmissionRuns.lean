import Mathlib.Logic.Relation
import NetworkStructure.Admission

/-! # The admission of connections in the runs of the server

`World.admission` is what a process shows of the admission of its connections.  Every step of
the process is a sequence of moves of that machine (`sim_step`), so the machine's invariant
holds in every run: `MyServer` counts its open connections and refuses a connection only when
`kMaxConnections_` admitted ones are connected (`exactAdmission`).

`sim_step` also says when a step goes wrong: it dereferences a null pointer exactly when it
delivers data while the host is gone. -/

namespace NetworkStructure

/-- The machine makes any number of moves. -/
abbrev Admission.Moves : Admission → Admission → Prop := Relation.ReflTransGen Admission.Move

theorem Admission.Fair.moves {K : ℕ} {a a' : Admission} (h : a.Fair K) (hm : a.Moves a') :
    a'.Fair K := by
  induction hm with
  | refl => exact h
  | tail _ hm ih => exact ih.move hm

namespace World

variable (w : World MyServer)

/-- How many connections may be accepted: those whose events are still to be handled, or else
one in the next poll. -/
def accepts : ℕ :=
  match w.phase with
  | .handling activeChannels_ => activeChannels_.countP fun r => decide (r.1 = .acceptor)
  | _ => 1

def admission : Admission where
  direct := w.loop.isInLoopThread w.me
  created := w.created
  state c := (w.conns c).state_
  rest := w.rest
  pending := w.loop.pendingFunctors_
  accepts := w.accepts
  user := w.user

end World

variable {w w' w'' : World MyServer} {c d : ConnId} {s : StateE} {fs : List PendingFunctor}
  {u : MyServer}

theorem Became.admission (h : Became w w' c s fs u) :
    w'.admission = { w.admission with
      state := Function.update w.admission.state c s
      pending := w.admission.pending ++ fs
      user := u } := by
  have hs : (fun d => (w'.conns d).state_) =
      Function.update (fun d => (w.conns d).state_) c s := by
    funext d
    rw [h.state_, Function.update_apply]
  simp only [World.admission, World.rest, World.accepts, EventLoop.isInLoopThread, h.same.phase,
    h.same.created, h.same.me, h.same.threadId_, h.pending, h.user, hs]

theorem Calm.admission (h : Calm w w') : w'.admission = w.admission := by
  rw [(h 0).admission, List.append_nil]
  have he : Function.update w.admission.state 0 (w.conns 0).state_ = w.admission.state :=
    Function.update_eq_self ..
  rw [he]
  rfl

/-- The others that the server sees when `c` comes up. -/
theorem Became.connectedAdmitted (h : Became w w' c .kConnected [] w.user) :
    w'.connectedAdmitted = w.admission.others c := by
  unfold World.connectedAdmitted Admission.others
  rw [h.user]
  refine List.filter_congr fun d _ => ?_
  rw [TcpConnection.connected, h.state_]
  simp [World.admission, Function.update_apply]

/-- `connectEstablished` is the machine's `up`. -/
theorem connectEstablished_admission (h : (w.conns c).state_ = .kConnecting) (hl : w.Live c)
    (hn : w.NoOutputCallbacks) :
    ∃ w' fs, w.connectEstablished MyServer.application c = .ok w' ∧ Admission.Refusal c fs ∧
      w'.admission = w.admission.up c fs ∧ w'.NoOutputCallbacks := by
  obtain ⟨w', w₁, s, fs, hw', h₁, h', hif⟩ := connectEstablished_spec h hl
  rw [h₁.connectedAdmitted] at h'
  have hn' := h'.noOutputCallbacks hn
  have hn' := h'.noOutputCallbacks hn
  split at hif
  · next hfull =>
    obtain ⟨rfl, hfs⟩ := hif
    exact ⟨w', fs, hw', hfs, h'.admission.trans (if_pos hfull).symm, hn'⟩
  · next hfull =>
    obtain ⟨rfl, rfl⟩ := hif
    have ha := h'.admission
    rw [List.append_nil] at ha
    exact ⟨w', [.forceCloseInLoop c], hw', .inl rfl, ha.trans (if_neg hfull).symm, hn'⟩

theorem closer_neutral (w : World MyServer) (c : ConnId) : (w.closer c).Neutral := by
  unfold World.closer
  split <;> exact ⟨rfl, rfl, rfl⟩

/-- `handleClose` is the machine's `close`. -/
theorem handleClose_admission (w : World MyServer) (c : ConnId) :
    ∃ w', w.handleClose MyServer.application c = .ok w' ∧
      w'.admission = w.admission.close c (w.closer c) ∧ Closing w w' c := by
  by_cases ho : (w.atConn c).isOpen = true
  · obtain ⟨w', hw', h⟩ := handleClose_of_isOpen ho
    exact ⟨w', hw', h.admission.trans (if_pos (of_decide_eq_true ho)).symm, .inr ⟨ho, h⟩⟩
  · have ho : (w.atConn c).isOpen = false := Bool.eq_false_iff.mpr ho
    exact ⟨w, handleClose_of_not_isOpen ho, (if_neg (of_decide_eq_false ho)).symm, .inl .rfl⟩

/-- What a handler of `c` does is the machine's `close`, or nothing. -/
theorem Closing.moves (h : Closing w w' c) (hc : c < w.created) :
    w.admission.Moves w'.admission := by
  rcases h with h | ⟨ho, h⟩
  · rw [h.admission]
  · have ha : w'.admission = w.admission.close c (w.closer c) :=
      h.admission.trans (if_pos (of_decide_eq_true ho)).symm
    rw [ha]
    exact .single (.close hc (closer_neutral w c))

theorem admission_push (t : ThreadId) (f : PendingFunctor) :
    (w.push t f).admission = { w.admission with pending := w.admission.pending ++ [f] } := by
  have hd : (w.loop.queueInLoop t f).isInLoopThread w.me = w.loop.isInLoopThread w.me := by
    unfold EventLoop.isInLoopThread
    rw [EventLoop.queueInLoop_threadId_]
  have hp := EventLoop.queueInLoop_pendingFunctors_ w.loop t f
  unfold World.admission World.push
  dsimp only
  rw [hd, hp]
  rfl

/-! ### Polling and accepting -/

/-- The kernel reports the listening socket once at most. -/
theorem WorldOk.countP_acceptor {stage : ConnId → Stage} (h : WorldOk w stage)
    {report : List (Fd × Mask)} (hr : ValidReport w.loop.poller_.kernel report) :
    (w.activeChannels report).countP (fun r => decide (r.1 = .acceptor)) ≤ 1 := by
  have hle : (w.activeChannels report).countP (fun r => decide (r.1 = .acceptor)) ≤
      (report.map Prod.fst).count w.acceptFd := by
    rw [World.activeChannels, List.countP_filterMap, List.count, List.countP_map]
    refine List.countP_mono_left fun r _ hm => ?_
    cases he : w.loop.poller_.kernel r.1 with
    | none => simp [he] at hm
    | some e =>
        have hp : e.ptr = .acceptor := by simpa [he] using hm
        have hs := h.kernel r.1 e he
        rw [hp] at hs
        exact beq_iff_eq.mpr hs
  exact Nat.le_trans hle (List.nodup_iff_count_le_one.mp hr.1 _)

/-- The new connection, in a process that has taken the listening socket from the active
channels. -/
theorem insertConnection_admission (hn : w.NoOutputCallbacks) (fd : Fd)
    (socket : List WriteResult) :
    (w.insertConnection MyServer.application fd socket).admission =
        { w.admission with
          created := w.created + 1
          state := Function.update w.admission.state w.created .kConnecting } ∧
      (w.insertConnection MyServer.application fd socket).NoOutputCallbacks := by
  constructor
  · have hs : (fun d => ((w.insertConnection MyServer.application fd socket).conns d).state_) =
        Function.update (fun d => (w.conns d).state_) w.created .kConnecting := by
      funext d
      simp only [World.insertConnection, Function.update_apply]
      split <;> rfl
    simp only [World.admission, hs]
    rfl
  · intro d
    by_cases hd : d = w.created
    · subst hd
      simp [World.atConn, World.insertConnection, LoopConn.NoOutputCallbacks, TcpConnection.new,
        MyServer.application]
    · have := hn d
      simpa [World.atConn, World.insertConnection, LoopConn.NoOutputCallbacks, hd] using this

/-- The machine does not see a connection being destroyed. -/
theorem destroy_admission (hn : w.NoOutputCallbacks) (c : ConnId) :
    (w.destroy c).admission = w.admission ∧ (w.destroy c).NoOutputCallbacks := by
  constructor
  · have hs : (fun d => ((w.destroy c).conns d).state_) = fun d => (w.conns d).state_ :=
      funext destroy_state_
    simp only [World.admission, hs]
    rfl
  · intro d
    by_cases hd : d = c
    · subst hd
      simpa [World.atConn, World.destroy, LoopConn.NoOutputCallbacks] using hn d
    · simpa [World.atConn, World.destroy, LoopConn.NoOutputCallbacks, hd] using hn d

theorem newConnection_moves {a : Admission} (hn : w.NoOutputCallbacks)
    (ha : a = { w.admission with accepts := w.accepts + 1 }) (hr : w.rest = []) (fd : Fd)
    (socket : List WriteResult) :
    Ensures (fun w' => a.Moves w'.admission ∧ w'.NoOutputCallbacks) (· = Fault.signedOverflow)
      (w.newConnection MyServer.application fd socket) := by
  obtain ⟨hi, hni⟩ := insertConnection_admission hn fd socket
  have hins : (w.insertConnection MyServer.application fd socket).admission = a.insert := by
    rw [hi, ha]
    rfl
  have hacc : a.accepts ≠ 0 := by rw [ha]; exact Nat.succ_ne_zero _
  unfold World.newConnection
  split
  · exact rfl
  · split
    · next hd =>
      have hl : (w.insertConnection MyServer.application fd socket).Live w.created :=
        ⟨Nat.lt_succ_self _, by simp [World.insertConnection, TcpConnection.new]⟩
      obtain ⟨w', fs, hw', hfs, hup, hn'⟩ := connectEstablished_admission
        (by simp [World.insertConnection, TcpConnection.new]) hl hni
      rw [hw', ensures_ok, hup, hins]
      have hm : a.Move (a.insert.up a.created fs) :=
        .acceptUp hacc (by rw [ha]; exact hd) (by rw [ha]; exact hr) (by rw [ha]; exact hfs)
      rw [ha] at hm ⊢
      exact ⟨.single hm, hn'⟩
    · next hd =>
      have hm : a.Move { a.insert with
          pending := a.pending ++ [.connectEstablished a.created] } :=
        .accept hacc (by rw [ha]; exact Bool.eq_false_iff.mpr hd) (by rw [ha]; exact hr)
      have hq := admission_push (w := w.insertConnection MyServer.application fd socket) w.me
        (.connectEstablished w.created)
      rw [hins] at hq
      refine ⟨.single ?_, hni⟩
      rw [ha] at hm hq ⊢
      exact hq ▸ hm

/-! ### Steps -/

/-- The step delivers data from a connection to the application. -/
def World.delivery (w : World MyServer) : ServerAction → Bool
  | .handleEvent _ read =>
      match w.phase with
      | .handling ((.conn _, revents) :: _) => World.delivers revents read
      | _ => false
  | _ => false

/-- Running the head of the batch. -/
theorem runFunctor_moves {stage : ConnId → Stage} (h : WorldOk w stage) (hn : w.NoOutputCallbacks)
    {f : PendingFunctor} {ran rest : List PendingFunctor}
    (hp : w.phase = .functors ran (f :: rest)) :
    ∃ w', World.runFunctor MyServer.application
        { w with phase := .functors (ran ++ [f]) rest } f = .ok w' ∧
      w.admission.Moves w'.admission ∧ w'.NoOutputCallbacks := by
  obtain ⟨w₀, hw₀⟩ : ∃ w₀ : World MyServer,
    w₀ = { w with phase := .functors (ran ++ [f]) rest } := ⟨_, rfl⟩
  have hrest : w.admission.rest = f :: rest := by simp [World.admission, World.rest, hp]
  have ha : w₀.admission = { w.admission with rest := rest } := by
    subst hw₀
    simp only [World.admission, World.rest, World.accepts, hp]
  have hn₀ : w₀.NoOutputCallbacks := by rw [hw₀]; exact hn
  have hconns : w₀.conns = w.conns := by rw [hw₀]
  have hcreated : w₀.created = w.created := by rw [hw₀]
  have hm : f ∈ w.queue := by simp [World.queue, World.rest, hp]
  -- a functor that the machine does not see
  have calm : ∀ w', f.isEstablish = false ∧ f.isForceClose = false → Calm w₀ w' →
      w.admission.Moves w'.admission ∧ w'.NoOutputCallbacks := by
    intro w' hf hc
    rw [hc.admission, ha]
    exact ⟨.single (.take hrest hf.1 hf.2), (hc 0).noOutputCallbacks hn₀⟩
  rw [← hw₀]
  cases f with
  | connectEstablished c =>
      obtain ⟨hc, hs⟩ := h.connecting_of_mem hm
      have hok := h.conn c hc
      have hst : (w.conns c).state_ = .kConnecting := hok.state_eq_kConnecting.mpr (.inr hs)
      have hl : w₀.Live c := by
        rw [World.Live, hconns, hcreated]
        exact hok.live hc (by simp [hs])
      obtain ⟨w', fs, hw', hfs, hup, hn'⟩ :=
        connectEstablished_admission (by rw [hconns]; exact hst) hl hn₀
      refine ⟨w', hw', ?_, hn'⟩
      rw [hup, ha]
      exact .single (.establish hrest hc hst hfs)
  | connectDestroyed c =>
      obtain ⟨hc, hs⟩ := h.destroying_of_mem hm
      have hst : (w₀.conns c).state_ ≠ .kConnected := by
        have hd := (h.conn c hc).state_eq_kDisconnected.mpr (by simp [hs])
        rw [hconns, hd]
        decide
      have hplain : LoopConn.Plain (w₀.atConn c)
          ((w₀.atConn c).channelRemove.record .connectDestroyed) :=
        LoopConn.plain_channelRemove.trans (LoopConn.plain_record _)
      exact ⟨_, by rw [World.runFunctor, World.connectDestroyed, if_neg hst]; rfl,
        calm _ ⟨rfl, rfl⟩ (calm_setConn hplain)⟩
  | removeConnectionInLoop c =>
      refine ⟨_, rfl, ?_, hn₀⟩
      have hpush : (w₀.removeConnectionInLoop c).admission =
          { w₀.admission with pending := w₀.admission.pending ++ [.connectDestroyed c] } :=
        admission_push (w := { w₀ with server := { w₀.server with
          connections_ := w₀.server.connections_.erase (w₀.conns c).name_ } }) w₀.me _
      rw [hpush, ha]
      exact .tail (.single (.take hrest rfl rfl)) (.push ⟨rfl, rfl, rfl⟩)
  | shutdownInLoop c =>
      have hl := (h.live_of_shutdownInLoop hm).2
      rw [← hconns] at hl
      exact ⟨_, by rw [World.runFunctor, if_neg (by simp [hl])]; rfl,
        calm _ ⟨rfl, rfl⟩ (calm_setConn LoopConn.plain_shutdownInLoop)⟩
  | forceCloseInLoop c =>
      obtain ⟨w', hw', hcl, hclosing⟩ := handleClose_admission w₀ c
      refine ⟨w', hw', ?_, hclosing.noOutputCallbacks hn₀⟩
      have hc : c < w.admission.created := h.target _ hm c rfl
      rw [hcl, ha]
      exact .single (.forceClose hrest hc (closer_neutral ..))
  | writeCompleteCallback c => exact ⟨w₀, rfl, calm w₀ ⟨rfl, rfl⟩ .rfl⟩
  | highWaterMarkCallback c len => exact ⟨w₀, rfl, calm w₀ ⟨rfl, rfl⟩ .rfl⟩
  | user n => exact ⟨w₀, rfl, calm w₀ ⟨rfl, rfl⟩ .rfl⟩

/-- What the outcome of an event is to the machine. -/
theorem handleEvent_moves {stage : ConnId → Stage} (h : WorldOk w stage)
    (hn : w.NoOutputCallbacks) {channel : ChannelRef} {revents : Mask}
    {active : List (ChannelRef × Mask)} (hp : w.phase = .handling ((channel, revents) :: active))
    (accepted : Option (Fd × List WriteResult)) (read : Option (List UInt8)) :
    if w.delivery (.handleEvent accepted read) = true ∧ w.user.lock w.conns = none then
      World.handleEvent MyServer.application { w with phase := .handling active } channel revents
        accepted read = .error .nullPointer
    else Ensures (fun w' => w.admission.Moves w'.admission ∧ w'.NoOutputCallbacks)
      (· = Fault.signedOverflow) (World.handleEvent MyServer.application
        { w with phase := .handling active } channel revents accepted read) := by
  obtain ⟨w₀, hw₀⟩ : ∃ w₀ : World MyServer, w₀ = { w with phase := .handling active } := ⟨_, rfl⟩
  have hn₀ : w₀.NoOutputCallbacks := by rw [hw₀]; exact hn
  have hrest : w₀.rest = [] := by rw [hw₀]; rfl
  have ha : w₀.admission = { w.admission with accepts := w₀.accepts } := by
    rw [hw₀]
    simp only [World.admission, World.rest, hp]
  have hacc : w.accepts = w₀.accepts + if channel = .acceptor then 1 else 0 := by
    rw [hw₀]
    simp only [World.accepts, hp, List.countP_cons, decide_eq_true_eq]
  have hpass : w.admission.Moves w₀.admission := by
    rw [ha]
    exact .single (.pass (by
      show w₀.accepts ≤ w.accepts
      omega))
  rw [← hw₀]
  cases channel with
  | wakeup =>
      have hd : w.delivery (.handleEvent accepted read) = false := by
        simp only [World.delivery, hp]
      rw [if_neg (by simp [hd])]
      have hc : Calm w₀ { w₀ with loop := w₀.loop.handleRead } := fun c =>
        { Calm.rfl c with
          pending := (List.append_nil _).symm
          same := ⟨rfl, rfl, rfl, rfl⟩ }
      simp only [World.handleEvent, ensures_ok]
      split
      · exact ⟨hc.admission ▸ hpass, (hc 0).noOutputCallbacks hn₀⟩
      · exact ⟨hpass, hn₀⟩
  | acceptor =>
      have hd : w.delivery (.handleEvent accepted read) = false := by
        simp only [World.delivery, hp]
      rw [if_neg (by simp [hd])]
      cases accepted with
      | none => exact ⟨hpass, hn₀⟩
      | some r =>
          simp only [World.handleEvent]
          split
          · refine newConnection_moves hn₀ ?_ hrest r.1 r.2
            rw [ha]
            rw [if_pos rfl] at hacc
            rw [← hacc]
            rfl
          · exact ⟨hpass, hn₀⟩
  | conn c =>
      have hc : c < w.created := (h.active (.conn c, revents) (by simp [World.active, hp]) c rfl).1
      have hx := (h.active (.conn c, revents) (by simp [World.active, hp]) c rfl).2
      have hl : (w₀.conns c).destroyed = false := by
        rw [hw₀]
        apply (h.conn c hc).not_destroyed
        intro hg
        rw [hg] at hx
        exact hx rfl
      have hd : w.delivery (.handleEvent accepted read) = World.delivers revents read := by
        simp only [World.delivery, hp]
      have hlock : w₀.user.lock w₀.conns = w.user.lock w.conns := by rw [hw₀]
      have hspec := handleEventWithGuard_spec (c := c) hn₀ revents read
      rw [hlock] at hspec
      rw [hd]
      simp only [World.handleEvent, World.handleConn, hl, Bool.false_eq_true, if_false]
      split
      · next hif => rwa [if_pos hif] at hspec
      · next hif =>
        rw [if_neg hif] at hspec
        obtain ⟨w', hw', hcl⟩ := hspec
        rw [hw', ensures_ok]
        exact ⟨hpass.trans (hcl.moves (by rw [hw₀]; exact hc)), hcl.noOutputCallbacks hn₀⟩

/-- **Simulation**: a step dereferences a null pointer exactly when it delivers data while the
host is gone; any other step that does not overflow `nextConnId_` is a sequence of moves. -/
theorem step_moves {a : ServerAction} {t : Except Fault (World MyServer)} (h : w.Ok)
    (hn : w.NoOutputCallbacks) (hs : World.Step MyServer.application w a t) :
    if w.delivery a = true ∧ w.user.lock w.conns = none then t = .error .nullPointer
    else Ensures (fun w' => w.admission.Moves w'.admission ∧ w'.NoOutputCallbacks)
      (· = Fault.signedOverflow) t := by
  obtain ⟨stage, hw, -⟩ := h
  cases hs with
  | handleEvent hp _ => exact handleEvent_moves hw hn hp _ _
  | @poll report hp hr =>
      have ha : World.admission { w with phase := .handling (w.activeChannels report) } =
          { w.admission with accepts :=
              (w.activeChannels report).countP fun r => decide (r.1 = .acceptor) } := by
        simp only [World.admission, World.rest, World.accepts, hp]
      have hle : (w.activeChannels report).countP (fun r => decide (r.1 = .acceptor)) ≤
          w.admission.accepts := by
        simpa [World.admission, World.accepts, hp] using hw.countP_acceptor hr
      exact ⟨ha ▸ .single (.pass hle), hn⟩
  | doPendingFunctors hp =>
      have ha : World.admission { w with
            phase := .functors [] w.loop.pendingFunctors_
            loop := { w.loop with callingPendingFunctors_ := true, pendingFunctors_ := [] } } =
          { w.admission with rest := w.admission.pending, pending := [], accepts := 1 } := rfl
      have hrest : w.admission.rest = [] := by simp only [World.admission, World.rest, hp]
      exact ⟨ha ▸ .single (.swap hrest), hn⟩
  | runFunctor hp =>
      obtain ⟨w', hw', hm⟩ := runFunctor_moves hw hn hp
      rw [hw']
      exact hm
  | endFunctors hp =>
      have ha : World.admission { w with
            phase := .polling, loop := { w.loop with callingPendingFunctors_ := false } } =
          w.admission := by
        simp only [World.admission, World.rest, World.accepts, hp]
        rfl
      exact ⟨by rw [ha], hn⟩
  | queueInLoop thread n =>
      have ha := admission_push (w := w) thread (.user n)
      exact ⟨ha ▸ .single (.push ⟨rfl, rfl, rfl⟩), hn⟩
  | @destroy c hl ho =>
      obtain ⟨ha, hn'⟩ := destroy_admission hn c
      exact ⟨by rw [ha], hn'⟩

/-! ### Runs -/

/-- What holds of the process between two steps. -/
structure Served (K : ℕ) (w : World MyServer) : Prop where
  ok : w.Ok
  noOutputCallbacks : w.NoOutputCallbacks
  fair : w.admission.Fair K

/-- Nothing is queued at first. -/
theorem gate_init (threadId_ me : ThreadId) (wakeupFd acceptFd : Fd) (hostport : IpPort)
    (name : List Char) (user : MyServer) :
    (World.init threadId_ me wakeupFd acceptFd hostport name user).admission.Gate where
  refused _ h := nomatch h
  late _ h := nomatch h
  order := .nil
  batch := Nat.zero_le 1
  gate := Nat.le_refl 1
  busy h := absurd rfl h
  queued _ _ h := nomatch h
  first _ _ _ h := nomatch h
  unborn _ _ := rfl

theorem served_init (K : ℕ) (threadId_ me : ThreadId) (wakeupFd acceptFd : Fd) (hostport : IpPort)
    (name : List Char) :
    Served K (World.init threadId_ me wakeupFd acceptFd hostport name
      { kMaxConnections_ := K }) where
  ok := ok_init ..
  noOutputCallbacks _ := ⟨rfl, rfl⟩
  fair :=
    { gate := gate_init ..
      tally :=
        { limit := rfl
          counted := rfl
          atMost := Nat.zero_le K
          admitted := fun _ h => nomatch h
          nodup := .nil
          known := fun _ h => nomatch h
          refusals := fun _ h => nomatch h } }

theorem served_step {K : ℕ} {a : ServerAction} {t : Except Fault (World MyServer)}
    (h : Served K w) (hs : World.Step MyServer.application w a t) :
    Ensures (Served K) Fault.expected t := by
  have hok := ok_step h.ok hs
  have hmoves := step_moves h.ok h.noOutputCallbacks hs
  cases t with
  | error e => exact hok
  | ok w' =>
      split at hmoves
      · cases hmoves
      · exact ⟨hok, hmoves.2, h.fair.moves hmoves.1⟩

/-- What the admission control promises at every point where no callback is executing. -/
structure World.AdmissionOk (K : ℕ) (w : World MyServer) : Prop where
  counted : w.user.numConnected_ = (Nat.count
    (fun c => (w.conns c).state_ = .kConnected ∨ (w.conns c).state_ = .kDisconnecting)
    w.created : ℕ)
  atMost : Nat.count (fun c => (w.conns c).state_ = .kConnected) w.created ≤ K
  /-- Whenever a connection was refused, exactly `K` connections that had been admitted were
  connected. -/
  refusals : ∀ r ∈ w.user.refusals, r.2.Nodup ∧ r.2.length = K

/-- **Exact admission control**: in every run of a loop that serves one `MyServer`. -/
theorem exactAdmission {K : ℕ} {threadId_ me : ThreadId} {wakeupFd acceptFd : Fd}
    {hostport : IpPort} {name : List Char} {ls : List ServerAction}
    (run : Run (ServerStep MyServer.application) (.ok (World.init threadId_ me wakeupFd acceptFd
      hostport name { kMaxConnections_ := K })) ls (.ok w)) : w.AdmissionOk K := by
  have h : Ensures (Served K) Fault.expected (.ok w) := by
    refine Run.invariant ?_ run (served_init K threadId_ me wakeupFd acceptFd hostport name)
    rintro s a t hs ⟨w, rfl, hstep, -⟩
    exact served_step hs hstep
  have ht := (h.of_ok rfl).fair.tally
  exact ⟨ht.counted, ht.atMost, ht.refusals⟩

/-- A server for one connection admits the first and refuses the second. -/
theorem exactAdmission_example :
    ∃ w : World MyServer, w.user.refusals = [(1, [0])] ∧ w.AdmissionOk 1 := by
  obtain ⟨w, run, hr⟩ := World.exists_run_ok MyServer.application
    (fun w => w.user.refusals = [(1, [0])])
    (.ok (World.init 1 2 3 4 ⟨[], by decide⟩ [] { kMaxConnections_ := (1 : ℕ) }))
    [.poll [(4, EPOLLIN)], .handleEvent (some (7, [])) none, .doPendingFunctors,
      .runFunctor, .endFunctors, .poll [(4, EPOLLIN)], .handleEvent (some (8, [])) none,
      .doPendingFunctors, .runFunctor] (by decide +kernel)
  exact ⟨w, hr, exactAdmission run⟩

end NetworkStructure
