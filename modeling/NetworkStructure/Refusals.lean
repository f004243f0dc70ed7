import NetworkStructure.ActiveChannels
import NetworkStructure.AdmissionRuns

/-! # Connections that are refused

`onConnection` refuses a connection by `shutdown` and `forceClose`.  Neither touches the
channel: `forceClose` queues `forceCloseInLoop`, and until that has run the descriptor is in the
interest set and `handleRead` delivers what arrives.  So everything depends on whether the loop
polls in between.

A refusal made while the events are handled is carried out in the same round.  This is what
happens when `loopthread` runs on the thread that the loop was constructed on, and then no
refused connection gets a message.  In `TcpServer` the loop runs on a thread of its own: the
refusal is made by a functor, `forceCloseInLoop` is left for the next round, and the events of
that round come first.  `refusedUnserved_iff` says that this is the only way a message gets
through: a run serves no refused connection exactly when no data is handled on a connection
whose `forceCloseInLoop` is queued. -/

namespace NetworkStructure

/-- The connections that have been refused. -/
def MyServer.refused (s : MyServer) : List ConnId := s.refusals.map Prod.fst

theorem MyServer.up_refused (s : MyServer) (c : ConnId) (connected : List ConnId) :
    (s.up c connected).refused =
      if s.numConnected_ + 1 > s.kMaxConnections_ then s.refused ++ [c] else s.refused := by
  unfold MyServer.refused
  rw [MyServer.up_refusals]
  split
  · rw [List.map_append]
    rfl
  · rfl

/-! ### What a move does to the refused connections -/

namespace Admission

/-- The connections whose `forceCloseInLoop` is queued. -/
def ForceClosing (a : Admission) (c : ConnId) : Prop := .forceCloseInLoop c ∈ a.rest ++ a.pending

/-- A move leaves the connections as they are, or takes one of them further. -/
inductive Effect (a a' : Admission) : Prop
  | same (hs : a'.state = a.state) (hr : a'.user.refused = a.user.refused)
      (hq : ∀ d, a'.ForceClosing d → a.ForceClosing d)
  | refuse (c : ConnId) (hc : a.state c = .kConnecting)
      (hs : a'.state = Function.update a.state c .kDisconnecting)
      (hr : a'.user.refused = a.user.refused ++ [c])
      (hq : ∀ d, a'.ForceClosing d → a.ForceClosing d ∨ d = c)
  | accept (c : ConnId) (hc : a.state c = .kConnecting)
      (hs : a'.state = Function.update a.state c .kConnected)
      (hr : a'.user.refused = a.user.refused) (hq : ∀ d, a'.ForceClosing d → a.ForceClosing d)
  | close (c : ConnId) (hs : a'.state = Function.update a.state c .kDisconnected)
      (hr : a'.user.refused = a.user.refused) (hq : ∀ d, a'.ForceClosing d → a.ForceClosing d)

variable {a a' a'' : Admission} {c d : ConnId} {f : PendingFunctor} {fs rest : List PendingFunctor}

theorem forceClosing_push (hf : f.isForceClose = false)
    (h : ({ a with pending := a.pending ++ [f] }).ForceClosing d) : a.ForceClosing d := by
  have h : .forceCloseInLoop d ∈ a.rest ++ (a.pending ++ [f]) := h
  rw [← List.append_assoc, List.mem_append, List.mem_singleton] at h
  rcases h with h | rfl
  · exact h
  · cases hf

theorem forceClosing_tail (hr : a.rest = f :: rest) (h : ({ a with rest := rest }).ForceClosing d) :
    a.ForceClosing d := by
  have h : .forceCloseInLoop d ∈ rest ++ a.pending := h
  unfold ForceClosing
  rw [hr]
  exact List.mem_cons_of_mem _ h

theorem effect_up (hs : a.state c = .kConnecting) (hfs : Refusal c fs) :
    a.Effect (a.up c fs) := by
  have hr := a.user.up_refused c (a.others c)
  unfold up
  split
  · next hfull =>
    rw [if_pos hfull] at hr
    refine .refuse c hs rfl hr fun d hd => ?_
    have hd : .forceCloseInLoop d ∈ a.rest ++ (a.pending ++ fs) := hd
    rw [← List.append_assoc, List.mem_append] at hd
    refine hd.imp_right fun hm => ?_
    rcases hfs with rfl | rfl <;> simpa using hm
  · next hfull =>
    rw [if_neg hfull] at hr
    exact .accept c hs rfl hr fun _ hd => hd

theorem effect_close (hf : f.Neutral) : a.Effect (a.close c f) := by
  unfold close
  split
  · exact .close c rfl rfl fun d hd => forceClosing_push hf.2.1 hd
  · exact .same rfl rfl fun _ hd => hd

/-- The head of the batch does not matter to what follows. -/
theorem Effect.of_tail (hr : a.rest = f :: rest) (h : ({ a with rest := rest }).Effect a') :
    a.Effect a' := by
  cases h with
  | same hs hu hq => exact .same hs hu fun d hd => forceClosing_tail hr (hq d hd)
  | refuse c hc hs hu hq =>
      exact .refuse c hc hs hu fun d hd => (hq d hd).imp_left (forceClosing_tail hr)
  | accept c hc hs hu hq => exact .accept c hc hs hu fun d hd => forceClosing_tail hr (hq d hd)
  | close c hs hu hq => exact .close c hs hu fun d hd => forceClosing_tail hr (hq d hd)

theorem Gate.effect (h : a.Gate) (hm : Move a a') : a.Effect a' := by
  cases hm with
  | pass _ => exact .same rfl rfl fun _ hd => hd
  | swap hr =>
      refine .same rfl rfl fun d hd => ?_
      have hd : .forceCloseInLoop d ∈ a.pending ++ [] := hd
      unfold ForceClosing
      rwa [hr, List.nil_append, ← List.append_nil a.pending]
  | take hr _ _ => exact .same rfl rfl fun d hd => forceClosing_tail hr hd
  | push hf => exact .same rfl rfl fun d hd => forceClosing_push hf.2.1 hd
  | accept _ _ _ =>
      exact .same h.insert_state rfl fun d hd => forceClosing_push (a := a.insert) rfl hd
  | acceptUp _ _ _ hfs =>
      have he := effect_up (a := a.insert) (c := a.created) (Function.update_self ..) hfs
      have hs := h.insert_state
      cases he with
      | same hs' hr hq => exact .same (hs'.trans hs) hr hq
      | refuse c hc hs' hr hq => exact .refuse c (hs ▸ hc) (hs ▸ hs') hr hq
      | accept c hc hs' hr hq => exact .accept c (hs ▸ hc) (hs ▸ hs') hr hq
      | close c hs' hr hq => exact .close c (hs ▸ hs') hr hq
  | @establish c rest fs hr _ hs hfs =>
      exact .of_tail hr (effect_up (a := { a with rest := rest }) hs hfs)
  | forceClose hr _ hf => exact .of_tail hr (effect_close hf)
  | close _ hf => exact effect_close hf

/-- The refused connections are on their way down, and no others are force-closed. -/
structure Marked (a : Admission) : Prop where
  down : ∀ c ∈ a.user.refused, a.state c = .kDisconnecting ∨ a.state c = .kDisconnected
  refused : ∀ c, a.ForceClosing c → c ∈ a.user.refused

theorem Marked.effect (h : a.Marked) (he : a.Effect a') : a'.Marked := by
  have hnot : ∀ c ∈ a.user.refused, a.state c ≠ .kConnecting := by
    intro c hc hs
    rcases h.down c hc with hd | hd <;> cases hd.symm.trans hs
  cases he with
  | same hs hr hq =>
      exact ⟨fun d hd => by rw [hs]; exact h.down d (hr ▸ hd),
        fun d hd => hr ▸ h.refused d (hq d hd)⟩
  | refuse c hc hs hr hq =>
      constructor
      case down =>
          intro d hd
          rw [hs]
          by_cases hdc : d = c
          · subst hdc
            exact .inl (Function.update_self ..)
          · rw [hr, List.mem_append, List.mem_singleton] at hd
            rw [Function.update_of_ne hdc]
            exact h.down d (hd.resolve_right hdc)
      case refused =>
          intro d hd
          rw [hr, List.mem_append, List.mem_singleton]
          exact (hq d hd).imp_left (h.refused d)
  | accept c hc hs hr hq =>
      refine ⟨fun d hd => ?_, fun d hd => hr ▸ h.refused d (hq d hd)⟩
      have hm : d ∈ a.user.refused := hr ▸ hd
      have hdc : d ≠ c := fun he => hnot d hm (he ▸ hc)
      rw [hs, Function.update_of_ne hdc]
      exact h.down d hm
  | close c hs hr hq =>
      refine ⟨fun d hd => ?_, fun d hd => hr ▸ h.refused d (hq d hd)⟩
      rw [hs, Function.update_apply]
      split
      · exact .inr rfl
      · exact h.down d (hr ▸ hd)

/-- Refusals are final, and only a connection that comes up is refused. -/
structure Later (a a' : Admission) : Prop where
  direct : a'.direct = a.direct
  refused : ∀ c ∈ a.user.refused, c ∈ a'.user.refused
  fresh : ∀ c ∈ a'.user.refused, c ∈ a.user.refused ∨ a.state c = .kConnecting
  connecting : ∀ c, a'.state c = .kConnecting → a.state c = .kConnecting

theorem Later.rfl : a.Later a := ⟨Eq.refl _, fun _ h => h, fun _ h => .inl h, fun _ h => h⟩

theorem Later.trans (h₁ : a.Later a') (h₂ : a'.Later a'') : a.Later a'' where
  direct := h₂.direct.trans h₁.direct
  refused c hc := h₂.refused c (h₁.refused c hc)
  fresh c hc := (h₂.fresh c hc).elim (h₁.fresh c) fun hs => .inr (h₁.connecting c hs)
  connecting c hs := h₁.connecting c (h₂.connecting c hs)

theorem Move.direct (hm : Move a a') : a'.direct = a.direct := by
  have hup : ∀ (b : Admission) (c : ConnId) (fs : List PendingFunctor),
      (b.up c fs).direct = b.direct := fun b c fs => by
    unfold up
    split <;> rfl
  have hclose : ∀ (b : Admission) (c : ConnId) (f : PendingFunctor),
      (b.close c f).direct = b.direct := fun b c f => by
    unfold Admission.close
    split <;> rfl
  cases hm with
  | pass _ | swap _ | take _ _ _ | push _ | accept _ _ _ => rfl
  | acceptUp _ _ _ _ => exact hup a.insert ..
  | @establish c rest fs _ _ _ _ => exact hup { a with rest := rest } c fs
  | @forceClose c rest f _ _ _ => exact hclose { a with rest := rest } c f
  | close _ _ => exact hclose ..

theorem Effect.later (he : a.Effect a') (hd : a'.direct = a.direct) : a.Later a' := by
  have hstate : ∀ {c : ConnId} {s : StateE}, s ≠ .kConnecting →
      a'.state = Function.update a.state c s → ∀ d, a'.state d = .kConnecting →
        a.state d = .kConnecting := by
    intro c s hs hu d hd
    rw [hu, Function.update_apply] at hd
    split at hd
    · exact absurd hd hs
    · exact hd
  cases he with
  | same hs hr _ =>
      exact ⟨hd, fun c hc => hr ▸ hc, fun c hc => .inl (hr ▸ hc), fun c hc => hs ▸ hc⟩
  | refuse c hc hs hr _ =>
      refine ⟨hd, fun d hm => hr ▸ List.mem_append_left _ hm, fun d hm => ?_,
        hstate (by decide) hs⟩
      rw [hr, List.mem_append, List.mem_singleton] at hm
      rcases hm with hm | rfl
      · exact .inl hm
      · exact .inr hc
  | accept c _ hs hr _ =>
      exact ⟨hd, fun d hm => hr ▸ hm, fun d hm => .inl (hr ▸ hm), hstate (by decide) hs⟩
  | close c hs hr _ =>
      exact ⟨hd, fun d hm => hr ▸ hm, fun d hm => .inl (hr ▸ hm), hstate (by decide) hs⟩

/-- What the moves keep. -/
structure Ordered (a : Admission) : Prop where
  gate : a.Gate
  marked : a.Marked

theorem Ordered.moves (h : a.Ordered) (hm : a.Moves a') : a'.Ordered ∧ a.Later a' := by
  induction hm with
  | refl => exact ⟨h, .rfl⟩
  | tail _ hm ih =>
      obtain ⟨ho, hl⟩ := ih
      have he := ho.gate.effect hm
      exact ⟨⟨ho.gate.move hm, ho.marked.effect he⟩, hl.trans (he.later hm.direct)⟩

end Admission

/-! ### The active channels -/

variable {w w' : World MyServer} {c : ConnId}

/-- The connections among the active channels are different ones and open; where the loop
carries out refusals in the same round, they are connected. -/
structure World.Awake (w : World MyServer) : Prop where
  distinct : w.active.Pairwise fun r r' => ∀ c, r.1 = .conn c → r'.1 ≠ .conn c
  opened : ∀ r ∈ w.active, ∀ c, r.1 = .conn c → (w.conns c).state_.IsOpen
  connected : w.loop.isInLoopThread w.me = true →
    ∀ r ∈ w.active, ∀ c, r.1 = .conn c → (w.conns c).state_ = .kConnected

theorem World.Awake.of_nil (h : w.active = []) : w.Awake := by
  constructor <;> simp [h]

theorem awake_poll {stage : ConnId → Stage} (h : WorldOk w stage) (hg : w.admission.Gate)
    (hp : w.phase = .polling) {report : List (Fd × Mask)}
    (hr : ValidReport w.loop.poller_.kernel report) :
    World.Awake { w with phase := .handling (w.activeChannels report) } := by
  have halert := alert_poll h hr
  have hopen : ∀ r ∈ w.activeChannels report, ∀ c, r.1 = .conn c →
      (w.conns c).state_.IsOpen := by
    intro r hr c hc
    have hok := h.conn c (h.wiring.activeChannels hr hc).1.1
    rw [hok.opened_of_notices (halert.up r hr c hc)] at hok
    exact of_decide_eq_true hok.isOpen
  refine ⟨halert.distinct, hopen, fun hd r hr c hc => ?_⟩
  have hclear := hg.clear_of_direct hd (by simp [World.admission, World.accepts, hp])
    (by simp [World.admission, World.rest, hp]) c
  exact (hopen r hr c hc).resolve_right hclear

/-- Handling an event changes the state of no other connection. -/
theorem handleEvent_others (hn : w.NoOutputCallbacks) (channel : ChannelRef) (revents : Mask)
    (accepted : Option (Fd × List WriteResult)) (read : Option (List UInt8)) :
    Ensures (fun w' => w'.phase = w.phase ∧ ∀ d < w.created, channel ≠ .conn d →
        (w'.conns d).state_ = (w.conns d).state_) (fun _ => True)
      (w.handleEvent MyServer.application channel revents accepted read) := by
  cases channel with
  | wakeup =>
      simp only [World.handleEvent, ensures_ok]
      split <;> exact ⟨rfl, fun _ _ _ => rfl⟩
  | acceptor =>
      cases accepted with
      | none => exact ⟨rfl, fun _ _ _ => rfl⟩
      | some r =>
          simp only [World.handleEvent]
          split
          · obtain ⟨w₁, hw₁⟩ : ∃ w₁, w₁ = w.insertConnection MyServer.application r.1 r.2 :=
              ⟨_, rfl⟩
            have hold : ∀ d < w.created, (w₁.conns d).state_ = (w.conns d).state_ :=
              fun d hd => by rw [hw₁, insertConnection_conns_ne (Nat.ne_of_lt hd)]
            have hphase : w₁.phase = w.phase := by rw [hw₁]; rfl
            unfold World.newConnection
            rw [← hw₁]
            split
            · trivial
            · split
              · have hl : w₁.Live w.created := by
                  rw [hw₁]
                  exact ⟨Nat.lt_succ_self _, by rw [insertConnection_conns_self]; rfl⟩
                obtain ⟨w', w₂, s, fs, hw', -, hb, -⟩ := connectEstablished_spec
                  (by rw [hw₁, insertConnection_conns_self]; rfl) hl
                rw [hw']
                refine ⟨hb.same.phase.trans hphase, fun d hd _ => ?_⟩
                rw [hb.state_, if_neg (Nat.ne_of_lt hd), hold d hd]
              · exact ⟨hphase, fun d hd _ => hold d hd⟩
          · exact ⟨rfl, fun _ _ _ => rfl⟩
  | conn c =>
      simp only [World.handleEvent, World.handleConn]
      split
      · split
        · exact ⟨rfl, fun _ _ _ => rfl⟩
        · trivial
      · have hspec := handleEventWithGuard_spec (c := c) hn revents read
        split at hspec
        · rw [hspec]
          trivial
        · obtain ⟨w', hw', hcl⟩ := hspec
          rw [hw']
          rcases hcl with h | ⟨-, h⟩
          · exact ⟨(h c).same.phase, fun d _ _ => h.state_ d⟩
          · refine ⟨h.same.phase, fun d _ hd => ?_⟩
            rw [h.state_, if_neg fun hdc => hd (congrArg ChannelRef.conn hdc.symm)]

/-- The channels after the head are still awake when the head has been handled. -/
theorem World.Awake.handled (h : w.Awake) {r : ChannelRef × Mask} {rest : List (ChannelRef × Mask)}
    (hp : w.phase = .handling (r :: rest)) (hact : w'.active = rest)
    (hd : w'.loop.isInLoopThread w'.me = w.loop.isInLoopThread w.me)
    (hs : ∀ r' ∈ rest, ∀ c, r'.1 = .conn c → (w'.conns c).state_ = (w.conns c).state_) :
    w'.Awake := by
  have ha : w.active = r :: rest := by simp only [World.active, hp]
  have hin : ∀ r' ∈ w'.active, r' ∈ w.active := fun r' hr => by
    rw [ha]
    exact List.mem_cons_of_mem _ (hact ▸ hr)
  constructor
  case distinct =>
      have := h.distinct
      rw [ha] at this
      exact hact ▸ (List.pairwise_cons.mp this).2
  case opened =>
      intro r' hr c hc
      rw [hs r' (hact ▸ hr) c hc]
      exact h.opened r' (hin r' hr) c hc
  case connected =>
      intro hd' r' hr c hc
      rw [hs r' (hact ▸ hr) c hc]
      exact h.connected (hd.symm.trans hd') r' (hin r' hr) c hc

/-! ### Steps -/

/-- What holds of the process between two steps. -/
structure World.Refusing (w : World MyServer) : Prop where
  ok : w.Ok
  noOutputCallbacks : w.NoOutputCallbacks
  ordered : w.admission.Ordered
  awake : w.Awake
  silent : ∀ c, (w.conns c).state_ = .kConnecting → (w.conns c).messages = []

/-- Data is delivered to a connection among the active channels, while no functors run. -/
theorem deliveries_active {a : ServerAction} (hd : w.deliveries a c ≠ []) :
    (∃ revents, (.conn c, revents) ∈ w.active) ∧ w.rest = [] := by
  unfold World.deliveries at hd
  split at hd
  · next hp =>
    split at hd
    · next hdc =>
      rw [hdc.1]
      exact ⟨⟨_, by simp only [World.active, hp]; exact List.mem_cons_self ..⟩,
        by simp only [World.rest, hp]⟩
    · exact absurd rfl hd
  · exact absurd rfl hd

variable {a : ServerAction} {t : Except Fault (World MyServer)}

theorem awake_step (h : w.Refusing) (hs : World.Step MyServer.application w a t) :
    Ensures (fun w' => w'.admission.direct = w.admission.direct → w'.Awake) (fun _ => True) t := by
  obtain ⟨stage, hw, -⟩ := h.ok
  cases hs with
  | poll hp hr => exact fun _ => awake_poll hw h.ordered.gate hp hr
  | @handleEvent channel revents rest accepted read hp _ =>
      have hn : World.NoOutputCallbacks { w with phase := .handling rest } :=
        h.noOutputCallbacks
      refine (handleEvent_others hn channel revents accepted read).mono ?_ fun _ he => he
      rintro w' ⟨hp', hs'⟩ hd
      have ha : w.active = (channel, revents) :: rest := by simp only [World.active, hp]
      have hdist := h.awake.distinct
      rw [ha, List.pairwise_cons] at hdist
      refine h.awake.handled hp (by simp only [World.active, hp']) hd fun r' hr c hc => ?_
      apply hs' c (hw.active r' (ha ▸ List.mem_cons_of_mem _ hr) c hc).1
      exact fun he => hdist.1 r' hr c he hc
  | doPendingFunctors | endFunctors => exact fun _ => .of_nil rfl
  | @runFunctor ran rest f hp =>
      have hm : Ensures (Muted { w with phase := .functors (ran ++ [f]) rest }) (fun _ => True)
          (World.runFunctor MyServer.application
            { w with phase := .functors (ran ++ [f]) rest } f) :=
        runFunctor_muted _ f
      refine hm.mono (fun w' h' _ => .of_nil ?_) fun _ he => he
      simp only [World.active, h'.1]
  | queueInLoop thread n =>
      intro hd
      exact ⟨h.awake.distinct, h.awake.opened, fun hd' => h.awake.connected (hd.symm.trans hd')⟩
  | @destroy c hl ho =>
      intro hd
      constructor
      case distinct => exact h.awake.distinct
      case opened =>
          intro r hr d hd
          rw [destroy_state_]
          exact h.awake.opened r hr d hd
      case connected =>
          intro hd' r hr d hd
          rw [destroy_state_]
          exact h.awake.connected hd' r hr d hd

/-- No connection in `kConnecting` gets a message. -/
theorem World.Refusing.silent_deliveries (h : w.Refusing) (hs : (w.conns c).state_ = .kConnecting) :
    w.deliveries a c = [] := by
  by_contra hd
  obtain ⟨⟨revents, hr⟩, -⟩ := deliveries_active hd
  have ho := h.awake.opened _ hr c rfl
  rw [hs] at ho
  exact absurd ho (by decide)

/-- What a step does to the refused connections and to their messages. -/
theorem refusing_step (h : w.Refusing) (hs : World.Step MyServer.application w a t) :
    Ensures (fun w' => w'.Refusing ∧ w.admission.Later w'.admission) (fun _ => True) t := by
  have hok := ok_step h.ok hs
  have hmoves := step_moves h.ok h.noOutputCallbacks hs
  have hawake := awake_step h hs
  have hmsg := step_messages hs
  cases t with
  | error e => trivial
  | ok w' =>
      split at hmoves
      · cases hmoves
      · obtain ⟨hm, hn⟩ := hmoves
        obtain ⟨ho, hl⟩ := h.ordered.moves hm
        refine ⟨⟨hok, hn, ho, hawake hl.direct, fun c hc => ?_⟩, hl⟩
        have hc₀ : (w.conns c).state_ = .kConnecting := hl.connecting c hc
        rcases hmsg c with hm | ⟨-, hm⟩
        · rw [hm, h.silent c hc₀, h.silent_deliveries hc₀]
          rfl
        · exact hm

/-- No refused connection has got a message. -/
def World.Unserved (w : World MyServer) : Prop :=
  ∀ c ∈ w.user.refused, (w.conns c).messages = []

/-- The step delivers nothing to a refused connection. -/
def World.Spares (w : World MyServer) (a : ServerAction) : Prop :=
  ∀ c ∈ w.user.refused, w.deliveries a c = []

/-- The step delivers nothing to a connection whose `forceCloseInLoop` is queued. -/
def World.Timely (w : World MyServer) (a : ServerAction) : Prop :=
  ∀ c, .forceCloseInLoop c ∈ w.loop.pendingFunctors_ → w.deliveries a c = []

/-- A refused connection that is handled is still open, so its `forceCloseInLoop` is queued. -/
theorem spares_iff (h : w.Refusing) : w.Spares a ↔ w.Timely a := by
  have hmarked := h.ordered.marked
  constructor
  · intro hsp c hc
    exact hsp c (hmarked.refused c (List.mem_append_right _ hc))
  · intro ht c hc
    by_contra hd
    obtain ⟨⟨revents, hr⟩, hrest⟩ := deliveries_active hd
    have ho := h.awake.opened _ hr c rfl
    have hs : (w.conns c).state_ = .kDisconnecting := by
      rcases hmarked.down c hc with hs | hs
      · exact hs
      · rw [show (w.conns c).state_ = .kDisconnected from hs] at ho
        exact absurd ho (by decide)
    have hm := h.ordered.gate.refused c hs
    rw [show w.admission.rest = [] from hrest, List.nil_append] at hm
    exact hd (ht c hm)

/-- On the thread of the loop a refusal is carried out before the next events. -/
theorem timely_of_direct (h : w.Refusing) (hd : w.admission.direct = true) : w.Timely a := by
  intro c hc
  by_contra hne
  obtain ⟨⟨revents, hr⟩, -⟩ := deliveries_active hne
  have hs := h.awake.connected hd _ hr c rfl
  rcases h.ordered.marked.down c (h.ordered.marked.refused c (List.mem_append_right _ hc))
    with hs' | hs' <;> cases hs.symm.trans hs'

/-- After a step no refused connection has got a message exactly when none had before and the
step spares them. -/
theorem unserved_step (h : w.Refusing) (hs : World.Step MyServer.application w a (.ok w')) :
    w'.Unserved ↔ w.Unserved ∧ w.Spares a := by
  have hmsg : ∀ c, (w'.conns c).messages = (w.conns c).messages ++ w.deliveries a c ∨
      c = w.created ∧ (w'.conns c).messages = [] := step_messages hs
  obtain ⟨-, hl⟩ : w'.Refusing ∧ w.admission.Later w'.admission := refusing_step h hs
  constructor
  · intro hu
    have hc : ∀ c ∈ w.user.refused, (w.conns c).messages = [] ∧ w.deliveries a c = [] := by
      intro c hc
      rcases hmsg c with hm | ⟨rfl, -⟩
      · rw [hu c (hl.refused c hc)] at hm
        exact List.append_eq_nil_iff.mp hm.symm
      · have hborn := h.ordered.gate.unborn w.created (Nat.le_refl _)
        rcases h.ordered.marked.down _ hc with hs' | hs' <;> cases hborn.symm.trans hs'
    exact ⟨fun c hm => (hc c hm).1, fun c hm => (hc c hm).2⟩
  · rintro ⟨hu, hsp⟩ c hc
    rcases hmsg c with hm | ⟨-, hm⟩
    · rw [hm]
      rcases hl.fresh c hc with hc | hc
      · rw [hu c hc, hsp c hc]
        rfl
      · rw [h.silent c hc, h.silent_deliveries hc]
        rfl
    · exact hm

/-! ### Runs -/

theorem refusing_init (K : Int) (threadId_ me : ThreadId) (wakeupFd acceptFd : Fd)
    (hostport : IpPort) (name : List Char) :
    (World.init threadId_ me wakeupFd acceptFd hostport name
      { kMaxConnections_ := K : MyServer }).Refusing where
  ok := ok_init ..
  noOutputCallbacks _ := ⟨rfl, rfl⟩
  ordered :=
    { gate := gate_init ..
      marked := ⟨fun _ h => (List.not_mem_nil h).elim, fun _ h => (List.not_mem_nil h).elim⟩ }
  awake := .of_nil rfl
  silent _ _ := rfl

/-- The outcome of a step, as long as it is not a fault, is what the next step finds. -/
theorem refusing_serverStep {s : Except Fault (World MyServer)}
    (h : Ensures World.Refusing (fun _ => True) s)
    (hs : ServerStep MyServer.application s a t) : Ensures World.Refusing (fun _ => True) t := by
  obtain ⟨w, rfl, hs, -⟩ := hs
  exact (refusing_step h hs).mono (fun _ h => h.1) fun _ he => he

/-- The steps that spare the refused connections are the timely ones. -/
theorem runWith_spares_iff {s : Except Fault (World MyServer)} {ls : List ServerAction}
    (h : Ensures World.Refusing (fun _ => True) s) :
    RunWith (ServerStep MyServer.application) (fun s a _ => ∀ w, s = .ok w → w.Spares a) s ls t ↔
      RunWith (ServerStep MyServer.application) (fun s a _ => ∀ w, s = .ok w → w.Timely a)
        s ls t := by
  refine runWith_iff (I := Ensures World.Refusing fun _ => True)
    (fun s a t h hs _ => refusing_serverStep h hs) ?_ h
  rintro s a t h ⟨w, rfl, -, -⟩
  have h : w.Refusing := h
  exact forall_congr' fun w' => ⟨fun hq he => by cases he; exact (spares_iff h).mp (hq rfl),
    fun hq he => by cases he; exact (spares_iff h).mpr (hq rfl)⟩

/-- No refused connection has a message after a run exactly when every step spared them. -/
theorem unserved_iff_runWith {s : Except Fault (World MyServer)} {ls : List ServerAction}
    (h : Ensures World.Refusing (fun _ => True) s)
    (hu : Ensures World.Unserved (fun _ => True) s)
    (run : Run (ServerStep MyServer.application) s ls (.ok w)) :
    w.Unserved ↔ RunWith (ServerStep MyServer.application)
      (fun s a _ => ∀ w, s = .ok w → w.Spares a) s ls (.ok w) :=
  serverRun_iff (fun _ _ _ h hs => (refusing_step h hs).mono (fun _ h => h.1) fun _ he => he)
    (fun _ _ _ h hs => unserved_step h hs) run h hu

/-- On the thread of the loop every step is timely. -/
theorem runWith_timely_of_direct {s : Except Fault (World MyServer)} {ls : List ServerAction}
    (h : Ensures (fun w => w.Refusing ∧ w.admission.direct = true) (fun _ => True) s)
    (run : Run (ServerStep MyServer.application) s ls t) :
    RunWith (ServerStep MyServer.application) (fun s a _ => ∀ w, s = .ok w → w.Timely a)
      s ls t := by
  refine run.runWith_of_not (D := fun _ => False)
    (I := Ensures (fun w => w.Refusing ∧ w.admission.direct = true) fun _ => True) ?_
    (fun _ _ _ _ _ hd => hd) ?_ h fun hd => hd
  · rintro s a t h ⟨w, rfl, hs, -⟩
    exact (refusing_step h.1 hs).mono (fun _ hl => ⟨hl.1, hl.2.direct.trans h.2⟩) fun _ he => he
  · rintro s a t h ⟨w, rfl, -, -⟩ hq
    refine hq fun w' he => ?_
    cases he
    exact timely_of_direct h.1 h.2

/-- **Refused connections are not served** in a run exactly when none of its steps delivers data
to a connection whose `forceCloseInLoop` is queued; and where `loopthread` runs on the thread of
the loop no step does. -/
theorem refusedUnserved_iff (K : Int) {threadId_ me : ThreadId} {wakeupFd acceptFd : Fd}
    {hostport : IpPort} {name : List Char} {ls : List ServerAction}
    {s t : Except Fault (World MyServer)}
    (hs : s = .ok (World.init threadId_ me wakeupFd acceptFd hostport name
      { kMaxConnections_ := K }))
    (run : Run (ServerStep MyServer.application) s ls t) :
    (RunWith (ServerStep MyServer.application) (fun s a _ => ∀ w, s = .ok w → w.Spares a) s ls t ↔
      RunWith (ServerStep MyServer.application) (fun s a _ => ∀ w, s = .ok w → w.Timely a)
        s ls t) ∧
    (∀ w, t = .ok w → (w.Unserved ↔
      RunWith (ServerStep MyServer.application) (fun s a _ => ∀ w, s = .ok w → w.Timely a)
        s ls t)) ∧
    (threadId_ = me →
      RunWith (ServerStep MyServer.application) (fun s a _ => ∀ w, s = .ok w → w.Timely a)
        s ls t) := by
  have h₀ := refusing_init K threadId_ me wakeupFd acceptFd hostport name
  have h : Ensures World.Refusing (fun _ => True) s := hs ▸ h₀
  refine ⟨runWith_spares_iff h, ?_, fun hd => runWith_timely_of_direct ?_ run⟩
  · rintro w rfl
    rw [← runWith_spares_iff h]
    exact unserved_iff_runWith h (hs ▸ fun c hc => nomatch hc) run
  · rw [hs]
    exact ⟨h₀, decide_eq_true hd⟩

/-- A server for one connection refuses the second, and the loop gets to close it before it has
sent anything. -/
theorem refusedUnserved_iff_example : ∃ w : World MyServer, w.user.refused = [1] ∧
    RunWith (ServerStep MyServer.application) (fun s a _ => ∀ w, s = .ok w → w.Timely a)
      (.ok (World.init 1 2 3 4 ⟨[], by decide⟩ [] { kMaxConnections_ := 1 }))
      [.poll [(4, EPOLLIN)], .handleEvent (some (7, [])) none, .doPendingFunctors, .runFunctor,
        .endFunctors, .poll [(4, EPOLLIN)], .handleEvent (some (8, [])) none, .doPendingFunctors,
        .runFunctor, .endFunctors, .poll [], .doPendingFunctors, .runFunctor, .runFunctor]
      (.ok w) := by
  obtain ⟨w, run, hr, hu⟩ := World.exists_run_ok MyServer.application
    (fun w => w.user.refused = [1] ∧ (w.conns 1).messages = [])
    (.ok (World.init 1 2 3 4 ⟨[], by decide⟩ [] { kMaxConnections_ := 1 }))
    [.poll [(4, EPOLLIN)], .handleEvent (some (7, [])) none, .doPendingFunctors, .runFunctor,
      .endFunctors, .poll [(4, EPOLLIN)], .handleEvent (some (8, [])) none, .doPendingFunctors,
      .runFunctor, .endFunctors, .poll [], .doPendingFunctors, .runFunctor, .runFunctor]
    (by decide +kernel)
  refine ⟨w, hr, ((refusedUnserved_iff 1 rfl run).2.1 w rfl).mp fun c hc => ?_⟩
  rw [hr, List.mem_singleton] at hc
  rwa [hc]

/-- The second connection is refused, and what it sends is answered in the next round. -/
theorem not_refusedUnserved : ∃ w : World MyServer,
    Run (ServerStep MyServer.application)
      (.ok (World.init 1 2 3 4 ⟨[], by decide⟩ [] { kMaxConnections_ := 1 }))
      [.poll [(4, EPOLLIN)], .handleEvent (some (7, [])) none, .doPendingFunctors, .runFunctor,
        .endFunctors, .poll [(4, EPOLLIN)], .handleEvent (some (8, [])) none, .doPendingFunctors,
        .runFunctor, .endFunctors, .poll [(8, EPOLLIN)], .handleEvent none (some [104])]
      (.ok w) ∧ w.user.refused = [1] ∧ (w.conns 1).messages = [[104]] :=
  World.exists_run_ok MyServer.application
    (fun w => w.user.refused = [1] ∧ (w.conns 1).messages = [[104]]) _ _ (by decide +kernel)

end NetworkStructure
