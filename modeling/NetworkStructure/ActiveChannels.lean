import NetworkStructure.LifeCycle
import NetworkStructure.Messages

/-! # The active channels

The channels that `epoll_wait` reports are handled one after another, and in between the
application may make any call on any connection.  A connection whose channel is still to be handled
is nevertheless open: `forceClose` only queues a functor, so that nothing but the handler of the
connection itself could have closed it, and the kernel reports a descriptor once. -/

namespace NetworkStructure

variable {υ : Type} {app : Application υ} {w w' : World υ} {c d : ConnId} {stage : ConnId → Stage}
  {s : Stage}

/-- The connections among the active channels are different ones; they have been reported up, and
not down. -/
structure World.Alert (w : World υ) : Prop where
  distinct : w.active.Pairwise fun r r' => ∀ c, r.1 = .conn c → r'.1 ≠ .conn c
  up : ∀ r ∈ w.active, ∀ c, r.1 = .conn c → (w.conns c).notices = [.connectionCallback true]

namespace World.Alert

theorem of_nil (h : w.active = []) : w.Alert := by
  constructor <;> simp [h]

/-- What does not touch the active channels, nor what was reported. -/
theorem congr (h : w.Alert) (hp : w'.phase = w.phase)
    (hn : ∀ c, (w'.conns c).notices = (w.conns c).notices) : w'.Alert := by
  have ha : w'.active = w.active := by simp only [World.active, hp]
  constructor
  case distinct => rw [ha]; exact h.distinct
  case up =>
      intro r hr c hc
      rw [hn c]
      exact h.up r (ha ▸ hr) c hc

/-- The channels after the head, when the head has been handled. -/
theorem tail (h : w.Alert) {r : ChannelRef × Mask} {rest : List (ChannelRef × Mask)}
    (ha : w.active = r :: rest) (ha' : w'.active = rest)
    (hn : ∀ r' ∈ rest, ∀ c, r'.1 = .conn c → r.1 ≠ .conn c →
      (w'.conns c).notices = (w.conns c).notices) : w'.Alert := by
  have hdist := h.distinct
  rw [ha, List.pairwise_cons] at hdist
  constructor
  case distinct => rw [ha']; exact hdist.2
  case up =>
      intro r' hr c hc
      rw [ha'] at hr
      rw [hn r' hr c hc fun he => hdist.1 r' hr c he hc]
      exact h.up r' (ha ▸ List.mem_cons_of_mem _ hr) c hc

end World.Alert

/-- A connection that has been reported up and not down is in the stage `opened`. -/
theorem ConnOk.opened_of_notices (h : ConnOk w c s)
    (hn : (w.conns c).notices = [.connectionCallback true]) : s = .opened := by
  have hs := h.notices.symm.trans hn
  cases s with
  | opened => rfl
  | _ => exact absurd hs (by decide)

theorem ConnOk.isOpen (h : ConnOk w c .opened) : (w.atConn c).isOpen = true := by
  have hs := h.state_
  simp only [Stage.states, List.mem_cons, List.not_mem_nil, or_false] at hs
  exact decide_eq_true hs

/-- A connection whose channel is still to be handled is live and open, and has not been reported
down. -/
theorem World.Alert.isOpen (h : w.Alert) (hw : WorldOk w stage) {revents : Mask}
    (hm : (.conn c, revents) ∈ w.active) :
    w.Live c ∧ (w.atConn c).isOpen = true ∧ .connectionCallback false ∉ (w.conns c).log := by
  have hc : c < w.created := (hw.active _ hm c rfl).1
  have hn := h.up _ hm c rfl
  have hok := hw.conn c hc
  rw [hok.opened_of_notices hn] at hok
  refine ⟨hok.live hc (by decide), hok.isOpen, fun hd => ?_⟩
  have hmem : .connectionCallback false ∈ (w.conns c).notices := List.mem_filter.mpr ⟨hd, rfl⟩
  rw [hn] at hmem
  simp at hmem

/-- The kernel reports registered connections, each of them once. -/
theorem alert_poll (h : WorldOk w stage) {report : List (Fd × Mask)}
    (hr : ValidReport w.loop.poller_.kernel report) :
    World.Alert { w with phase := .handling (w.activeChannels report) } := by
  constructor
  case up =>
      intro r hr c hc
      obtain ⟨hl, e, he⟩ := h.wiring.activeChannels hr hc
      have hok := h.conn c hl.1
      have hx := ((hok.inStep hl.2).kernel_eq he).1
      have hn := hok.notices
      rw [hok.index_] at hx
      cases hsc : stage c with
      | opened => rwa [hsc] at hn
      | _ =>
          rw [hsc] at hx
          cases hx
  case distinct =>
      show (w.activeChannels report).Pairwise _
      rw [World.activeChannels, List.pairwise_filterMap]
      refine (List.pairwise_map.mp hr.1).imp fun {r r'} hne a ha b hb c hac hbc => hne ?_
      obtain ⟨e, he, rfl⟩ := Option.map_eq_some_iff.mp ha
      obtain ⟨e', he', rfl⟩ := Option.map_eq_some_iff.mp hb
      have hs := h.kernel _ e he
      have hs' := h.kernel _ e' he'
      rw [show e.ptr = .conn c from hac] at hs
      rw [show e'.ptr = .conn c from hbc] at hs'
      exact hs.2.symm.trans hs'.2

/-- Handling an event notifies no other connection of its life cycle. -/
theorem handleEvent_notices (w : World υ) (channel : ChannelRef) (revents : Mask)
    (accepted : Option (Fd × List WriteResult)) (read : Option (List UInt8)) :
    Ensures (fun w' => w'.phase = w.phase ∧ ∀ d < w.created, channel ≠ .conn d →
        (w'.conns d).notices = (w.conns d).notices) (fun _ => True)
      (w.handleEvent app channel revents accepted read) := by
  cases channel with
  | wakeup =>
      simp only [World.handleEvent, ensures_ok]
      split <;> exact ⟨rfl, fun _ _ _ => rfl⟩
  | acceptor =>
      cases accepted with
      | none => exact ⟨rfl, fun _ _ _ => rfl⟩
      | some r =>
          simp only [World.handleEvent]
          split
          · refine (newConnection_hushed w r.1 r.2).mono (fun w' h => ?_) fun _ he => he
            refine ⟨h.phase, fun d hd _ => ?_⟩
            have hne : d ≠ w.created := Nat.ne_of_lt hd
            rw [h.notices hne, insertConnection_conns_ne hne]
          · exact ⟨rfl, fun _ _ _ => rfl⟩
  | conn c =>
      simp only [World.handleEvent, World.handleConn]
      split
      · split
        · exact ⟨rfl, fun _ _ _ => rfl⟩
        · trivial
      · refine (handleEventWithGuard_histories w c revents read).mono ?_ fun _ he => he
        rintro w' ⟨w₁, h₁, -, -, h₂⟩
        refine ⟨h₂.phase.trans h₁.phase, fun d _ hd => ?_⟩
        have hdc : d ≠ c := fun he => hd (congrArg ChannelRef.conn he.symm)
        have hdeliver : ((w₁.deliver c (World.delivered revents read)).conns d).notices =
            (w₁.conns d).notices := by
          rw [TcpConnection.notices, deliver_log, if_neg hdc, List.append_nil]
          rfl
        rw [h₂.notices hdc, hdeliver, h₁.notices hdc]

/-- Every step leaves the active channels to connections that have not been reported down. -/
theorem alert_step {a : ServerAction} {t : Except Fault (World υ)} (hok : w.Ok) (h : w.Alert)
    (hs : World.Step app w a t) : Ensures World.Alert (fun _ => True) t := by
  obtain ⟨stage, hw, -⟩ := hok
  cases hs with
  | poll hp hr => exact alert_poll hw hr
  | @handleEvent channel revents rest accepted read hp _ =>
      have ha : w.active = (channel, revents) :: rest := by simp only [World.active, hp]
      refine (handleEvent_notices _ channel revents accepted read).mono ?_ fun _ he => he
      rintro w' ⟨hp', hn⟩
      refine h.tail ha (by simp only [World.active, hp']) fun r' hr c hc hne => ?_
      exact hn c (hw.active r' (ha ▸ List.mem_cons_of_mem _ hr) c hc).1 hne
  | doPendingFunctors | endFunctors => exact .of_nil rfl
  | @runFunctor ran rest f hp =>
      have hm : Ensures (Muted { w with phase := .functors (ran ++ [f]) rest }) (fun _ => True)
          (World.runFunctor app { w with phase := .functors (ran ++ [f]) rest } f) :=
        runFunctor_muted _ f
      refine hm.mono (fun w' h' => .of_nil ?_) fun _ he => he
      simp only [World.active, h'.1]
  | queueInLoop thread n => exact h.congr rfl fun _ => rfl
  | @destroy c hl ho =>
      refine h.congr rfl fun d => ?_
      by_cases hdc : d = c
      · subst hdc
        rw [destroy_conns_self]
        rfl
      · rw [destroy_conns_ne hdc]

end NetworkStructure
