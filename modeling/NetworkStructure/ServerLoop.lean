import NetworkStructure.Handlers
import NetworkStructure.Idle
import NetworkStructure.LoopOrder
import NetworkStructure.LoopWakeup
import NetworkStructure.Simulation

/-! # The server on its loop

`LoopThreads` says what threads do with an event loop, one atomic action at a time, and does not
say what the handlers and functors are.  `World` says what the handlers and functors of a server
do, one whole handler or functor at a time.  Here every run of the server is a run of the loop
(`serverLoop`): what a handler does with the loop is to queue functors, by calls that
`LoopThreads` has.  So what was proved of the loop holds of the server: its functors run in the
order in which they were queued, and the loop does not sleep while one is pending.

The loop's thread calls the loop from handlers and functors only, and the kernel reports the
eventfd only while it is readable (`World.Polite`). -/

namespace NetworkStructure

/-! ### What the handlers and functors do with the loop -/

section World

variable {υ : Type} {app : Application υ} {w w' w'' : World υ} {c : ConnId}

/-- All that happened to the loop, its poller apart, is that the loop's thread queued functors. -/
structure World.Enqueues (w w' : World υ) : Prop where
  me : w'.me = w.me
  phase : w'.phase = w.phase
  loop : w.loop.Queued w.me w'.loop

namespace World.Enqueues

theorem refl : w.Enqueues w := ⟨rfl, rfl, [], rfl⟩

/-- What does not touch the loop. -/
theorem congr (h : w.Enqueues w') (hm : w''.me = w'.me) (hp : w''.phase = w'.phase)
    (hl : w''.loop.bare = w'.loop.bare) : w.Enqueues w'' :=
  ⟨hm.trans h.me, hp.trans h.phase, h.loop.of_bare hl⟩

theorem queueInLoop (h : w.Enqueues w') (f : PendingFunctor) : w.Enqueues (w'.queueInLoop f) := by
  refine ⟨h.me, h.phase, ?_⟩
  show w.loop.Queued w.me (w'.loop.queueInLoop w'.me f)
  rw [h.me]
  exact h.loop.queueInLoop f

theorem onConn (h : w.Enqueues w') {f : LoopConn → LoopConn}
    (hf : (w'.atConn c).Acts (f (w'.atConn c))) : w.Enqueues (w'.onConn c f) := by
  obtain ⟨fs, hfs⟩ := h.loop
  obtain ⟨gs, hgs⟩ := hf.loop
  have hgs' : (f (w'.atConn c)).loop.bare = w'.loop.bare.queueAll w'.me gs := hgs
  refine ⟨h.me, h.phase, fs ++ gs, ?_⟩
  show (f (w'.atConn c)).loop.bare = _
  rw [hgs', hfs, h.me, EventLoop.queueAll_append]

theorem kept (w : World υ) : World.Kept w.Enqueues where
  user _ h := h.congr rfl rfl rfl
  member a h _ := h.onConn (LoopConn.Acts.refl.member a)
  handleWrite h _ := h.onConn LoopConn.Acts.refl.handleWrite
  close h _ := h.onConn LoopConn.Acts.refl.close
  record h _ _ := h.onConn (LoopConn.Acts.refl.record _)
  establish h _ _ := h.onConn LoopConn.Acts.refl.establish
  queueInLoop h _ := h.queueInLoop _
  erase _ h := h.congr rfl rfl rfl

theorem connectDestroyed (h : w.Enqueues w') (hk : w'.knows c = true) :
    Ensures w.Enqueues (fun _ => True) (w'.connectDestroyed app c) := by
  unfold World.connectDestroyed
  refine Ensures.bind (P := w.Enqueues) ?_ fun w₁ h₁ =>
    h₁.onConn (LoopConn.Acts.refl.channelRemove.record _)
  split
  · exact (kept w).connectionCallback (h.onConn LoopConn.Acts.refl.disconnect)
      (World.knows_onConn hk LoopConn.Acts.refl.disconnect)
  · exact h

end World.Enqueues

/-- Every handler but that of the eventfd only queues functors. -/
theorem World.Ok.handleEvent_enqueues (h : w.Ok) {channel : ChannelRef} {revents : Mask}
    {rest : List (ChannelRef × Mask)} (hp : w.phase = .handling ((channel, revents) :: rest))
    (hc : channel ≠ .wakeup) (accepted : Option (Fd × List WriteResult))
    (read : Option (List UInt8)) :
    Ensures (World.Enqueues { w with phase := .handling rest }) (fun _ => True)
      ({ w with phase := .handling rest }.handleEvent app channel revents accepted read) := by
  refine (World.Enqueues.kept _).handleEvent .refl hc (fun c he => ?_) (fun a _ => ?_) revents read
  · exact h.knows_of_active (r := (channel, revents)) (by simp [World.active, hp]) he
  · exact World.Enqueues.refl.congr rfl rfl rfl

theorem World.Ok.runFunctor_enqueues (h : w.Ok) {ran rest : List PendingFunctor}
    {f : PendingFunctor} (hp : w.phase = .functors ran (f :: rest)) :
    Ensures (World.Enqueues { w with phase := .functors (ran ++ [f]) rest }) (fun _ => True)
      ({ w with phase := .functors (ran ++ [f]) rest }.runFunctor app f) := by
  have hm : f ∈ w.queue := by simp [World.queue, World.rest, hp]
  refine (World.Enqueues.kept _).runFunctor .refl ?_ ?_ ?_ ?_ <;> rintro c rfl
  · exact h.live_of_connectEstablished hm
  · exact World.Enqueues.refl.onConn LoopConn.Acts.refl.shutdownInLoop
  · by_cases ho : (w.atConn c).isOpen = true
    · exact (World.Enqueues.kept _).handleClose .refl (h.knows_of_isOpen hm ho)
    · rw [World.handleClose_eq_self (by exact ho)]
      exact .refl
  · exact World.Enqueues.refl.connectDestroyed (h.knows_of_connectDestroyed hm).1
end World

/-! ### What the loop can follow -/

/-- A thread decides whether the wakeup is needed. -/
def LoopAction.testsWakeup {φ : Type} : LoopAction φ → Bool
  | .testWakeup _ => true
  | _ => false

namespace LoopThreads

variable {ι φ : Type} {s : LoopThreads ι φ} {loopTid me : ThreadId} {l : EventLoop ι φ}
  {pc : LoopPc φ} {ran : List φ} {p : Prop}

/-- No thread is inside a call. -/
structure Rests (s : LoopThreads ι φ) (loopTid : ThreadId) (l : EventLoop ι φ) (pc : LoopPc φ)
    (ran : List φ) : Prop where
  loopTid : s.loopTid = loopTid
  loop : s.loop = l
  pc : s.pc = pc
  calls : ∀ thread, s.calls thread = .idle
  executed : s.executed = ran

/-- A step that, under the assumption `p`, is no wrong decision against the wakeup. -/
def SafeStep (p : Prop) (s : LoopThreads ι φ) (a : LoopAction φ) (t : LoopThreads ι φ) : Prop :=
  LoopStep s a t ∧ (p → Wakes s a t)

theorem SafeStep.of_not_tests {t : LoopThreads ι φ} {a : LoopAction φ} (hs : LoopStep s a t)
    (ha : a.testsWakeup = false) : SafeStep p s a t := by
  refine ⟨hs, fun _ me he => ?_⟩
  rw [he] at ha
  cases ha

theorem Rests.loopFree (h : s.Rests loopTid l pc ran) : s.loopFree = true :=
  decide_eq_true (h.calls _)

theorem Rests.mayCall (h : s.Rests loopTid l pc ran)
    (hme : me ≠ loopTid ∨ pc.inCallback = true) : s.mayCall me = true := by
  rw [LoopThreads.mayCall, h.calls, h.loopTid, h.pc]
  simpa using hme

/-- A call of `queueInLoop`, where the decision against the wakeup would be right. -/
theorem Rests.queueInLoop (h : s.Rests loopTid l pc ran)
    (hme : me ≠ loopTid ∨ pc.inCallback = true)
    (hw : p → (∃ b, pc = .handling b) ∨ l.mustWakeup me = true) (f : φ) :
    Reaches (SafeStep p) s (·.Rests loopTid (l.queueInLoop me f) pc ran) := by
  have hpush : LoopStep s (.queueInLoop me f) (s.pushFunctor me f) := if_pos (h.mayCall hme)
  have hloop : (s.pushFunctor me f).loop = l.push f := by
    rw [← h.loop]
    rfl
  have htest : LoopStep (s.pushFunctor me f) (.testWakeup me) ((s.pushFunctor me f).setCall me
      (if (l.push f).mustWakeup me then .waking true else .idle)) := by
    rw [← hloop]
    exact if_pos (by simp [pushFunctor, setCall])
  refine .cons (.of_not_tests hpush rfl) (.cons ⟨htest, fun hp me' he hno => ?_⟩ ?_)
  · cases he
    rcases hw hp with ⟨b, hb⟩ | hm
    · left
      have hpc : (s.pushFunctor me f).pc = .handling b := h.pc.trans hb
      simp [NextPolls, hpc]
    · rw [hloop] at hno
      exact absurd hm (Bool.eq_false_iff.mp hno)
  · have hq : l.queueInLoop me f = if (l.push f).mustWakeup me then (l.push f).wakeup
      else l.push f := rfl
    have hothers : ∀ q thread, Function.update (Function.update (Function.update s.calls me
        .pushed) me q) me .idle thread = .idle := by
      intro q thread
      by_cases he : thread = me
      · simp [he]
      · simp [he, h.calls]
    cases hm : (l.push f).mustWakeup me with
    | true =>
        rw [if_pos rfl]
        refine .cons (y := { ((s.pushFunctor me f).setCall me (.waking true)).setCall me .idle with
          loop := (s.pushFunctor me f).loop.wakeup })
          (.of_not_tests (a := .wakeup me) ?_ rfl) (.refl ?_)
        · simp [LoopStep, act, setCall]
        · exact ⟨h.loopTid, by rw [hloop, hq, if_pos hm], h.pc, hothers _, h.executed⟩
    | false =>
        rw [if_neg Bool.false_ne_true]
        refine .refl ⟨h.loopTid, ?_, h.pc, fun thread => ?_, h.executed⟩
        · rw [hq, if_neg (Bool.eq_false_iff.mp hm)]
          exact hloop
        · have := hothers .idle thread
          rwa [Function.update_idem] at this

/-- The loop's thread, inside a handler or a functor, queues functors. -/
theorem Rests.queueAll (h : s.Rests loopTid l pc ran) (hpc : pc.inCallback = true)
    (hw : p → (∃ b, pc = .handling b) ∨ l.mustWakeup loopTid = true) (fs : List φ) :
    Reaches (SafeStep p) s (·.Rests loopTid (l.queueAll loopTid fs) pc ran) := by
  induction fs generalizing s l with
  | nil => exact .refl h
  | cons f fs ih =>
      refine (h.queueInLoop (.inr hpc) hw f).bind fun t ht => ih ht ?_
      simpa using hw

theorem Rests.queued (h : s.Rests loopTid l.bare pc ran) (hpc : pc.inCallback = true)
    (hw : p → (∃ b, pc = .handling b) ∨ l.mustWakeup loopTid = true) {m : EventLoop ι φ}
    (hm : l.Queued loopTid m) :
    Reaches (SafeStep p) s (·.Rests loopTid m.bare pc ran) := by
  obtain ⟨fs, hfs⟩ := hm
  rw [hfs]
  exact h.queueAll hpc hw fs

end LoopThreads

/-! ### The phases of the loop -/

namespace Phase

/-- The handler will read the eventfd. -/
def wakes (r : ChannelRef × Mask) : Bool := decide (r.1 = .wakeup) && World.readable r.2

/-- Where the loop stands. -/
def pc : Phase → LoopPc PendingFunctor
  | .polling => .polling
  | .handling activeChannels_ => .handling (activeChannels_.any wakes)
  | .functors _ rest => .functors rest

/-- The functors of the batch that have run. -/
def ran : Phase → List PendingFunctor
  | .functors ran _ => ran
  | .polling | .handling _ => []

end Phase

section World

variable {υ : Type} {app : Application υ} {w w' : World υ} {a : ServerAction}
  {t : Except Fault (World υ)} {x : LoopThreads ChannelRef PendingFunctor} {k : ThreadId}
  {p : Prop}

namespace World

/-- The state of the loop that a state of the server shows. -/
structure Shows (w : World υ) (x : LoopThreads ChannelRef PendingFunctor) : Prop where
  rests : x.Rests w.me w.loop.bare w.phase.pc x.executed
  ran : w.phase.ran <:+ x.executed

/-- The kernel reports the eventfd only while it is readable, and the loop's thread calls the loop
from its handlers and functors only. -/
def Polite (w : World υ) : ServerAction → Prop
  | .poll report => ∀ r ∈ report, r.1 = w.wakeupFd → readable r.2 = true → w.loop.wakeupFd_ ≠ 0
  | .queueInLoop thread _ => thread ≠ w.me
  | _ => True

/-- What the loop of a server that runs is like. -/
structure Looping (k : ThreadId) (w : World υ) : Prop where
  threadId_ : w.loop.threadId_ = k
  quit_ : w.loop.quit_ = false
  calling : ∀ ran rest, w.phase = .functors ran rest → w.loop.callingPendingFunctors_ = true
  /-- The eventfd is reported once. -/
  wakeup : w.active.Pairwise fun r r' => ¬ (r.1 = .wakeup ∧ r'.1 = .wakeup)

end World

/-- The call is not made by the thread `k`. -/
def ServerAction.NotBy (k : ThreadId) (a : ServerAction) : Prop :=
  ∀ thread n, a = .queueInLoop thread n → thread ≠ k

theorem World.Looping.queues (h : w.Looping k) (hq : w.Enqueues w') : w'.Looping k where
  threadId_ := (hq.loop.eq (·.threadId_) (fun _ => rfl)
    fun l f => l.queueInLoop_threadId_ _ f).trans h.threadId_
  quit_ := (hq.loop.eq (·.quit_) (fun _ => rfl) fun _ => EventLoop.queueInLoop_quit_).trans h.quit_
  calling ran rest hp := by
    rw [hq.phase] at hp
    exact (hq.loop.eq (·.callingPendingFunctors_) (fun _ => rfl)
      fun _ => EventLoop.queueInLoop_callingPendingFunctors_).trans (h.calling ran rest hp)
  wakeup := by
    have ha : w'.active = w.active := by simp only [World.active, hq.phase]
    rw [ha]
    exact h.wakeup

/-- The eventfd is at most once among the active channels. -/
theorem World.Ok.wakeup_once (h : w.Ok) {report : List (Fd × Mask)}
    (hr : ValidReport w.loop.poller_.kernel report) :
    (w.activeChannels report).Pairwise fun r r' => ¬ (r.1 = .wakeup ∧ r'.1 = .wakeup) := by
  obtain ⟨stage, hw, -⟩ := h
  rw [World.activeChannels, List.pairwise_filterMap]
  refine (List.pairwise_map.mp hr.1).imp fun {r r'} hne a ha b hb hab => hne ?_
  obtain ⟨e, he, rfl⟩ := Option.map_eq_some_iff.mp ha
  obtain ⟨e', he', rfl⟩ := Option.map_eq_some_iff.mp hb
  have hs := hw.kernel _ e he
  have hs' := hw.kernel _ e' he'
  rw [show e.ptr = .wakeup from hab.1] at hs
  rw [show e'.ptr = .wakeup from hab.2] at hs'
  exact hs.trans hs'.symm

theorem World.Looping.step (h : w.Looping k) (hok : w.Ok) (hs : World.Step app w a t) :
    Ensures (World.Looping k) (fun _ => True) t := by
  cases hs with
  | poll hp hr => exact ⟨h.threadId_, h.quit_, fun _ _ he => (by cases he), hok.wakeup_once hr⟩
  | @handleEvent channel revents rest accepted read hp ha =>
      have hw := h.wakeup
      simp only [World.active, hp, List.pairwise_cons] at hw
      have h₀ : World.Looping k { w with phase := .handling rest } :=
        ⟨h.threadId_, h.quit_, fun _ _ he => (by cases he), hw.2⟩
      by_cases hc : channel = .wakeup
      · subst hc
        simp only [World.handleEvent, ensures_ok]
        split
        · exact ⟨h.threadId_, h.quit_, fun _ _ he => (by cases he), hw.2⟩
        · exact h₀
      · exact (hok.handleEvent_enqueues hp hc accepted read).mono
          (fun _ hq => h₀.queues hq) fun _ _ => trivial
  | doPendingFunctors hp => exact ⟨h.threadId_, h.quit_, fun _ _ _ => rfl, .nil⟩
  | @runFunctor ran rest f hp =>
      have h₀ : World.Looping k { w with phase := .functors (ran ++ [f]) rest } :=
        ⟨h.threadId_, h.quit_, fun _ _ _ => h.calling _ _ hp, .nil⟩
      exact (hok.runFunctor_enqueues hp).mono (fun _ hq => h₀.queues hq) fun _ _ => trivial
  | endFunctors hp => exact ⟨h.threadId_, h.quit_, fun _ _ he => (by cases he), .nil⟩
  | queueInLoop thread n =>
      refine ⟨?_, ?_, fun ran rest hp => ?_, h.wakeup⟩
      · exact (w.loop.queueInLoop_threadId_ ..).trans h.threadId_
      · exact EventLoop.queueInLoop_quit_ _ |>.trans h.quit_
      · exact EventLoop.queueInLoop_callingPendingFunctors_ _ |>.trans (h.calling ran rest hp)
  | destroy => exact ⟨h.threadId_, h.quit_, h.calling, h.wakeup⟩

/-! ### The loop follows the server -/

/-- A handler or functor of the server, of which the loop sees the functors that it queues. -/
theorem World.Enqueues.follow {r : Except Fault (World υ)} {pc : LoopPc PendingFunctor}
    {ran : List PendingFunctor} (hr : Ensures w.Enqueues (fun _ => True) r)
    (hx : x.Rests w.me w.loop.bare pc ran) (hpc : pc.inCallback = true)
    (hw : p → (∃ b, pc = .handling b) ∨ w.loop.mustWakeup w.me = true) :
    Reaches (LoopThreads.SafeStep p) x fun y => Ensures (fun w' => w'.phase = w.phase ∧
      y.Rests w'.me w'.loop.bare pc ran) (fun _ => True) r := by
  cases r with
  | error e => exact .refl trivial
  | ok w' =>
      refine (hx.queued hpc hw hr.loop).bind fun y hy => .refl ⟨hr.phase, ?_⟩
      rwa [hr.me]

/-- The eventfd is among the active channels only while it is readable. -/
theorem World.Ok.wakeupFd_ (h : w.Ok) {report : List (Fd × Mask)} (hpol : w.Polite (.poll report))
    (hany : (w.activeChannels report).any Phase.wakes = true) : w.loop.wakeupFd_ ≠ 0 := by
  obtain ⟨stage, hw, -⟩ := h
  obtain ⟨r, hr, hwk⟩ := List.any_eq_true.mp hany
  obtain ⟨q, hq, hactive⟩ := List.mem_filterMap.mp hr
  obtain ⟨e, he, rfl⟩ := Option.map_eq_some_iff.mp hactive
  simp only [Phase.wakes, Bool.and_eq_true, decide_eq_true_eq] at hwk
  have hs := hw.kernel _ e he
  rw [hwk.1] at hs
  exact hpol q hq hs hwk.2

/-- Where the loop stands as in `w`, it shows `w`. -/
theorem LoopThreads.Rests.shows {ran : List PendingFunctor}
    (h : x.Rests w.me w.loop.bare w.phase.pc ran) (hran : w.phase.ran <:+ ran) :
    w.Shows x ∧ x.executed = ran := by
  obtain rfl := h.executed
  exact ⟨⟨h, hran⟩, rfl⟩

/-- By safe steps of its own, in which it starts the functors `fs`, the loop comes to show `t`. -/
def LoopThreads.Follows (p : Prop) (x : LoopThreads ChannelRef PendingFunctor)
    (fs : List PendingFunctor) (t : Except Fault (World υ)) : Prop :=
  Reaches (LoopThreads.SafeStep p) x fun y =>
    Ensures (fun w => w.Shows y ∧ y.executed = x.executed ++ fs) (fun _ => True) t

namespace World.Shows

variable {ran rest : List PendingFunctor} {f : PendingFunctor}

theorem pc (hx : w.Shows x) {q : Phase} (hp : w.phase = q) : x.pc = q.pc :=
  hp ▸ hx.rests.pc

/-- What the server does not need the loop for. -/
theorem stays (hx : w.Shows x) (hm : w'.me = w.me) (hl : w'.loop.bare = w.loop.bare)
    (hpc : w'.phase.pc = w.phase.pc) (hran : w'.phase.ran <:+ x.executed) :
    x.Follows p [] (.ok w') := by
  refine .refl (LoopThreads.Rests.shows ?_ ?_)
  · rw [hm, hl, hpc, List.append_nil]
    exact hx.rests
  · rwa [List.append_nil]

theorem poll (hx : w.Shows x) (hok : w.Ok) (hp : w.phase = .polling) {report : List (Fd × Mask)}
    (hpol : w.Polite (.poll report)) :
    x.Follows p [] (.ok { w with phase := .handling (w.activeChannels report) }) := by
  refine .cons (a := .pollReturns ((w.activeChannels report).any Phase.wakes))
    (y := { x with pc := .handling ((w.activeChannels report).any Phase.wakes) })
    (.of_not_tests ?_ rfl) (.refl (LoopThreads.Rests.shows ?_ List.nil_suffix))
  · have hread : (w.activeChannels report).any Phase.wakes = true → x.loop.wakeupFd_ ≠ 0 := by
      rw [hx.rests.loop]
      exact hok.wakeupFd_ hpol
    have hxpc : x.pc = .polling := hx.pc hp
    simp only [LoopStep, LoopThreads.act, hxpc]
    exact if_pos hread
  · rw [List.append_nil]
    exact ⟨hx.rests.loopTid, hx.rests.loop, rfl, hx.rests.calls, rfl⟩

/-- The handler of the eventfd. -/
theorem readWakeup (hx : w.Shows x) {channels : List (ChannelRef × Mask)} {revents : Mask}
    (hp : w.phase = .handling ((.wakeup, revents) :: channels))
    (honce : ∀ r ∈ channels, r.1 ≠ .wakeup) :
    x.Follows p [] (.ok (if World.readable revents then
      { w with phase := .handling channels, loop := w.loop.handleRead }
    else { w with phase := .handling channels })) := by
  have hxpc := hx.pc hp
  split
  · next hread =>
    have hpc : x.pc = .handling true := by simp [hxpc, Phase.pc, Phase.wakes, hread]
    have hrest : channels.any Phase.wakes = false := by
      rw [List.any_eq_false]
      intro r hr hwakes
      rw [Phase.wakes, Bool.and_eq_true, decide_eq_true_eq] at hwakes
      exact honce r hr hwakes.1
    refine .cons (a := .readWakeup)
      (y := { x with pc := .handling false, loop := x.loop.handleRead })
      (.of_not_tests ?_ rfl) (.refl (LoopThreads.Rests.shows ?_ List.nil_suffix))
    · simp [LoopStep, LoopThreads.act, hpc, hx.rests.loopFree]
    · refine ⟨hx.rests.loopTid, ?_, ?_, hx.rests.calls, (List.append_nil _).symm⟩
      · show x.loop.handleRead = w.loop.bare.handleRead
        rw [hx.rests.loop]
      · show LoopPc.handling false = .handling (channels.any Phase.wakes)
        rw [hrest]
  · next hread =>
    refine hx.stays rfl rfl ?_ List.nil_suffix
    rw [hp]
    simp [Phase.pc, Phase.wakes, hread]

/-- Every handler but that of the eventfd. -/
theorem handleEvent (hx : w.Shows x) (hok : w.Ok) {channels : List (ChannelRef × Mask)}
    {channel : ChannelRef} {revents : Mask}
    (hp : w.phase = .handling ((channel, revents) :: channels)) (hc : channel ≠ .wakeup)
    (accepted : Option (Fd × List WriteResult)) (read : Option (List UInt8)) :
    x.Follows p [] ({ w with phase := .handling channels }.handleEvent app channel revents
      accepted read) := by
  have hpc : (Phase.handling ((channel, revents) :: channels)).pc =
      .handling (channels.any Phase.wakes) := by simp [Phase.pc, Phase.wakes, hc]
  have hx₀ : x.Rests w.me w.loop.bare (.handling (channels.any Phase.wakes)) x.executed :=
    ⟨hx.rests.loopTid, hx.rests.loop, (hx.pc hp).trans hpc, hx.rests.calls, rfl⟩
  have hq : Ensures (World.Enqueues { w with phase := .handling channels }) (fun _ => True)
      ({ w with phase := .handling channels }.handleEvent app channel revents accepted read) :=
    hok.handleEvent_enqueues hp hc accepted read
  refine (World.Enqueues.follow hq hx₀ rfl fun _ => .inl ⟨_, rfl⟩).bind fun y hy =>
    .refl (hy.mono ?_ fun _ _ => trivial)
  rintro w' ⟨hph, hrs⟩
  refine LoopThreads.Rests.shows ?_ ?_
  · rw [hph, List.append_nil]
    exact hrs
  · rw [hph]
    exact List.nil_suffix

theorem doPendingFunctors (hx : w.Shows x) (hp : w.phase = .handling []) :
    x.Follows p [] (.ok { w with
      phase := .functors [] w.loop.pendingFunctors_
      loop := { w.loop with callingPendingFunctors_ := true, pendingFunctors_ := [] } }) := by
  have hpc : x.pc = .handling false := hx.pc hp
  refine .cons (a := .doPendingFunctors)
    (y := { x with pc := .swapping, loop := { x.loop with callingPendingFunctors_ := true } })
    (.of_not_tests ?_ rfl) ?_
  · simp [LoopStep, LoopThreads.act, hpc, hx.rests.loopFree]
  · refine .cons (a := .swap) (y := { x with
      pc := .functors x.loop.pendingFunctors_
      loop := { x.loop with callingPendingFunctors_ := true, pendingFunctors_ := [] } })
      (.of_not_tests ?_ rfl) (.refl (LoopThreads.Rests.shows
        ⟨hx.rests.loopTid, ?_, ?_, hx.rests.calls, (List.append_nil _).symm⟩ List.nil_suffix))
    · simp [LoopStep, LoopThreads.act]
    · rw [hx.rests.loop]
      rfl
    · rw [hx.rests.loop]
      rfl

theorem runFunctor (hx : w.Shows x) (hok : w.Ok) (hp : w.phase = .functors ran (f :: rest))
    (hcalling : w.loop.callingPendingFunctors_ = true) :
    x.Follows p [f] ({ w with phase := .functors (ran ++ [f]) rest }.runFunctor app f) := by
  have hpc : x.pc = .functors (f :: rest) := hx.pc hp
  have hran : ran <:+ x.executed := by
    have hr := hx.ran
    rwa [hp] at hr
  have hmust : w.loop.mustWakeup w.me = true := by
    rw [EventLoop.mustWakeup, hcalling, Bool.or_true]
  have hx₀ : LoopThreads.Rests { x with
      pc := .executing rest
      executed := x.executed ++ [f]
      executions := x.executions ++ [(x.loopTid, f)] } w.me w.loop.bare (.executing rest)
      (x.executed ++ [f]) := ⟨hx.rests.loopTid, hx.rests.loop, rfl, hx.rests.calls, rfl⟩
  have hq : Ensures (World.Enqueues { w with phase := .functors (ran ++ [f]) rest })
      (fun _ => True) ({ w with phase := .functors (ran ++ [f]) rest }.runFunctor app f) :=
    hok.runFunctor_enqueues hp
  refine .cons (a := .runFunctor) (.of_not_tests ?_ rfl)
    ((World.Enqueues.follow hq hx₀ rfl fun _ => .inr hmust).bind fun y hy => ?_)
  · simp [LoopStep, LoopThreads.act, hpc]
  · cases hr : { w with phase := .functors (ran ++ [f]) rest }.runFunctor app f with
    | error e => exact .refl trivial
    | ok w' =>
        obtain ⟨hph, hrs⟩ := hy.of_ok hr
        refine .cons (a := .functorReturns) (y := { y with pc := .functors rest })
          (.of_not_tests ?_ rfl) (.refl (LoopThreads.Rests.shows
            ⟨hrs.loopTid, hrs.loop, ?_, hrs.calls, hrs.executed⟩ ?_))
        · simp [LoopStep, LoopThreads.act, hrs.pc, hrs.loopFree]
        · rw [hph]
          rfl
        · rw [hph]
          exact (List.suffix_append_inj_of_length_eq rfl).mpr ⟨hran, rfl⟩

theorem endFunctors (hx : w.Shows x) (hquit : w.loop.quit_ = false)
    (hp : w.phase = .functors ran []) :
    x.Follows p [] (.ok { w with
      phase := .polling, loop := { w.loop with callingPendingFunctors_ := false } }) := by
  have hpc : x.pc = .functors [] := hx.pc hp
  have hquit : x.loop.quit_ = false := by
    rw [hx.rests.loop]
    exact hquit
  refine .cons (a := .endFunctors)
    (y := { x with pc := .head, loop := { x.loop with callingPendingFunctors_ := false } })
    (.of_not_tests ?_ rfl) ?_
  · simp [LoopStep, LoopThreads.act, hpc]
  · refine .cons (a := .testQuit) (y := { x with
      pc := .polling, loop := { x.loop with callingPendingFunctors_ := false } })
      (.of_not_tests ?_ rfl) (.refl (LoopThreads.Rests.shows
        ⟨hx.rests.loopTid, ?_, rfl, hx.rests.calls, (List.append_nil _).symm⟩ List.nil_suffix))
    · simp [LoopStep, LoopThreads.act, hquit]
    · rw [hx.rests.loop]
      rfl

/-- Another thread queues a functor. -/
theorem queueInLoop (hx : w.Shows x) {thread : ThreadId} (hme : thread ≠ w.me)
    (hmust : p → w.loop.mustWakeup thread = true) (n : ℕ) :
    x.Follows p [] (.ok { w with loop := w.loop.queueInLoop thread (.user n) }) := by
  refine (hx.rests.queueInLoop (.inl hme) (fun hp => .inr (hmust hp)) (.user n)).bind fun y hy =>
    .refl (LoopThreads.Rests.shows ?_ ?_)
  · show y.Rests w.me (w.loop.queueInLoop thread (.user n)).bare w.phase.pc _
    rw [EventLoop.bare_queueInLoop, List.append_nil]
    exact hy
  · rw [List.append_nil]
    exact hx.ran

end World.Shows

/-- The functor that a step of the server runs. -/
def World.runs (w : World υ) (a : ServerAction) : List PendingFunctor :=
  match a, w.phase with
  | .runFunctor, .functors _ (f :: _) => [f]
  | _, _ => []

/-- **The loop follows every step of the server.** -/
theorem World.Looping.follow (h : w.Looping k) (hok : w.Ok) (hs : World.Step app w a t)
    (hx : w.Shows x) (hpol : w.Polite a) (hk : p → a.NotBy k) : x.Follows p (w.runs a) t := by
  cases hs with
  | poll hp hr => exact hx.poll hok hp hpol
  | @handleEvent channel revents rest accepted read hp ha =>
      by_cases hc : channel = .wakeup
      · subst hc
        have honce := h.wakeup
        simp only [World.active, hp, List.pairwise_cons] at honce
        exact hx.readWakeup hp fun r hr he => honce.1 r hr ⟨trivial, he⟩
      · exact hx.handleEvent hok hp hc accepted read
  | doPendingFunctors hp => exact hx.doPendingFunctors hp
  | @runFunctor ran rest f hp =>
      have hruns : w.runs .runFunctor = [f] := by simp only [World.runs, hp]
      rw [hruns]
      exact hx.runFunctor hok hp (h.calling _ _ hp)
  | endFunctors hp => exact hx.endFunctors h.quit_ hp
  | queueInLoop thread n =>
      refine hx.queueInLoop hpol (fun hp => ?_) n
      have hne : w.loop.threadId_ ≠ thread := by
        rw [h.threadId_]
        exact (hk hp thread n rfl).symm
      simp [EventLoop.mustWakeup, EventLoop.isInLoopThread, hne]
  | destroy => exact hx.stays rfl rfl rfl hx.ran

/-! ### What is queued and what is run -/

/-- The functors that a server has queued, and those that it has run. -/
structure Journal where
  queued : List PendingFunctor := []
  ran : List PendingFunctor := []
deriving DecidableEq

/-- The functors that a step to `w'` queues: that of the call of another thread, or what a handler
or functor has put into `pendingFunctors_`, which `doPendingFunctors` empties before. -/
def World.enqueued (w w' : World υ) : ServerAction → List PendingFunctor
  | .queueInLoop _ n => [.user n]
  | .doPendingFunctors => w'.loop.pendingFunctors_
  | _ => w'.loop.pendingFunctors_.drop w.loop.pendingFunctors_.length

/-- The journal after a step. -/
def Journal.next (j : Journal) (s : Except Fault (World υ)) (a : ServerAction)
    (t : Except Fault (World υ)) : Journal :=
  match s, t with
  | .ok w, .ok w' => ⟨j.queued ++ w.enqueued w' a, j.ran ++ w.runs a⟩
  | _, _ => j

/-- A polite step of the server. -/
def PoliteStep (app : Application υ) (s : Except Fault (World υ)) (a : ServerAction)
    (t : Except Fault (World υ)) : Prop :=
  ServerStep app s a t ∧ ∀ w, s = .ok w → w.Polite a

/-- A polite step of a server that keeps a journal. -/
def JournalStep (app : Application υ) : Except Fault (World υ) × Journal → ServerAction →
    Except Fault (World υ) × Journal → Prop :=
  Recorded (PoliteStep app) Journal.next

theorem World.queue_of_append
    (ha : w.enqueued w' a = w'.loop.pendingFunctors_.drop w.loop.pendingFunctors_.length)
    {fs : List PendingFunctor} (hp : w'.loop.pendingFunctors_ = w.loop.pendingFunctors_ ++ fs)
    (hr : w.rest = w.runs a ++ w'.rest) :
    w.runs a ++ w'.rest ++ w'.loop.pendingFunctors_ =
      w.rest ++ w.loop.pendingFunctors_ ++ w.enqueued w' a := by
  have he : w.enqueued w' a = fs := by rw [ha, hp, List.drop_left]
  rw [he, hp, hr, List.append_assoc _ _ fs]

/-- **The queue of the server**: what a step runs and leaves in the queue is what was in it, and
what the step has queued. -/
theorem World.Ok.step_queue (h : w.Ok) (hs : World.Step app w a t) :
    Ensures (fun w' => w.runs a ++ w'.rest ++ w'.loop.pendingFunctors_ =
      w.rest ++ w.loop.pendingFunctors_ ++ w.enqueued w' a) (fun _ => True) t := by
  cases hs with
  | poll hp =>
      refine World.queue_of_append rfl (List.append_nil _).symm ?_
      simp [World.rest, World.runs, hp]
  | @handleEvent channel revents rest accepted read hp ha =>
      have hrest : ∀ {w' : World υ}, w'.phase = .handling rest →
          w.rest = w.runs (.handleEvent accepted read) ++ w'.rest := by
        intro w' hp'
        simp [World.rest, World.runs, hp, hp']
      by_cases hc : channel = .wakeup
      · subst hc
        simp only [World.handleEvent, ensures_ok]
        split <;> exact World.queue_of_append rfl (List.append_nil _).symm (hrest rfl)
      · refine (h.handleEvent_enqueues hp hc accepted read).mono (fun w' hq => ?_)
          fun _ _ => trivial
        obtain ⟨fs, hfs⟩ := hq.loop.pending
        exact World.queue_of_append rfl hfs (hrest hq.phase)
  | doPendingFunctors hp => simp [World.rest, World.runs, World.enqueued, hp]
  | @runFunctor ran rest f hp =>
      refine (h.runFunctor_enqueues hp).mono (fun w' hq => ?_) fun _ _ => trivial
      obtain ⟨fs, hfs⟩ := hq.loop.pending
      refine World.queue_of_append rfl hfs ?_
      have hp' : w'.phase = .functors (ran ++ [f]) rest := hq.phase
      simp [World.rest, World.runs, hp, hp']
  | endFunctors hp =>
      refine World.queue_of_append rfl (List.append_nil _).symm ?_
      simp [World.rest, World.runs, hp]
  | queueInLoop thread n =>
      have hp : (w.loop.queueInLoop thread (.user n)).pendingFunctors_ =
          w.loop.pendingFunctors_ ++ [.user n] := w.loop.queueInLoop_pendingFunctors_ ..
      show [] ++ w.rest ++ (w.loop.queueInLoop thread (.user n)).pendingFunctors_ = _
      rw [hp, List.nil_append, ← List.append_assoc]
      rfl
  | destroy => exact World.queue_of_append rfl (List.append_nil _).symm rfl

/-! ### Runs -/

/-- The steps of a server in which, under the assumption `p`, `k` queues nothing from outside. -/
def NotByStep (app : Application υ) (p : Prop) (k : ThreadId)
    (s : Except Fault (World υ) × Journal) (a : ServerAction)
    (t : Except Fault (World υ) × Journal) : Prop :=
  JournalStep app s a t ∧ (p → a.NotBy k)

/-- The loop shows the server, and the journal what the server has queued and what the loop has
run. -/
structure World.Journaled (w : World υ) (j : Journal) (k : ThreadId)
    (x : LoopThreads ChannelRef PendingFunctor) : Prop where
  ok : w.Ok
  looping : w.Looping k
  shows : w.Shows x
  executed : x.executed = j.ran
  queue : j.ran ++ w.rest ++ w.loop.pendingFunctors_ = j.queued

theorem simulates_notByStep (app : Application υ) (p : Prop) (k : ThreadId) :
    Simulates (NotByStep app p k) (LoopThreads.SafeStep p)
      (fun s x => Ensures (fun w => w.Journaled s.2 k x) (fun _ => True) s.1) := by
  rintro ⟨s, j⟩ a ⟨t, j'⟩ x hs ⟨⟨⟨⟨w, rfl, hstep, -⟩, hpol⟩, hj⟩, hk⟩
  obtain ⟨hok, hloop, hx, hexec, hqueue⟩ := hs
  refine (hloop.follow hok hstep hx (hpol w rfl) hk).bind fun y hy => .refl ?_
  have hok' := ok_step hok hstep
  have hloop' := hloop.step hok hstep
  have hqueue' := hok.step_queue hstep
  cases t with
  | error e => trivial
  | ok w' =>
      obtain ⟨hy, hyexec⟩ := hy
      obtain rfl : j' = ⟨j.queued ++ w.enqueued w' a, j.ran ++ w.runs a⟩ := hj
      refine ⟨hok', hloop', hy, ?_, ?_⟩
      · rw [hyexec, hexec]
      · have hq : w.runs a ++ w'.rest ++ w'.loop.pendingFunctors_ =
            w.rest ++ w.loop.pendingFunctors_ ++ w.enqueued w' a := hqueue'
        rw [← hqueue, List.append_assoc j.ran, List.append_assoc j.ran, hq]
        simp only [List.append_assoc]

/-- The loop before its first poll. -/
theorem reaches_shows_init (p : Prop) (threadId_ me : ThreadId) (wakeupFd acceptFd : Fd)
    (hostport : IpPort) (name : List Char) (user : υ) :
    Reaches (LoopThreads.SafeStep p) (LoopThreads.init ChannelRef PendingFunctor threadId_ me)
      fun x => (World.init threadId_ me wakeupFd acceptFd hostport name user).Shows x ∧
        x.executed = [] :=
  .cons (a := .loop) (.of_not_tests rfl rfl) (.cons (a := .start) (.of_not_tests rfl rfl)
    (.cons (a := .testQuit) (.of_not_tests rfl rfl)
      (.refl ⟨⟨⟨rfl, rfl, rfl, fun _ => rfl, rfl⟩, List.nil_suffix⟩, rfl⟩)))

theorem World.Shows.pending (h : w.Shows x) :
    x.loop.pendingFunctors_ = w.loop.pendingFunctors_ := by
  rw [h.rests.loop]
  rfl

theorem World.Shows.rest (h : w.Shows x) : x.pc.rest = w.rest := by
  rw [h.rests.pc, World.rest]
  cases w.phase <;> rfl

theorem World.Shows.noLostWakeup (h : w.Shows x) (hx : x.WakeupInv) (hp : w.phase = .polling)
    (hpend : w.loop.pendingFunctors_ ≠ []) : w.loop.wakeupFd_ ≠ 0 := by
  have hw := hx.noLostWakeup (fun thread hq => ?_) ?_ (by rwa [h.pending])
  · rw [h.rests.loop] at hw
    exact hw
  · simp [LoopThreads.InQueueInLoop, h.rests.calls] at hq
  · rw [h.rests.pc, hp]
    rfl

/-- What the journal of a run holds, and what the loop has run. -/
theorem World.run_journal {threadId_ me : ThreadId} {wakeupFd acceptFd : Fd} {hostport : IpPort}
    {name : List Char} {user : υ} {ls : List ServerAction} {j : Journal}
    (run : Run (JournalStep app)
      (.ok (World.init threadId_ me wakeupFd acceptFd hostport name user), {}) ls (.ok w, j)) :
    ∃ ms x, Run (LoopThreads.SafeStep (∀ a ∈ ls, a.NotBy threadId_))
        (LoopThreads.init ChannelRef PendingFunctor threadId_ me) ms x ∧
      w.Journaled j threadId_ x := by
  have hrun : Run (NotByStep app (∀ a ∈ ls, a.NotBy threadId_) threadId_)
      (.ok (World.init threadId_ me wakeupFd acceptFd hostport name user), {}) ls (.ok w, j) :=
    runWith_label_iff.mpr ⟨run, fun a ha hall => hall a ha⟩
  have hinit := ok_init threadId_ me wakeupFd acceptFd hostport name user
  have hloop : World.Looping threadId_
      (World.init threadId_ me wakeupFd acceptFd hostport name user) :=
    ⟨rfl, rfl, fun _ _ he => (by cases he), .nil⟩
  exact (reaches_shows_init _ threadId_ me wakeupFd acceptFd hostport name user).bind fun x hx =>
    (simulates_notByStep app _ threadId_).run hrun ⟨hinit, hloop, hx.1, hx.2, rfl⟩

/-- **The server refines its loop**: every run of the server has a journal, and is a run of the
loop's threads of which the calls queue what the server has queued and which runs the functors that
the server has run.  So the functors run in the order in which they were queued, each once; and if
the thread that constructed the loop queues nothing from outside, the loop does not poll with a
functor pending and the eventfd empty. -/
theorem serverLoop {threadId_ me : ThreadId} {wakeupFd acceptFd : Fd} {hostport : IpPort}
    {name : List Char} {user : υ} {ls : List ServerAction}
    (run : Run (PoliteStep app)
      (.ok (World.init threadId_ me wakeupFd acceptFd hostport name user)) ls (.ok w)) :
    let start := Except.ok (World.init threadId_ me wakeupFd acceptFd hostport name user)
    (∃ j, Run (JournalStep app) (start, {}) ls (.ok w, j)) ∧
    ∀ j, Run (JournalStep app) (start, {}) ls (.ok w, j) →
      ∃ ms x, Run LoopStep (LoopThreads.init ChannelRef PendingFunctor threadId_ me) ms x ∧
        w.Shows x ∧ ms.flatMap (LoopAction.queues threadId_) = j.queued ∧ x.executed = j.ran ∧
        j.ran ++ w.rest ++ w.loop.pendingFunctors_ = j.queued ∧
        ((∀ a ∈ ls, a.NotBy threadId_) → w.phase = .polling → w.loop.pendingFunctors_ ≠ [] →
          w.loop.wakeupFd_ ≠ 0) := by
  refine ⟨(run_recorded_iff ({} : Journal)).mpr run, fun j hj => ?_⟩
  obtain ⟨ms, x, hrun, -, -, hx, hexec, hqueue⟩ := World.run_journal hj
  have hloops : Run LoopStep (LoopThreads.init ChannelRef PendingFunctor threadId_ me) ms x :=
    hrun.mono fun _ _ _ hs => hs.1
  refine ⟨ms, x, hloops, hx, ?_, hexec, hqueue,
    fun hforeign hp hpend => hx.noLostWakeup ?_ hp hpend⟩
  · have hord : x.executed ++ x.pc.rest ++ x.loop.pendingFunctors_ = x.pushes :=
      Run.invariant (I := LoopThreads.Ordered)
        (fun _ _ _ hI hs => LoopThreads.ordered_move hI hs.move) hloops rfl
    have hpushes : x.pushes = ms.flatMap (LoopAction.queues threadId_) :=
      LoopThreads.pushes_run hloops
    rw [← hpushes, ← hord, hexec, hx.rest, hx.pending, hqueue]
  · have hwakes : RunWith LoopStep LoopThreads.Wakes
        (LoopThreads.init ChannelRef PendingFunctor threadId_ me) ms x :=
      hrun.mono fun _ _ _ hs => ⟨hs.1, hs.2 hforeign⟩
    exact RunWith.invariant (I := LoopThreads.WakeupInv)
      (fun _ _ _ hI hs hw => LoopThreads.wakeupInv_move hI hs.move hw) hwakes
      fun _ hpush => absurd rfl hpush

instance (a : ServerAction) : Decidable (w.Polite a) :=
  match a with
  | .poll _ => inferInstanceAs (Decidable (∀ r ∈ _, _ → _ → _))
  | .queueInLoop _ _ => inferInstanceAs (Decidable (_ ≠ _))
  | .handleEvent _ _ | .doPendingFunctors | .runFunctor | .endFunctors | .destroy _ =>
      .isTrue trivial

instance {P : World υ → Prop} {E : Fault → Prop} [DecidablePred P] [DecidablePred E] :
    DecidablePred (Ensures P E) := fun r =>
  match r with
  | .ok w => inferInstanceAs (Decidable (P w))
  | .error e => inferInstanceAs (Decidable (E e))

/-- A polite step of the server, or none, with the journal. -/
def World.politeNext (app : Application υ) (s : Except Fault (World υ) × Journal)
    (a : ServerAction) : Option (Except Fault (World υ) × Journal) :=
  match s.1 with
  | .ok w =>
      if w.Polite a then (World.replay app s.1 [a]).map fun t => (t, s.2.next s.1 a t) else none
  | .error _ => none

theorem World.journalStep_of_politeNext {s t : Except Fault (World υ) × Journal}
    (h : World.politeNext app s a = some t) : JournalStep app s a t := by
  obtain ⟨s, j⟩ := s
  cases s with
  | error e => cases h
  | ok w =>
      obtain ⟨hpol, h⟩ := Option.ite_none_right_eq_some.mp h
      obtain ⟨t', ht, rfl⟩ := Option.map_eq_some_iff.mp h
      cases World.run_of_replay app ht with
      | cons hstep hrun =>
          cases hrun
          refine ⟨⟨hstep, fun w' he => ?_⟩, rfl⟩
          cases he
          exact hpol

/-- A connection has been accepted and established, and while the loop polls another thread queues
a functor. -/
theorem serverLoop_accepted : ∃ (w : World Unit) (j : Journal) (ms : _) (x : _),
    j.ran = [.connectEstablished 0] ∧ w.loop.pendingFunctors_ = [.user 5] ∧
      Run LoopStep (LoopThreads.init ChannelRef PendingFunctor 1 2) ms x ∧ w.Shows x ∧
      ms.flatMap (LoopAction.queues 1) = [.connectEstablished 0, .user 5] ∧
      x.executed = [.connectEstablished 0] ∧ w.loop.wakeupFd_ ≠ 0 := by
  obtain ⟨⟨t, j⟩, run, ht, hqueued, hran⟩ := exists_run (World.politeNext idleApplication)
    (fun s => Ensures (fun w => w.phase.isPolling = true ∧ w.loop.pendingFunctors_ = [.user 5])
      (fun _ => False) s.1 ∧ s.2.queued = [.connectEstablished 0, .user 5] ∧
      s.2.ran = [.connectEstablished 0])
    (.ok (World.init 1 2 3 4 ⟨[], by decide⟩ [] ()), {})
    [.poll [(4, EPOLLIN)], .handleEvent (some (7, [])) none, .doPendingFunctors, .runFunctor,
      .endFunctors, .poll [(3, EPOLLIN)], .handleEvent none none, .doPendingFunctors,
      .endFunctors, .queueInLoop 6 5] (by decide +kernel)
  cases t with
  | error e => exact absurd ht id
  | ok w =>
      have hjournal := run.mono fun _ _ _ hs => World.journalStep_of_politeNext hs
      obtain ⟨ms, x, hrun, hx, hms, hexec, -, hw⟩ :=
        (serverLoop ((run_recorded_iff ({} : Journal)).mp ⟨j, hjournal⟩)).2 j hjournal
      refine ⟨w, j, ms, x, hran, ht.2, hrun, hx, hms.trans hqueued, hexec.trans hran,
        hw ?_ (Phase.eq_polling ht.1) (by simp [ht.2])⟩
      intro a ha thread n he
      subst he
      simp at ha
      simp [ha.1]

end World

end NetworkStructure
