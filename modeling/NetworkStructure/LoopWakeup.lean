import NetworkStructure.LoopThreads

/-! # Wakeups

`queueInLoop` pushes its functor and then writes the eventfd, unless it runs on the thread
`threadId_` and no functors are being called.  The write is what ends a `poll` that was
entered before the push, so that skipping it is right only when the loop is sure to swap
`pendingFunctors_` before it polls again.

`NextPolls` says that the loop polls again before it swaps.  The invariant `Armed` is that a
functor that is pending then has its wakeup in the eventfd or still to be written.  The one
action that can break it is a test that decides against the write; `Wakes` is the condition
that it does not.  The condition is exact (`noLostWakeup_iff`): where it fails, the loop alone
goes on to block in `poll` with the functor pending and nothing to wake it. -/

namespace NetworkStructure

namespace LoopThreads

variable {ι φ : Type}

/-- The thread is inside `queueInLoop`, past the push. -/
def InQueueInLoop (s : LoopThreads ι φ) (me : ThreadId) : Prop :=
  s.calls me = .pushed ∨ s.calls me = .waking true

/-- A pending functor wakes up a loop that is blocked in `poll`. -/
def NoLostWakeup (s : LoopThreads ι φ) : Prop :=
  (∀ me, ¬ s.InQueueInLoop me) → s.pc = .polling → s.loop.pendingFunctors_ ≠ [] →
    s.loop.wakeupFd_ ≠ 0

/-- The loop polls (again) before it next swaps `pendingFunctors_`. -/
def NextPolls (s : LoopThreads ι φ) : Prop :=
  match s.pc with
  | .notStarted | .starting | .polling | .functors _ | .executing _ => True
  | .head => s.loop.quit_ = false
  | .handling _ | .swapping | .stopped => False

/-- The eventfd is readable, or a call that has pushed will still decide about it. -/
def Armed (s : LoopThreads ι φ) : Prop := s.loop.wakeupFd_ ≠ 0 ∨ ∃ me, s.InQueueInLoop me

def WakeupInv (s : LoopThreads ι φ) : Prop :=
  s.NextPolls → s.loop.pendingFunctors_ ≠ [] → s.Armed

/-- When the test of `queueInLoop` decides against the write, the loop will swap before it
polls, or the queue is empty again, or the eventfd is readable, or another thread is inside
`queueInLoop`. -/
def Wakes (s : LoopThreads ι φ) (a : LoopAction φ) (_ : LoopThreads ι φ) : Prop :=
  ∀ me, a = .testWakeup me → s.loop.mustWakeup me = false →
    ¬ s.NextPolls ∨ s.loop.pendingFunctors_ = [] ∨ s.loop.wakeupFd_ ≠ 0 ∨
      ∃ other, other ≠ me ∧ s.InQueueInLoop other

theorem WakeupInv.noLostWakeup {s : LoopThreads ι φ} (h : WakeupInv s) : NoLostWakeup s := by
  intro hidle hpc hpend
  rcases h (by simp [NextPolls, hpc]) hpend with hw | ⟨me, hme⟩
  · exact hw
  · exact absurd hme (hidle me)

/-- A call that changes place without being inside `queueInLoop` before or after does not
disarm the loop. -/
theorem armed_setCall {s : LoopThreads ι φ} {me : ThreadId} {p : CallPc} (h : s.Armed)
    (hme : ¬ s.InQueueInLoop me) : (s.setCall me p).Armed := by
  rcases h with hw | ⟨other, ho⟩
  · exact .inl hw
  · have hne : other ≠ me := fun he => hme (he ▸ ho)
    exact .inr ⟨other, by simpa [InQueueInLoop, setCall, hne] using ho⟩

theorem armed_pushFunctor (s : LoopThreads ι φ) (me : ThreadId) (f : φ) :
    (s.pushFunctor me f).Armed :=
  .inr ⟨me, .inl (by simp [pushFunctor, setCall])⟩

theorem not_inQueueInLoop_of_mayCall {s : LoopThreads ι φ} {me : ThreadId}
    (h : s.mayCall me = true) : ¬ s.InQueueInLoop me := by
  simp only [mayCall, Bool.and_eq_true, decide_eq_true_eq] at h
  simp [InQueueInLoop, h.1]

theorem wakeupInv_move {s t : LoopThreads ι φ} {a : LoopAction φ} (hs : WakeupInv s)
    (h : LoopMove s a t) (hw : Wakes s a t) : WakeupInv t := by
  unfold WakeupInv at hs
  cases h with
  | loop h => exact fun _ => hs (by simp [NextPolls, h])
  | start h => exact fun _ => hs (by simp [NextPolls, h])
  | testQuit h =>
      intro hn
      apply hs
      simp only [NextPolls, h] at hn ⊢
      cases hq : s.loop.quit_ with
      | false => rfl
      | true => simp [hq] at hn
  | pollReturns => exact fun hn => hn.elim
  | readWakeup => exact fun hn => hn.elim
  | doPendingFunctors => exact fun hn => hn.elim
  | swap => exact fun _ hp => absurd rfl hp
  | runFunctor h => exact fun _ => hs (by simp [NextPolls, h])
  | functorReturns h => exact fun _ => hs (by simp [NextPolls, h])
  | endFunctors h => exact fun _ => hs (by simp [NextPolls, h])
  | queueInLoop => exact fun _ _ => armed_pushFunctor _ _ _
  | runQueued => exact fun _ _ => armed_pushFunctor _ _ _
  | runHere => exact hs
  | @testWakeup me h =>
      intro hn hp
      cases hm : s.loop.mustWakeup me with
      | true => exact .inr ⟨me, .inr (by simp [setCall])⟩
      | false =>
          -- the write is skipped: what remains is what the condition grants
          rcases hw me rfl hm with hnp | hnil | hfd | ⟨other, hne, ho⟩
          · exact absurd hn hnp
          · exact absurd hnil hp
          · exact .inl hfd
          · exact .inr ⟨other, by simpa [InQueueInLoop, setCall, hne] using ho⟩
  | wakeup => exact fun _ _ => .inl (eventfdWrite_ne_zero _)
  | setQuit h =>
      intro hn hp
      refine armed_setCall (hs ?_ hp) (not_inQueueInLoop_of_mayCall h)
      simp only [NextPolls, setCall] at hn ⊢
      split at hn <;> simp_all
  | testQuitWakeup h =>
      intro hn hp
      exact armed_setCall (hs hn hp) (by simp [InQueueInLoop, h])

/-! ### The condition is necessary -/

/-- While a batch is being run, `callingPendingFunctors_` is set. -/
def CallingInv (s : LoopThreads ι φ) : Prop :=
  match s.pc with
  | .swapping | .functors _ | .executing _ => s.loop.callingPendingFunctors_ = true
  | _ => True

theorem callingInv_move {s t : LoopThreads ι φ} {a : LoopAction φ} (hs : CallingInv s)
    (h : LoopMove s a t) : CallingInv t := by
  cases h with
  | testQuit =>
      unfold CallingInv
      cases s.loop.quit_ <;> simp
  | doPendingFunctors => rfl
  | swap h => simpa [CallingInv, h] using hs
  | runFunctor h => simpa [CallingInv, h] using hs
  | functorReturns h => simpa [CallingInv, h] using hs
  | queueInLoop => exact hs
  | runQueued => exact hs
  | runHere => exact hs
  | testWakeup => exact hs
  | wakeup => exact hs
  | setQuit => exact hs
  | testQuitWakeup => exact hs
  | _ => trivial

/-- No thread enters a call or goes on with one. -/
def LoopAlone (_ : LoopThreads ι φ) (a : LoopAction φ) (_ : LoopThreads ι φ) : Prop :=
  match a with
  | .queueInLoop .. | .testWakeup _ | .wakeup _ | .runInLoop .. | .setQuit _
  | .testQuitWakeup _ => False
  | _ => True

/-- No wakeup is lost in `s`, nor in a state that the loop alone reaches from `s`. -/
def StaysAwake (s : LoopThreads ι φ) : Prop :=
  ∀ ms u, RunWith LoopStep LoopAlone s ms u → NoLostWakeup u

theorem LoopAlone.wakes {s t : LoopThreads ι φ} {a : LoopAction φ} (h : LoopAlone s a t) :
    Wakes s a t := by
  rintro me rfl
  exact h.elim

theorem WakeupInv.staysAwake {s : LoopThreads ι φ} (h : WakeupInv s) : StaysAwake s :=
  fun _ _ hrun => (RunWith.invariant (I := WakeupInv)
    (fun _ _ _ hI hs ha => wakeupInv_move hI hs.move ha.wakes) hrun h).noLostWakeup

/-- The loop alone goes from `s` to `poll`, with the calls, the queue and the eventfd of `s`. -/
def ReachesPoll (s : LoopThreads ι φ) : Prop :=
  ∃ ms u, RunWith LoopStep LoopAlone s ms u ∧ u.pc = .polling ∧ u.calls = s.calls ∧
    u.loop.pendingFunctors_ = s.loop.pendingFunctors_ ∧ u.loop.wakeupFd_ = s.loop.wakeupFd_

theorem ReachesPoll.step {s t : LoopThreads ι φ} {a : LoopAction φ} (hs : LoopStep s a t)
    (ha : LoopAlone s a t) (hcalls : t.calls = s.calls)
    (hp : t.loop.pendingFunctors_ = s.loop.pendingFunctors_)
    (hw : t.loop.wakeupFd_ = s.loop.wakeupFd_) (h : ReachesPoll t) : ReachesPoll s := by
  obtain ⟨ms, u, hrun, hpc, hcalls', hp', hw'⟩ := h
  exact ⟨a :: ms, u, .cons ⟨hs, ha⟩ hrun, hpc, hcalls'.trans hcalls, hp'.trans hp, hw'.trans hw⟩

theorem reachesPoll_of_head {s : LoopThreads ι φ} (hpc : s.pc = .head)
    (hq : s.loop.quit_ = false) : ReachesPoll s := by
  refine .step (a := .testQuit) (t := { s with pc := .polling }) ?_ trivial rfl rfl rfl
    ⟨[], _, .nil _, rfl, rfl, rfl, rfl⟩
  simp [LoopStep, act, hpc, hq]

theorem reachesPoll_of_starting {s : LoopThreads ι φ} (hpc : s.pc = .starting) :
    ReachesPoll s := by
  refine .step (a := .start) (t := { s with pc := .head, loop := { s.loop with quit_ := false } })
    ?_ trivial rfl rfl rfl (reachesPoll_of_head rfl rfl)
  simp [LoopStep, act, hpc]

/-- The loop alone reaches `poll` from every state in which it polls before it swaps and is
not calling functors. -/
theorem reachesPoll {s : LoopThreads ι φ} (hn : s.NextPolls)
    (hc : s.loop.callingPendingFunctors_ = false) (hI : CallingInv s) : ReachesPoll s := by
  cases hpc : s.pc with
  | notStarted =>
      refine .step (a := .loop) (t := { s with pc := .starting }) ?_ trivial rfl rfl rfl
        (reachesPoll_of_starting rfl)
      simp [LoopStep, act, hpc]
  | starting => exact reachesPoll_of_starting hpc
  | head => exact reachesPoll_of_head hpc (by simpa [NextPolls, hpc] using hn)
  | polling => exact ⟨[], s, .nil _, hpc, rfl, rfl, rfl⟩
  | functors rest => simp [CallingInv, hpc, hc] at hI
  | executing rest => simp [CallingInv, hpc, hc] at hI
  | handling w => simp [NextPolls, hpc] at hn
  | swapping => simp [NextPolls, hpc] at hn
  | stopped => simp [NextPolls, hpc] at hn

theorem wakes_of_staysAwake {s t : LoopThreads ι φ} {a : LoopAction φ} (hc : CallingInv s)
    (hs : LoopStep s a t) (ht : StaysAwake t) : Wakes s a t := by
  rintro me rfl hm
  by_contra hno
  push Not at hno
  obtain ⟨hn, hp, hfd, hother⟩ := hno
  cases hs.move with
  | testWakeup h =>
      rw [hm] at ht
      have hcall : s.loop.callingPendingFunctors_ = false := by
        simp only [EventLoop.mustWakeup, Bool.or_eq_false_iff] at hm
        exact hm.2
      obtain ⟨ms, u, hrun, hpoll, hcalls, hpend, hwake⟩ :=
        reachesPoll (s := s.setCall me .idle) hn hcall hc
      refine ht ms u hrun (fun other ho => ?_) hpoll (by rw [hpend]; exact hp) ?_
      · by_cases he : other = me
        · subst he
          simp [InQueueInLoop, hcalls, setCall] at ho
        · apply hother other he
          simpa [InQueueInLoop, hcalls, setCall, he] using ho
      · rw [hwake]
        exact hfd

end LoopThreads

open LoopThreads

variable {ι φ : Type}

/-- **No lost wakeup**: over any interleaving in which every test of `queueInLoop` that decides
against the write meets `Wakes`, no wakeup is lost in the state reached.  The condition is
exact: the runs that meet it are those in which no wakeup is lost in any state reached, nor in
the states that the loop alone reaches from there. -/
theorem noLostWakeup_iff (threadId loopTid : ThreadId) (ls : List (LoopAction φ))
    (t : LoopThreads ι φ) :
    (RunWith LoopStep Wakes (init ι φ threadId loopTid) ls t → NoLostWakeup t) ∧
      (RunWith LoopStep (fun _ _ u => StaysAwake u) (init ι φ threadId loopTid) ls t ↔
        RunWith LoopStep Wakes (init ι φ threadId loopTid) ls t) := by
  have hinit : WakeupInv (init ι φ threadId loopTid) ∧ CallingInv (init ι φ threadId loopTid) :=
    ⟨fun _ hp => absurd rfl hp, trivial⟩
  have hkeep : ∀ (s : LoopThreads ι φ) a t, WakeupInv s ∧ CallingInv s → LoopStep s a t →
      Wakes s a t → WakeupInv t ∧ CallingInv t := fun s a t hI hs hw =>
    ⟨wakeupInv_move hI.1 hs.move hw, callingInv_move hI.2 hs.move⟩
  constructor
  · intro h
    exact (RunWith.invariant hkeep h hinit).1.noLostWakeup
  · refine runWith_iff hkeep (fun s a t hI hs => ?_) hinit
    exact ⟨wakes_of_staysAwake hI.2 hs, fun hw => (hkeep s a t hI hs hw).1.staysAwake⟩

/-- Thread 0 constructs the loop and calls `loop()`; when thread 1 is in `poll`, thread 0
queues a functor.  The eventfd is not written. -/
theorem lostWakeup :
    ∃ t : LoopThreads Unit ℕ,
      Run LoopStep (init Unit ℕ 0 1)
        [.loop, .start, .testQuit, .queueInLoop 0 10, .testWakeup 0] t ∧
      (∀ me, t.calls me = .idle) ∧ t.pc = .polling ∧ t.loop.pendingFunctors_ = [10] ∧
      t.loop.wakeupFd_ = 0 ∧ ¬ NoLostWakeup t := by
  have hidle : ∀ me, Function.update (Function.update (fun _ => CallPc.idle) 0 .pushed) 0
      CallPc.idle me = .idle := by
    intro me
    by_cases h : me = 0 <;> simp [h]
  refine ⟨_, .cons rfl (.cons rfl (.cons rfl (.cons rfl (.cons rfl (.nil _))))), hidle, rfl, rfl,
    rfl, fun h => h (fun me hme => ?_) rfl (List.cons_ne_nil _ _) rfl⟩
  rcases hme with hme | hme
  · exact absurd ((hidle me).symm.trans hme) (by decide)
  · exact absurd ((hidle me).symm.trans hme) (by decide)

/-! ### A loop run by the thread that constructed it -/

namespace LoopThreads

/-- The loop thread is inside a call only while it is inside a callback. -/
def CallbackInv (s : LoopThreads ι φ) : Prop :=
  s.calls s.loopTid = .idle ∨ s.pc.inCallback = true

theorem callbackInv_setCall {s : LoopThreads ι φ} {me : ThreadId} {p : CallPc}
    (hs : CallbackInv s) (hme : s.calls me ≠ .idle ∨ s.mayCall me = true) :
    CallbackInv (s.setCall me p) := by
  by_cases he : me = s.loopTid
  · right
    rcases hme with hne | hm
    · exact hs.resolve_left (he ▸ hne)
    · simpa [mayCall, he, setCall] using (Bool.and_eq_true_iff.mp hm).2
  · rcases hs with h | h
    · exact .inl (by simpa [setCall, Ne.symm he] using h)
    · exact .inr h

theorem callbackInv_move {s t : LoopThreads ι φ} {a : LoopAction φ} (hs : CallbackInv s)
    (h : LoopMove s a t) : CallbackInv t := by
  cases h with
  | readWakeup _ hf => exact .inl (of_decide_eq_true hf)
  | doPendingFunctors _ hf => exact .inl (of_decide_eq_true hf)
  | functorReturns _ hf => exact .inl (of_decide_eq_true hf)
  | pollReturns => exact .inr rfl
  | runFunctor => exact .inr rfl
  | queueInLoop h => exact callbackInv_setCall hs (.inr h)
  | runQueued h => exact callbackInv_setCall hs (.inr h)
  | setQuit h => exact callbackInv_setCall hs (.inr h)
  | testWakeup h => exact callbackInv_setCall hs (.inl (by simp [h]))
  | wakeup h => exact callbackInv_setCall hs (.inl (by simp [h]))
  | testQuitWakeup h => exact callbackInv_setCall hs (.inl (by simp [h]))
  | runHere => exact hs
  | _ h => exact .inl (hs.resolve_right (by simp [h, LoopPc.inCallback]))

/-- On the thread that constructed the loop, the loop's own calls come from a handler, with
the swap still to come, or from a functor, with `callingPendingFunctors_` set. -/
theorem wakes_of_same_thread {s t : LoopThreads ι φ} {a : LoopAction φ}
    (htid : s.loop.threadId_ = s.loopTid) (hc : CallingInv s) (hb : CallbackInv s)
    (h : LoopMove s a t) : Wakes s a t := by
  rintro me rfl hm
  left
  cases h with
  | testWakeup h =>
      simp only [EventLoop.mustWakeup, EventLoop.isInLoopThread, htid, Bool.or_eq_false_iff,
        Bool.not_eq_false', decide_eq_true_eq] at hm
      obtain ⟨rfl, hcall⟩ := hm
      have hin : s.pc.inCallback = true := hb.resolve_left (by simp [h])
      cases hpc : s.pc with
      | handling w => simp [NextPolls, hpc]
      | executing rest => simp [CallingInv, hpc, hcall] at hc
      | _ => simp [LoopPc.inCallback, hpc] at hin

end LoopThreads

/-- Run by the thread that constructed it, as its header asks, the loop loses no wakeup. -/
theorem noLostWakeup_of_same_thread {threadId : ThreadId} {ls : List (LoopAction φ)}
    {s : LoopThreads ι φ} (h : Run LoopStep (init ι φ threadId threadId) ls s) :
    NoLostWakeup s := by
  suffices hI : WakeupInv s ∧ CallingInv s ∧ CallbackInv s ∧ s.loop.threadId_ = s.loopTid from
    hI.1.noLostWakeup
  refine Run.invariant (I := fun s => WakeupInv s ∧ CallingInv s ∧ CallbackInv s ∧
    s.loop.threadId_ = s.loopTid) ?_ h ⟨fun _ hp => absurd rfl hp, trivial, .inl rfl, rfl⟩
  rintro u a v ⟨hw, hc, hb, htid⟩ hs
  have hm := hs.move
  refine ⟨wakeupInv_move hw hm (wakes_of_same_thread htid hc hb hm), callingInv_move hc hm,
    callbackInv_move hb hm, ?_⟩
  cases hm <;> exact htid

end NetworkStructure
