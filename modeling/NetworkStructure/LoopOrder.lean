import NetworkStructure.LoopThreads

/-! # The order and the thread of execution

The functor queue of the loop is a `BatchQueue`: every action of the loop or of a caller is
one of its operations or leaves it alone (`queue_move`).  What goes into it is what the calls
queue, in the order of the calls (`pushes_run`).  That gives the order in which functors run, over
any interleaving (`functors_run_once_in_order`).

A callback handed to `queueInLoop` runs on the loop thread.  One handed to `runInLoop` runs on
the calling thread when that thread is `threadId_`, the one that constructed the loop, whether
or not it is the one that runs `loopthread()` (`confined_iff`). -/

namespace NetworkStructure

namespace LoopThreads

variable {ι φ : Type}

/-- The functors of the loop as a batch queue. -/
def queue (s : LoopThreads ι φ) : BatchQueue φ :=
  ⟨s.executed, s.pc.rest, s.loop.pendingFunctors_⟩

/-- The operation of the queue that an action performs in `s`. -/
def queueOp (s : LoopThreads ι φ) : LoopAction φ → BatchQueue φ → BatchQueue φ
  | .queueInLoop _ f, q => q.push f
  | .runInLoop me f, q => if s.loop.isInLoopThread me then q else q.push f
  | .swap, q => q.swap
  | .runFunctor, q => q.take
  | _, q => q

/-- **The loop refines the batch queue.** -/
theorem queue_move {s t : LoopThreads ι φ} {a : LoopAction φ} (h : LoopMove s a t) :
    t.queue = s.queueOp a s.queue := by
  cases h with
  | testQuit h =>
      simp only [queue, queueOp, h]
      split <;> rfl
  | runHere _ hl => simp [queue, queueOp, hl]
  | runQueued _ hl =>
      simp [queue, queueOp, hl, pushFunctor, setCall, BatchQueue.push]
  | swap h => simp [queue, queueOp, h, BatchQueue.swap, LoopPc.rest]
  | runFunctor h => simp [queue, queueOp, h, BatchQueue.take, LoopPc.rest]
  | queueInLoop => rfl
  | testWakeup => rfl
  | wakeup => rfl
  | setQuit => rfl
  | testQuitWakeup => rfl
  | pollReturns h => simp [queue, queueOp, h, LoopPc.rest]
  | _ h => simp [queue, queueOp, h, LoopPc.rest]

/-- The queue holds, in order, what was pushed. -/
def Ordered (s : LoopThreads ι φ) : Prop := s.queue.contents = s.pushes

theorem ordered_move {s t : LoopThreads ι φ} {a : LoopAction φ} (hs : Ordered s)
    (h : LoopMove s a t) : Ordered t := by
  unfold Ordered at hs ⊢
  rw [queue_move h]
  cases h with
  | queueInLoop => simpa [queueOp, pushFunctor, setCall] using hs
  | runQueued _ hl => simpa [queueOp, hl, pushFunctor, setCall] using hs
  | runHere _ hl => simpa [queueOp, hl] using hs
  | swap => simpa [queueOp] using hs
  | runFunctor => simpa [queueOp] using hs
  | _ => exact hs

/-- What a step pushes is what its label says. -/
theorem pushes_move {s t : LoopThreads ι φ} {a : LoopAction φ} (h : LoopMove s a t) :
    t.pushes = s.pushes ++ a.queues s.loop.threadId_ ∧ t.loop.threadId_ = s.loop.threadId_ := by
  cases h with
  | queueInLoop => exact ⟨rfl, rfl⟩
  | runQueued _ hl =>
      have hne : ¬ s.loop.threadId_ = _ := of_decide_eq_false hl
      exact ⟨by rw [LoopAction.queues, if_neg hne]; rfl, rfl⟩
  | runHere _ hl =>
      have he : s.loop.threadId_ = _ := of_decide_eq_true hl
      exact ⟨by rw [LoopAction.queues, if_pos he, List.append_nil], rfl⟩
  | _ => exact ⟨(List.append_nil _).symm, rfl⟩

/-- **The pushes are the calls**: what has been pushed is what the calls of the run queued, in the
order of the calls. -/
theorem pushes_run {s t : LoopThreads ι φ} {ls : List (LoopAction φ)} (h : Run LoopStep s ls t) :
    t.pushes = s.pushes ++ ls.flatMap (LoopAction.queues s.loop.threadId_) := by
  refine h.observed (I := fun u => u.loop.threadId_ = s.loop.threadId_) ?_ ?_ rfl
  · exact fun u a v hu hs => (pushes_move hs.move).2.trans hu
  · exact fun u a v hu hs => hu ▸ (pushes_move hs.move).1

/-- Inside one `doPendingFunctors` call, after its swap. -/
def InBatch (s : LoopThreads ι φ) : Prop :=
  (∃ rest, s.pc = .functors rest) ∨ ∃ rest, s.pc = .executing rest

/-- Until the call ends, the batch is closed: what has begun does not change. -/
theorem begun_move {s t : LoopThreads ι φ} {a : LoopAction φ} (hb : InBatch s)
    (h : LoopMove s a t) (ha : a ≠ .endFunctors) :
    InBatch t ∧ t.queue.begun = s.queue.begun := by
  rw [queue_move h]
  cases h with
  | queueInLoop => exact ⟨hb, rfl⟩
  | runQueued _ hl => exact ⟨hb, by simp [queueOp, hl]⟩
  | runHere _ hl => exact ⟨hb, by simp [queueOp, hl]⟩
  | runFunctor => exact ⟨.inr ⟨_, rfl⟩, by simp [queueOp]⟩
  | functorReturns => exact ⟨.inl ⟨_, rfl⟩, rfl⟩
  | testWakeup => exact ⟨hb, rfl⟩
  | wakeup => exact ⟨hb, rfl⟩
  | setQuit => exact ⟨hb, rfl⟩
  | testQuitWakeup => exact ⟨hb, rfl⟩
  | endFunctors => exact absurd rfl ha
  | pollReturns h => rcases hb with ⟨_, hb⟩ | ⟨_, hb⟩ <;> simp [hb] at h
  | _ h => rcases hb with ⟨_, hb⟩ | ⟨_, hb⟩ <;> simp [hb] at h

/-- A step that is not the end of a `doPendingFunctors` call. -/
def NotEnd (_ : LoopThreads ι φ) (a : LoopAction φ) (_ : LoopThreads ι φ) : Prop :=
  a ≠ .endFunctors

end LoopThreads

open LoopThreads

variable {ι φ : Type}

/-- **Functors run exactly once and in order.**  Over any interleaving, the functors executed,
followed by the rest of the batch that `doPendingFunctors` holds, followed by
`pendingFunctors_`, are all pushes in order, that is the functors of the calls that queue one; and
after a swap, as long as that call of `doPendingFunctors` has not ended, only functors pushed before
the swap have been executed. -/
theorem functors_run_once_in_order (threadId loopTid : ThreadId) {ls : List (LoopAction φ)}
    {s : LoopThreads ι φ} (h : Run LoopStep (init ι φ threadId loopTid) ls s) :
    s.pushes = ls.flatMap (LoopAction.queues threadId) ∧
      s.executed ++ s.pc.rest ++ s.loop.pendingFunctors_ = s.pushes ∧
      ∀ s₁ ms s₂, LoopStep s .swap s₁ → RunWith LoopStep NotEnd s₁ ms s₂ →
        s₂.executed <+: ls.flatMap (LoopAction.queues threadId) := by
  have hord : Ordered s :=
    Run.invariant (I := Ordered) (fun _ _ _ hI hs => ordered_move hI hs.move) h rfl
  have hpushes : s.pushes = ls.flatMap (LoopAction.queues threadId) := pushes_run h
  refine ⟨hpushes, hord, fun s₁ ms s₂ hswap hrun => ?_⟩
  have hord₁ : Ordered s₁ := ordered_move hord hswap.move
  have hpushes₁ : s₁.pushes = s.pushes := (pushes_move hswap.move).1.trans (List.append_nil _)
  have hbegun : s₁.queue.begun = s₁.pushes := by
    rw [← hord₁, queue_move hswap.move]
    simp [queueOp]
  have hin : InBatch s₁ := by
    cases hswap.move with
    | swap => exact .inl ⟨_, rfl⟩
  have hend : InBatch s₂ ∧ s₂.queue.begun = s₁.pushes :=
    RunWith.invariant (I := fun u => InBatch u ∧ u.queue.begun = s₁.pushes)
      (fun u a v hI hs hne => by
        obtain ⟨h₁, h₂⟩ := begun_move hI.1 hs.move hne
        exact ⟨h₁, h₂.trans hI.2⟩) hrun ⟨hin, hbegun⟩
  rw [← hpushes, ← hpushes₁, ← hend.2]
  exact s₂.queue.taken_prefix_begun

/-- Thread 2 queues `10`, thread 0, which constructed the loop, `30`, and thread 3 hands `40` to
`runInLoop`; while `10` runs on the loop thread 1, it queues `20`.  The batch that was swapped out
does not contain `20`. -/
theorem functors_run_once_in_order_example :
    ∃ s s₁ s₂ : LoopThreads Unit ℕ,
      Run LoopStep (init Unit ℕ 0 1) [.loop, .start, .testQuit, .queueInLoop 2 10, .testWakeup 2,
        .queueInLoop 0 30, .wakeup 2, .testWakeup 0, .pollReturns true, .readWakeup,
        .runInLoop 3 40, .testWakeup 3, .doPendingFunctors] s ∧
      LoopStep s .swap s₁ ∧
      RunWith LoopStep NotEnd s₁ [.runFunctor, .queueInLoop 1 20, .testWakeup 1, .wakeup 1,
        .functorReturns, .runFunctor] s₂ ∧
      s₂.executed = [10, 30] ∧ s₂.pc.rest = [40] ∧ s₂.loop.pendingFunctors_ = [20] ∧
      s.pushes = [10, 30, 40] ∧
      s.executed ++ s.pc.rest ++ s.loop.pendingFunctors_ = s.pushes ∧
      s₂.executed <+: [10, 30, 40] := by
  obtain ⟨s, hrun, s₁, hswap, s₂, hbatch, he, hr, hp⟩ : ∃ s : LoopThreads Unit ℕ, Run LoopStep
      (init Unit ℕ 0 1) [.loop, .start, .testQuit, .queueInLoop 2 10, .testWakeup 2,
        .queueInLoop 0 30, .wakeup 2, .testWakeup 0, .pollReturns true, .readWakeup,
        .runInLoop 3 40, .testWakeup 3, .doPendingFunctors] s ∧
      ∃ s₁, LoopStep s .swap s₁ ∧ ∃ s₂, RunWith LoopStep NotEnd s₁ [.runFunctor,
        .queueInLoop 1 20, .testWakeup 1, .wakeup 1, .functorReturns, .runFunctor] s₂ ∧
      s₂.executed = [10, 30] ∧ s₂.pc.rest = [40] ∧ s₂.loop.pendingFunctors_ = [20] := by
    refine ⟨_, run_of_foldlM rfl, _, rfl, _, runWith_label_iff.mpr ⟨run_of_foldlM rfl, ?_⟩, ?_⟩
    · simp
    · exact ⟨rfl, rfl, rfl⟩
  obtain ⟨hpushes, hfifo, hprefix⟩ := functors_run_once_in_order 0 1 hrun
  exact ⟨s, s₁, s₂, hrun, hswap, hbatch, he, hr, hp, hpushes, hfifo, hprefix s₁ _ s₂ hswap hbatch⟩

/-! ### Loop-thread confinement -/

namespace LoopThreads

/-- Every callback executed so far was executed by the loop thread. -/
def Confined (s : LoopThreads ι φ) : Prop := ∀ e ∈ s.executions, e.1 = s.loopTid

/-- While `loopthread()` runs, `runInLoop` is not called on the thread that constructed the
loop, unless that is the loop thread. -/
def NoDirectCall (s : LoopThreads ι φ) (a : LoopAction φ) (_ : LoopThreads ι φ) : Prop :=
  ∀ f, a = .runInLoop s.loop.threadId_ f → s.pc.running = true → s.loop.threadId_ = s.loopTid

theorem confined_move {s t : LoopThreads ι φ} {a : LoopAction φ} (hs : Confined s)
    (h : LoopMove s a t) : Confined t ↔ NoDirectCall s a t := by
  cases h with
  | runHere hm hl =>
      have hme := of_decide_eq_true hl
      subst hme
      cases hr : s.pc.running with
      | false => simpa [Confined, NoDirectCall, hr] using hs
      | true =>
          unfold Confined at hs ⊢
          simp only [hr, if_true, List.mem_append, List.mem_singleton, NoDirectCall]
          constructor
          · intro h _ _ _
            exact h _ (.inr rfl)
          · rintro h e (he | rfl)
            · exact hs e he
            · exact h _ rfl trivial
  | runQueued _ hl =>
      refine iff_of_true hs fun f hf _ => ?_
      cases hf
      simp [EventLoop.isInLoopThread] at hl
  | runFunctor =>
      refine iff_of_true ?_ fun f hf => by cases hf
      intro e he
      rcases List.mem_append.mp he with he | he
      · exact hs e he
      · rw [List.mem_singleton.mp he]
  | _ => exact iff_of_true hs fun f hf => by cases hf

end LoopThreads

/-- **Loop-thread confinement**: over any interleaving, every callback is executed by the
thread that runs `loopthread()` if and only if no call of `runInLoop` is made, while
`loopthread()` runs, on the thread that constructed the loop and does not run it. -/
theorem confined_iff (threadId loopTid : ThreadId) (ls : List (LoopAction φ))
    (t : LoopThreads ι φ) :
    RunWith LoopStep (fun _ _ t => Confined t) (init ι φ threadId loopTid) ls t ↔
      RunWith LoopStep NoDirectCall (init ι φ threadId loopTid) ls t := by
  refine runWith_iff (I := Confined) ?_ ?_ (by simp [Confined, init])
  · intro s a t hI hs hR
    exact (confined_move hI hs.move).mpr hR
  · intro s a t hI hs
    exact confined_move hI hs.move

/-- Thread 0 constructs the loop and calls `loop()`, which starts thread 1; then thread 0
calls `runInLoop` and executes the callback itself. -/
theorem not_confined :
    ∃ t : LoopThreads Unit ℕ,
      Run LoopStep (init Unit ℕ 0 1) [.loop, .start, .testQuit, .runInLoop 0 10] t ∧
        t.executions = [(0, 10)] ∧ ¬ Confined t := by
  refine ⟨_, .cons rfl (.cons rfl (.cons rfl (.cons rfl (.nil _)))), rfl, fun h => ?_⟩
  exact absurd (h (0, 10) (List.mem_singleton_self _)) (by decide)

end NetworkStructure
