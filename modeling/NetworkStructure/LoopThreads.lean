import NetworkStructure.BatchQueue
import NetworkStructure.EventLoop
import NetworkStructure.Run

/-! # The loop and the threads that call it

Any number of threads call `queueInLoop`, `runInLoop` and `quitLoop` while one thread,
`loopTid`, runs `loopthread()`.  A step is one atomic action of one thread: the mutex-protected
push, the test after it, the write of the eventfd, its read, the swap, the start of a functor.
The loop thread itself may call while it is inside an event handler or a functor.

The history fields record every push, every functor that a `doPendingFunctors` call started,
and the thread on which each callback was executed. -/

namespace NetworkStructure

/-- Where a thread stands inside `queueInLoop` or `quitLoop`. -/
inductive CallPc where
  | idle
  | pushed
  | quitSet
  /-- The test is done and the eventfd will be written (`true`: on behalf of `queueInLoop`). -/
  | waking (queue : Bool)
deriving DecidableEq, Repr

/-- Where the loop thread stands inside `loop()` and `loopthread()`. -/
inductive LoopPc (φ : Type) where
  | notStarted
  | starting
  | head
  | polling
  /-- Handling the active channels; `true`: the wakeup channel is among those still to come. -/
  | handling (wakeup : Bool)
  /-- In `doPendingFunctors`, before the swap. -/
  | swapping
  /-- Between two functors of the batch. -/
  | functors (rest : List φ)
  | executing (rest : List φ)
  | stopped

namespace LoopPc

/-- The part of the batch that has not been started. -/
def rest {φ : Type} : LoopPc φ → List φ
  | functors rest | executing rest => rest
  | _ => []

/-- The loop thread is inside user code and may call the loop itself. -/
def inCallback {φ : Type} : LoopPc φ → Bool
  | handling _ | executing _ => true
  | _ => false

/-- `loopthread()` has been started and has not returned. -/
def running {φ : Type} : LoopPc φ → Bool
  | notStarted | stopped => false
  | _ => true

end LoopPc

structure LoopThreads (ι φ : Type) where
  loop : EventLoop ι φ
  loopTid : ThreadId
  pc : LoopPc φ := .notStarted
  calls : ThreadId → CallPc := fun _ => .idle
  pushes : List φ := []
  executed : List φ := []
  /-- The callbacks executed while `loopthread()` was running, with the thread that did. -/
  executions : List (ThreadId × φ) := []

/-- The atomic actions. -/
inductive LoopAction (φ : Type) where
  | loop
  | start
  | testQuit
  | pollReturns (wakeup : Bool)
  | readWakeup
  | doPendingFunctors
  | swap
  | runFunctor
  | functorReturns
  | endFunctors
  | queueInLoop (me : ThreadId) (f : φ)
  | testWakeup (me : ThreadId)
  | wakeup (me : ThreadId)
  | runInLoop (me : ThreadId) (f : φ)
  | setQuit (me : ThreadId)
  | testQuitWakeup (me : ThreadId)

/-- The functors that an action queues; `runInLoop` on the thread `threadId_` calls its callback. -/
def LoopAction.queues {φ : Type} (threadId_ : ThreadId) : LoopAction φ → List φ
  | queueInLoop _ f => [f]
  | runInLoop me f => if threadId_ = me then [] else [f]
  | _ => []

namespace LoopThreads

variable {ι φ : Type}

/-- The loop object constructed by the thread `threadId`, to be run by `loopTid`. -/
def init (ι φ : Type) (threadId loopTid : ThreadId) : LoopThreads ι φ :=
  { loop := { threadId_ := threadId }, loopTid := loopTid }

/-- A thread may begin a call when it is in none; the loop thread only from a callback. -/
def mayCall (s : LoopThreads ι φ) (me : ThreadId) : Bool :=
  decide (s.calls me = .idle) && (decide (me ≠ s.loopTid) || s.pc.inCallback)

/-- The loop thread goes on with `loopthread()` only when it is in no call. -/
def loopFree (s : LoopThreads ι φ) : Bool := decide (s.calls s.loopTid = .idle)

def setCall (s : LoopThreads ι φ) (me : ThreadId) (p : CallPc) : LoopThreads ι φ :=
  { s with calls := Function.update s.calls me p }

/-- The push of `queueInLoop`, under `mutex_`. -/
def pushFunctor (s : LoopThreads ι φ) (me : ThreadId) (f : φ) : LoopThreads ι φ :=
  { s.setCall me .pushed with loop := s.loop.push f, pushes := s.pushes ++ [f] }

/-- One atomic action; `none` when it is not possible now. -/
def act (s : LoopThreads ι φ) : LoopAction φ → Option (LoopThreads ι φ)
  | .loop => match s.pc with
      | .notStarted => some { s with pc := .starting }
      | _ => none
  | .start => match s.pc with
      | .starting => some { s with pc := .head, loop := { s.loop with quit_ := false } }
      | _ => none
  | .testQuit => match s.pc with
      | .head => some { s with pc := if s.loop.quit_ then .stopped else .polling }
      | _ => none
  | .pollReturns wakeup => match s.pc with
      -- the eventfd is reported only when it is readable; other channels, a timeout or a full
      -- event list may end the wait without it
      | .polling =>
          if wakeup = true → s.loop.wakeupFd_ ≠ 0 then some { s with pc := .handling wakeup }
          else none
      | _ => none
  | .readWakeup => match s.pc with
      | .handling true =>
          if s.loopFree then some { s with pc := .handling false, loop := s.loop.handleRead }
          else none
      | _ => none
  | .doPendingFunctors => match s.pc with
      | .handling false =>
          if s.loopFree then
            some { s with
              pc := .swapping, loop := { s.loop with callingPendingFunctors_ := true } }
          else none
      | _ => none
  | .swap => match s.pc with
      | .swapping =>
          some { s with
            pc := .functors s.loop.pendingFunctors_
            loop := { s.loop with pendingFunctors_ := [] } }
      | _ => none
  | .runFunctor => match s.pc with
      | .functors (f :: rest) =>
          some { s with
            pc := .executing rest
            executed := s.executed ++ [f]
            executions := s.executions ++ [(s.loopTid, f)] }
      | _ => none
  | .functorReturns => match s.pc with
      | .executing rest => if s.loopFree then some { s with pc := .functors rest } else none
      | _ => none
  | .endFunctors => match s.pc with
      | .functors [] =>
          some { s with pc := .head, loop := { s.loop with callingPendingFunctors_ := false } }
      | _ => none
  | .queueInLoop me f => if s.mayCall me then some (s.pushFunctor me f) else none
  | .testWakeup me =>
      if s.calls me = .pushed then
        some (s.setCall me (if s.loop.mustWakeup me then .waking true else .idle))
      else none
  | .wakeup me => match s.calls me with
      | .waking _ => some { s.setCall me .idle with loop := s.loop.wakeup }
      | _ => none
  | .runInLoop me f =>
      if s.mayCall me then
        if s.loop.isInLoopThread me then
          -- `cb()` on the calling thread
          some { s with
            executions := if s.pc.running then s.executions ++ [(me, f)] else s.executions }
        else some (s.pushFunctor me f)
      else none
  | .setQuit me =>
      if s.mayCall me then
        some { s.setCall me .quitSet with loop := { s.loop with quit_ := true } }
      else none
  | .testQuitWakeup me =>
      if s.calls me = .quitSet then
        some (s.setCall me (if s.loop.isInLoopThread me then .idle else .waking false))
      else none

end LoopThreads

/-- The step relation of the loop and its callers. -/
def LoopStep {ι φ : Type} (s : LoopThreads ι φ) (a : LoopAction φ) (t : LoopThreads ι φ) : Prop :=
  s.act a = some t

/-! ### What each action does -/

/-- The actions with their guards and effects, one constructor for each path through `act`. -/
inductive LoopMove {ι φ : Type} (s : LoopThreads ι φ) :
    LoopAction φ → LoopThreads ι φ → Prop
  | loop (h : s.pc = .notStarted) : LoopMove s .loop { s with pc := .starting }
  | start (h : s.pc = .starting) :
      LoopMove s .start { s with pc := .head, loop := { s.loop with quit_ := false } }
  | testQuit (h : s.pc = .head) :
      LoopMove s .testQuit { s with pc := if s.loop.quit_ then .stopped else .polling }
  | pollReturns {w : Bool} (h : s.pc = .polling) (hw : w = true → s.loop.wakeupFd_ ≠ 0) :
      LoopMove s (.pollReturns w) { s with pc := .handling w }
  | readWakeup (h : s.pc = .handling true) (hf : s.loopFree = true) :
      LoopMove s .readWakeup { s with pc := .handling false, loop := s.loop.handleRead }
  | doPendingFunctors (h : s.pc = .handling false) (hf : s.loopFree = true) :
      LoopMove s .doPendingFunctors
        { s with pc := .swapping, loop := { s.loop with callingPendingFunctors_ := true } }
  | swap (h : s.pc = .swapping) :
      LoopMove s .swap { s with
        pc := .functors s.loop.pendingFunctors_
        loop := { s.loop with pendingFunctors_ := [] } }
  | runFunctor {f : φ} {rest : List φ} (h : s.pc = .functors (f :: rest)) :
      LoopMove s .runFunctor { s with
        pc := .executing rest
        executed := s.executed ++ [f]
        executions := s.executions ++ [(s.loopTid, f)] }
  | functorReturns {rest : List φ} (h : s.pc = .executing rest) (hf : s.loopFree = true) :
      LoopMove s .functorReturns { s with pc := .functors rest }
  | endFunctors (h : s.pc = .functors []) :
      LoopMove s .endFunctors
        { s with pc := .head, loop := { s.loop with callingPendingFunctors_ := false } }
  | queueInLoop {me : ThreadId} {f : φ} (h : s.mayCall me = true) :
      LoopMove s (.queueInLoop me f) (s.pushFunctor me f)
  | testWakeup {me : ThreadId} (h : s.calls me = .pushed) :
      LoopMove s (.testWakeup me)
        (s.setCall me (if s.loop.mustWakeup me then .waking true else .idle))
  | wakeup {me : ThreadId} {q : Bool} (h : s.calls me = .waking q) :
      LoopMove s (.wakeup me) { s.setCall me .idle with loop := s.loop.wakeup }
  | runHere {me : ThreadId} {f : φ} (h : s.mayCall me = true)
      (hl : s.loop.isInLoopThread me = true) :
      LoopMove s (.runInLoop me f) { s with
        executions := if s.pc.running then s.executions ++ [(me, f)] else s.executions }
  | runQueued {me : ThreadId} {f : φ} (h : s.mayCall me = true)
      (hl : s.loop.isInLoopThread me = false) :
      LoopMove s (.runInLoop me f) (s.pushFunctor me f)
  | setQuit {me : ThreadId} (h : s.mayCall me = true) :
      LoopMove s (.setQuit me)
        { s.setCall me .quitSet with loop := { s.loop with quit_ := true } }
  | testQuitWakeup {me : ThreadId} (h : s.calls me = .quitSet) :
      LoopMove s (.testQuitWakeup me)
        (s.setCall me (if s.loop.isInLoopThread me then .idle else .waking false))

theorem LoopStep.move {ι φ : Type} {s t : LoopThreads ι φ} {a : LoopAction φ}
    (h : LoopStep s a t) : LoopMove s a t := by
  unfold LoopStep at h
  cases a <;> simp only [LoopThreads.act] at h
  case loop => split at h <;> cases h; exact .loop ‹_›
  case start => split at h <;> cases h; exact .start ‹_›
  case testQuit => split at h <;> cases h; exact .testQuit ‹_›
  case pollReturns w =>
      split at h <;> try cases h
      split at h <;> cases h
      exact .pollReturns ‹_› ‹_›
  case readWakeup =>
      split at h <;> try cases h
      split at h <;> cases h
      exact .readWakeup ‹_› ‹_›
  case doPendingFunctors =>
      split at h <;> try cases h
      split at h <;> cases h
      exact .doPendingFunctors ‹_› ‹_›
  case swap => split at h <;> cases h; exact .swap ‹_›
  case runFunctor => split at h <;> cases h; exact .runFunctor ‹_›
  case functorReturns =>
      split at h <;> try cases h
      split at h <;> cases h
      exact .functorReturns ‹_› ‹_›
  case endFunctors => split at h <;> cases h; exact .endFunctors ‹_›
  case queueInLoop me f => split at h <;> cases h; exact .queueInLoop ‹_›
  case testWakeup me => split at h <;> cases h; exact .testWakeup ‹_›
  case wakeup me => split at h <;> cases h; exact .wakeup ‹_›
  case runInLoop me f =>
      split at h <;> try cases h
      split at h <;> cases h
      · exact .runHere ‹_› ‹_›
      · exact .runQueued ‹_› (Bool.eq_false_iff.mpr ‹_›)
  case setQuit me => split at h <;> cases h; exact .setQuit ‹_›
  case testQuitWakeup me => split at h <;> cases h; exact .testQuitWakeup ‹_›

end NetworkStructure
