import NetworkStructure.Poller

/-! # EventLoop

The data of an `EventLoop` and the member functions that a single thread executes: the
functor queue and the eventfd that wakes the loop up (`updateChannel` and `removeChannel` only
pass the call on to the poller).  `threadId_` is the thread that constructed the loop.  The
thread that runs `loopthread()` is started later, by `loop()`, and nothing assigns its id to
`threadId_`. -/

namespace NetworkStructure

/-- `std::thread::id`. -/
abbrev ThreadId := ℕ

/-! ### eventfd(2) -/

/-- The largest value of an eventfd counter. -/
def eventfdMax : ℕ := 0xfffffffffffffffe

/-- Adding one; a nonblocking descriptor answers `EAGAIN` when the counter is full. -/
def eventfdWrite (counter : ℕ) : ℕ := if counter < eventfdMax then counter + 1 else counter

/-- Reading resets the counter (`EAGAIN` leaves it at zero). -/
def eventfdRead (_ : ℕ) : ℕ := 0

theorem eventfdWrite_ne_zero (n : ℕ) : eventfdWrite n ≠ 0 := by
  unfold eventfdWrite eventfdMax
  split <;> omega

/-! ### The loop -/

/-- `ι` are the channels, `φ` the functors. -/
structure EventLoop (ι φ : Type) where
  threadId_ : ThreadId
  quit_ : Bool := false
  callingPendingFunctors_ : Bool := false
  wakeupFd_ : ℕ := 0
  poller_ : Poller ι := {}
  pendingFunctors_ : List φ := []

namespace EventLoop

variable {ι φ : Type} (l : EventLoop ι φ)

/-- `isInLoopThread()` on the thread `me`. -/
def isInLoopThread (me : ThreadId) : Bool := decide (l.threadId_ = me)

/-- The mutex-protected `push_back` of `queueInLoop`. -/
def push (f : φ) : EventLoop ι φ := { l with pendingFunctors_ := l.pendingFunctors_ ++ [f] }

def wakeup : EventLoop ι φ := { l with wakeupFd_ := eventfdWrite l.wakeupFd_ }

/-- `EventLoop::handleRead`, the read callback of the wakeup channel. -/
def handleRead : EventLoop ι φ := { l with wakeupFd_ := eventfdRead l.wakeupFd_ }

/-- The test after the push of `queueInLoop`: does this thread write the eventfd? -/
def mustWakeup (me : ThreadId) : Bool := !l.isInLoopThread me || l.callingPendingFunctors_

def queueInLoop (me : ThreadId) (f : φ) : EventLoop ι φ :=
  if (l.push f).mustWakeup me then (l.push f).wakeup else l.push f

@[simp] theorem push_pendingFunctors_ (f : φ) :
    (l.push f).pendingFunctors_ = l.pendingFunctors_ ++ [f] := rfl
@[simp] theorem push_threadId_ (f : φ) : (l.push f).threadId_ = l.threadId_ := rfl
@[simp] theorem push_poller_ (f : φ) : (l.push f).poller_ = l.poller_ := rfl
@[simp] theorem push_wakeupFd_ (f : φ) : (l.push f).wakeupFd_ = l.wakeupFd_ := rfl
@[simp] theorem wakeup_pendingFunctors_ : l.wakeup.pendingFunctors_ = l.pendingFunctors_ := rfl
@[simp] theorem wakeup_threadId_ : l.wakeup.threadId_ = l.threadId_ := rfl
@[simp] theorem wakeup_poller_ : l.wakeup.poller_ = l.poller_ := rfl
@[simp] theorem handleRead_pendingFunctors_ :
    l.handleRead.pendingFunctors_ = l.pendingFunctors_ := rfl
@[simp] theorem handleRead_threadId_ : l.handleRead.threadId_ = l.threadId_ := rfl
@[simp] theorem handleRead_poller_ : l.handleRead.poller_ = l.poller_ := rfl

@[simp] theorem queueInLoop_pendingFunctors_ (me : ThreadId) (f : φ) :
    (l.queueInLoop me f).pendingFunctors_ = l.pendingFunctors_ ++ [f] := by
  unfold queueInLoop
  split <;> rfl

@[simp] theorem queueInLoop_threadId_ (me : ThreadId) (f : φ) :
    (l.queueInLoop me f).threadId_ = l.threadId_ := by
  unfold queueInLoop
  split <;> rfl

@[simp] theorem queueInLoop_poller_ (me : ThreadId) (f : φ) :
    (l.queueInLoop me f).poller_ = l.poller_ := by
  unfold queueInLoop
  split <;> rfl

end EventLoop
end NetworkStructure
