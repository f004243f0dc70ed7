import NetworkStructure.Epoll

/-! # Channel

`Channel` ties a file descriptor to the events its owner is interested in (`events_`) and to
the poller's bookkeeping for it (`index_`).  The member functions that change `events_` are
each followed by `update()`, a call into the poller, so here they are split: this module has
the assignment to `events_`, `Poller.lean` the call. -/

namespace NetworkStructure

/-- `Poller::ChannelIndex`, the values of `Channel::index_`. -/
inductive ChannelIndex where
  | cNew
  | cAdded
  | cDeleted
deriving DecidableEq, Repr

abbrev kNoneEvent : Mask := 0
def kReadEvent : Mask := EPOLLIN ||| EPOLLPRI
def kWriteEvent : Mask := EPOLLOUT

/-- The state of a `Channel`.  `revents_` is written by `fillActiveChannels` and read once by
`handleEvent`; it travels with the list of active channels instead. -/
structure Channel where
  fd_ : Fd
  events_ : Mask := kNoneEvent
  index_ : ChannelIndex := .cNew
  tied_ : Bool := false
deriving DecidableEq, Repr

namespace Channel

def isWriting (ch : Channel) : Bool := Mask.test ch.events_ kWriteEvent
def isReading (ch : Channel) : Bool := Mask.test ch.events_ kReadEvent
def isNoneEvent (ch : Channel) : Bool := decide (ch.events_ = kNoneEvent)
def set_index (ch : Channel) (idx : ChannelIndex) : Channel := { ch with index_ := idx }

/-- `tie(shared_from_this())`: the owner is the connection itself. -/
def tie (ch : Channel) : Channel := { ch with tied_ := true }

/-- The member functions of `Channel` that assign to `events_` and then call `update()`. -/
inductive Interest where
  | enableReading
  | disableReading
  | enableWriting
  | disableWriting
  | disableAll
deriving DecidableEq, Repr

/-- The value each of them assigns to `events_`. -/
def Interest.assign : Interest → Mask → Mask
  | enableReading, e => e ||| kReadEvent
  | disableReading, e => e &&& ~~~kReadEvent
  | enableWriting, e => e ||| kWriteEvent
  | disableWriting, e => e &&& ~~~kWriteEvent
  | disableAll, _ => kNoneEvent

/-- The two functions that add to the mask. -/
def Interest.enables : Interest → Bool
  | enableReading | enableWriting => true
  | disableReading | disableWriting | disableAll => false

@[simp] theorem set_index_index_ (ch : Channel) (i : ChannelIndex) :
    (ch.set_index i).index_ = i := rfl
@[simp] theorem set_index_events_ (ch : Channel) (i : ChannelIndex) :
    (ch.set_index i).events_ = ch.events_ := rfl
@[simp] theorem set_index_fd_ (ch : Channel) (i : ChannelIndex) :
    (ch.set_index i).fd_ = ch.fd_ := rfl
@[simp] theorem set_index_tied_ (ch : Channel) (i : ChannelIndex) :
    (ch.set_index i).tied_ = ch.tied_ := rfl

theorem isNoneEvent_iff {ch : Channel} : ch.isNoneEvent = true ↔ ch.events_ = 0 :=
  decide_eq_true_iff

theorem Interest.assign_ne_zero {i : Interest} (h : i.enables = true) (e : Mask) :
    i.assign e ≠ 0 := by
  cases i with
  | enableReading => exact Mask.or_ne_zero (by decide) e
  | enableWriting => exact Mask.or_ne_zero (by decide) e
  | _ => simp [enables] at h

/-- A mask that is zero stays zero unless something is enabled. -/
theorem Interest.assign_zero {i : Interest} (h : i.enables = false) : i.assign 0 = 0 := by
  cases i <;> simp [assign, enables, kNoneEvent] at h ⊢

end Channel
end NetworkStructure
