import NetworkStructure.Channel
import NetworkStructure.Run

/-! # Poller

`Poller` keeps, beside the kernel's interest set, a map `channels_` from descriptors to the
channels registered on them, and each channel's `index_` says where the channel stands in
that registration (`cNew`, `cAdded`, `cDeleted`).  The three must stay in step.

`InStep p c ch` is the invariant between them for one channel.  Every call a channel makes
into the poller keeps it (`inStep_set`, `inStep_remove`), with one exception: an enabling call
on a channel whose index is `cDeleted`.  `updateChannel` then returns before it adds the
channel again, so that `events_` changes and the interest set does not
(`not_agrees_set_of_cDeleted`). -/

namespace NetworkStructure

variable {ι : Type} [DecidableEq ι]

/-- `channels_` and the epoll instance behind `epollfd_`. -/
structure Poller (ι : Type) where
  channels_ : Fd → Option ι := fun _ => none
  kernel : InterestSet ι := fun _ => none

namespace Poller

omit [DecidableEq ι] in
@[ext] theorem ext {p q : Poller ι} (h₁ : ∀ fd, p.channels_ fd = q.channels_ fd)
    (h₂ : ∀ fd, p.kernel fd = q.kernel fd) : p = q := by
  cases p
  cases q
  congr
  · exact funext h₁
  · exact funext h₂

/-- `Poller::update`: a failing `epoll_ctl` is only logged. -/
def update (op : CtlOp) (c : ι) (ch : Channel) (p : Poller ι) : Poller ι :=
  { p with kernel := (epoll_ctl op ch.fd_ ⟨ch.events_, c⟩ p.kernel).getD p.kernel }

/-- `Poller::updateChannel` on the channel `c`, whose state is `ch`. -/
def updateChannel (c : ι) (ch : Channel) (p : Poller ι) : Poller ι × Channel :=
  match ch.index_ with
  | .cNew =>
      let p := if p.channels_ ch.fd_ = none then
          { p with channels_ := Function.update p.channels_ ch.fd_ (some c) } else p
      (p.update .EPOLL_CTL_ADD c ch, ch.set_index .cAdded)
  | .cDeleted =>
      -- the early return: the channel is known, so it is not added again
      if p.channels_ ch.fd_ = some c then (p, ch)
      else (p.update .EPOLL_CTL_ADD c ch, ch.set_index .cAdded)
  | .cAdded =>
      if p.channels_ ch.fd_ = some c then
        if ch.isNoneEvent then (p.update .EPOLL_CTL_DEL c ch, ch.set_index .cDeleted)
        else (p.update .EPOLL_CTL_MOD c ch, ch)
      else (p, ch)

/-- `Poller::removeChannel`. -/
def removeChannel (c : ι) (ch : Channel) (p : Poller ι) : Poller ι × Channel :=
  if p.channels_ ch.fd_ = some c then
    if ch.isNoneEvent then
      if ch.index_ = .cAdded ∨ ch.index_ = .cDeleted then
        let p := { p with channels_ := Function.update p.channels_ ch.fd_ none }
        let p := if ch.index_ = .cAdded then p.update .EPOLL_CTL_DEL c ch else p
        (p, ch.set_index .cNew)
      else (p, ch)
    else (p, ch)
  else (p, ch)

/-- One descriptor as the poller sees it. -/
def setSlot (p : Poller ι) (fd : Fd) (channel : Option ι) (event : Option (EpollEvent ι)) :
    Poller ι :=
  ⟨Function.update p.channels_ fd channel, Function.update p.kernel fd event⟩

omit [DecidableEq ι] in
@[simp] theorem setSlot_channels_ (p : Poller ι) (fd : Fd) (c : Option ι)
    (e : Option (EpollEvent ι)) : (p.setSlot fd c e).channels_ fd = c := by simp [setSlot]

omit [DecidableEq ι] in
@[simp] theorem setSlot_kernel (p : Poller ι) (fd : Fd) (c : Option ι)
    (e : Option (EpollEvent ι)) : (p.setSlot fd c e).kernel fd = e := by simp [setSlot]

omit [DecidableEq ι] in
theorem setSlot_channels_ne (p : Poller ι) {fd fd' : Fd} (h : fd' ≠ fd) (c : Option ι)
    (e : Option (EpollEvent ι)) : (p.setSlot fd c e).channels_ fd' = p.channels_ fd' := by
  simp [setSlot, h]

omit [DecidableEq ι] in
theorem setSlot_kernel_ne (p : Poller ι) {fd fd' : Fd} (h : fd' ≠ fd) (c : Option ι)
    (e : Option (EpollEvent ι)) : (p.setSlot fd c e).kernel fd' = p.kernel fd' := by
  simp [setSlot, h]

end Poller

/-! ### The calls of a channel -/

namespace Channel

/-- The assignment to `events_`, then `update()`. -/
def set (i : Interest) (c : ι) (p : Poller ι) (ch : Channel) : Poller ι × Channel :=
  p.updateChannel c { ch with events_ := i.assign ch.events_ }

def enableReading : ι → Poller ι → Channel → Poller ι × Channel := set .enableReading
def disableReading : ι → Poller ι → Channel → Poller ι × Channel := set .disableReading
def enableWriting : ι → Poller ι → Channel → Poller ι × Channel := set .enableWriting
def disableWriting : ι → Poller ι → Channel → Poller ι × Channel := set .disableWriting
def disableAll : ι → Poller ι → Channel → Poller ι × Channel := set .disableAll

def remove (c : ι) (p : Poller ι) (ch : Channel) : Poller ι × Channel :=
  if ch.isNoneEvent then p.removeChannel c ch else (p, ch)

end Channel

/-! ### The invariant between a channel and its poller -/

/-- `events_`, `index_`, `channels_` and the interest set tell the same story about `c`. -/
def InStep (p : Poller ι) (c : ι) (ch : Channel) : Prop :=
  match ch.index_ with
  | .cNew => ch.events_ = 0 ∧ p.channels_ ch.fd_ = none ∧ p.kernel ch.fd_ = none
  | .cAdded => p.channels_ ch.fd_ = some c ∧ p.kernel ch.fd_ = some ⟨ch.events_, c⟩
  | .cDeleted => ch.events_ = 0 ∧ p.channels_ ch.fd_ = some c ∧ p.kernel ch.fd_ = none

section InStep

variable {p q : Poller ι} {c : ι} {ch : Channel}

omit [DecidableEq ι] in
theorem inStep_cNew (h : ch.index_ = .cNew) :
    InStep p c ch ↔ ch.events_ = 0 ∧ p.channels_ ch.fd_ = none ∧ p.kernel ch.fd_ = none := by
  simp [InStep, h]

omit [DecidableEq ι] in
theorem inStep_cAdded (h : ch.index_ = .cAdded) :
    InStep p c ch ↔ p.channels_ ch.fd_ = some c ∧ p.kernel ch.fd_ = some ⟨ch.events_, c⟩ := by
  simp [InStep, h]

omit [DecidableEq ι] in
theorem inStep_cDeleted (h : ch.index_ = .cDeleted) :
    InStep p c ch ↔ ch.events_ = 0 ∧ p.channels_ ch.fd_ = some c ∧ p.kernel ch.fd_ = none := by
  simp [InStep, h]

omit [DecidableEq ι] in
/-- The invariant only reads the slot of the channel's own descriptor. -/
theorem InStep.congr (h : InStep p c ch) (h₁ : q.channels_ ch.fd_ = p.channels_ ch.fd_)
    (h₂ : q.kernel ch.fd_ = p.kernel ch.fd_) : InStep q c ch := by
  simpa only [InStep, h₁, h₂] using h

omit [DecidableEq ι] in
/-- The slot of the channel's descriptor is the channel's or empty. -/
theorem InStep.channels_eq (h : InStep p c ch) :
    p.channels_ ch.fd_ = none ∨ p.channels_ ch.fd_ = some c := by
  cases hi : ch.index_ with
  | cNew => exact .inl ((inStep_cNew hi).mp h).2.1
  | cAdded => exact .inr ((inStep_cAdded hi).mp h).1
  | cDeleted => exact .inr ((inStep_cDeleted hi).mp h).2.1

omit [DecidableEq ι] in
theorem InStep.kernel_eq (h : InStep p c ch) {e : EpollEvent ι}
    (he : p.kernel ch.fd_ = some e) : ch.index_ = .cAdded ∧ e.ptr = c := by
  cases hi : ch.index_ with
  | cNew =>
      rw [((inStep_cNew hi).mp h).2.2] at he
      cases he
  | cAdded =>
      rw [((inStep_cAdded hi).mp h).2] at he
      cases he
      exact ⟨rfl, rfl⟩
  | cDeleted =>
      rw [((inStep_cDeleted hi).mp h).2.2] at he
      cases he

/-- What a change of `events_` does to a channel that is in step with its poller, path by path
through `updateChannel`. -/
theorem set_of_inStep (h : InStep p c ch) (i : Channel.Interest) :
    Channel.set i c p ch =
      match ch.index_ with
      | .cNew => (p.setSlot ch.fd_ (some c) (some ⟨i.assign 0, c⟩),
          { ch with events_ := i.assign 0, index_ := .cAdded })
      | .cDeleted => (p, { ch with events_ := i.assign 0 })
      | .cAdded =>
          if i.assign ch.events_ = 0 then (p.setSlot ch.fd_ (some c) none,
            { ch with events_ := 0, index_ := .cDeleted })
          else (p.setSlot ch.fd_ (some c) (some ⟨i.assign ch.events_, c⟩),
            { ch with events_ := i.assign ch.events_ }) := by
  cases hi : ch.index_ with
  | cNew =>
      obtain ⟨he, hc, hk⟩ := (inStep_cNew hi).mp h
      simp [Channel.set, Poller.updateChannel, Poller.update, epoll_ctl, Poller.setSlot,
        Channel.set_index, hi, he, hc, hk]
  | cDeleted =>
      obtain ⟨he, hc, hk⟩ := (inStep_cDeleted hi).mp h
      simp [Channel.set, Poller.updateChannel, hi, he, hc]
  | cAdded =>
      obtain ⟨hc, hk⟩ := (inStep_cAdded hi).mp h
      have hu : Function.update p.channels_ ch.fd_ (some c) = p.channels_ := by
        rw [← hc, Function.update_eq_self]
      by_cases h0 : i.assign ch.events_ = 0#32
      · simp [Channel.set, Poller.updateChannel, Poller.update, epoll_ctl, Poller.setSlot,
          Channel.isNoneEvent, Channel.set_index, hi, hc, hk, h0, hu]
      · simp [Channel.set, Poller.updateChannel, Poller.update, epoll_ctl, Poller.setSlot,
          Channel.isNoneEvent, hi, hc, hk, h0, hu]

/-- What `remove()` does to a channel that is in step with its poller and wants no event. -/
theorem remove_of_inStep (h : InStep p c ch) (h0 : ch.events_ = 0) :
    Channel.remove c p ch = (p.setSlot ch.fd_ none none, ch.set_index .cNew) := by
  have hn : ch.isNoneEvent = true := Channel.isNoneEvent_iff.mpr h0
  cases hi : ch.index_ with
  | cNew =>
      obtain ⟨-, hc, hk⟩ := (inStep_cNew hi).mp h
      have hp : p.setSlot ch.fd_ none none = p := by
        ext fd : 1 <;> by_cases hfd : fd = ch.fd_ <;> simp [Poller.setSlot, hfd, hc, hk]
      have hch : ch.set_index .cNew = ch := by rw [Channel.set_index, ← hi]
      simp [Channel.remove, Poller.removeChannel, hn, hc, hp, hch]
  | cDeleted =>
      obtain ⟨-, hc, hk⟩ := (inStep_cDeleted hi).mp h
      have hu : Function.update p.kernel ch.fd_ none = p.kernel := by
        rw [← hk, Function.update_eq_self]
      simp [Channel.remove, Poller.removeChannel, Poller.setSlot, hn, hi, hc, hu]
  | cAdded =>
      obtain ⟨hc, hk⟩ := (inStep_cAdded hi).mp h
      simp [Channel.remove, Poller.removeChannel, Poller.update, epoll_ctl, Poller.setSlot,
        hn, hi, hc, hk]

theorem inStep_set (h : InStep p c ch) {i : Channel.Interest}
    (hi : i.enables = true → ch.index_ ≠ .cDeleted) :
    InStep (Channel.set i c p ch).1 c (Channel.set i c p ch).2 := by
  rw [set_of_inStep h]
  cases hx : ch.index_ with
  | cNew => simp [InStep]
  | cDeleted =>
      have he : i.enables = false := by
        rw [Bool.eq_false_iff]
        exact fun he => hi he hx
      obtain ⟨-, hc, hk⟩ := (inStep_cDeleted hx).mp h
      simpa [InStep, hx, hc, hk] using Channel.Interest.assign_zero he
  | cAdded =>
      by_cases h0 : i.assign ch.events_ = 0#32
      · simp [InStep, h0]
      · simp [InStep, h0]

theorem inStep_remove (h : InStep p c ch) :
    InStep (Channel.remove c p ch).1 c (Channel.remove c p ch).2 := by
  by_cases h0 : ch.events_ = 0
  · rw [remove_of_inStep h h0]
    simpa [InStep] using h0
  · have hn : ch.isNoneEvent = false := by
      rw [Bool.eq_false_iff, Ne, Channel.isNoneEvent_iff]
      exact h0
    simpa [Channel.remove, hn] using h

/-- Every call of a channel leaves the other descriptors alone. -/
theorem set_slot_ne (h : InStep p c ch) (i : Channel.Interest) {fd : Fd} (hfd : fd ≠ ch.fd_) :
    (Channel.set i c p ch).1.channels_ fd = p.channels_ fd ∧
      (Channel.set i c p ch).1.kernel fd = p.kernel fd := by
  rw [set_of_inStep h]
  cases ch.index_ with
  | cNew => exact ⟨p.setSlot_channels_ne hfd _ _, p.setSlot_kernel_ne hfd _ _⟩
  | cDeleted => exact ⟨rfl, rfl⟩
  | cAdded =>
      dsimp only
      split <;> exact ⟨p.setSlot_channels_ne hfd _ _, p.setSlot_kernel_ne hfd _ _⟩

theorem remove_slot_ne (h : InStep p c ch) {fd : Fd} (hfd : fd ≠ ch.fd_) :
    (Channel.remove c p ch).1.channels_ fd = p.channels_ fd ∧
      (Channel.remove c p ch).1.kernel fd = p.kernel fd := by
  by_cases h0 : ch.events_ = 0
  · rw [remove_of_inStep h h0]
    exact ⟨p.setSlot_channels_ne hfd _ _, p.setSlot_kernel_ne hfd _ _⟩
  · have hn : ch.isNoneEvent = false := by
      rw [Bool.eq_false_iff, Ne, Channel.isNoneEvent_iff]
      exact h0
    simp [Channel.remove, hn]

@[simp] theorem set_fd_ (i : Channel.Interest) : (Channel.set i c p ch).2.fd_ = ch.fd_ := by
  unfold Channel.set Poller.updateChannel
  split <;> split_ifs <;> rfl

theorem set_events_ (i : Channel.Interest) :
    (Channel.set i c p ch).2.events_ = i.assign ch.events_ := by
  unfold Channel.set Poller.updateChannel
  split <;> split_ifs <;> rfl

theorem remove_fd_ : (Channel.remove c p ch).2.fd_ = ch.fd_ := by
  unfold Channel.remove Poller.removeChannel
  split_ifs <;> rfl

theorem remove_events_ : (Channel.remove c p ch).2.events_ = ch.events_ := by
  unfold Channel.remove Poller.removeChannel
  split_ifs <;> rfl

theorem remove_index_ :
    (Channel.remove c p ch).2.index_ = ch.index_ ∨ (Channel.remove c p ch).2.index_ = .cNew := by
  unfold Channel.remove Poller.removeChannel
  split_ifs
  all_goals first | exact .inl rfl | exact .inr rfl

end InStep

/-! ### Where entries come from -/

omit [DecidableEq ι] in
/-- `Poller::update` enters the channel under its own descriptor. -/
theorem update_kernel {p : Poller ι} {c : ι} {ch : Channel} {op : CtlOp} {fd : Fd}
    {e : EpollEvent ι} (h : (p.update op c ch).kernel fd = some e) :
    p.kernel fd = some e ∨ fd = ch.fd_ ∧ e.ptr = c := by
  by_cases hfd : fd = ch.fd_
  · subst hfd
    cases op <;> cases hk : p.kernel ch.fd_ <;>
      simp [Poller.update, epoll_ctl, hk] at h <;> simp [← h]
  · left
    cases op <;> cases hk : p.kernel ch.fd_ <;>
      simpa [Poller.update, epoll_ctl, hk, hfd] using h

theorem updateChannel_channels_ {p : Poller ι} {c r : ι} {ch : Channel} {fd : Fd}
    (h : (p.updateChannel c ch).1.channels_ fd = some r) :
    p.channels_ fd = some r ∨ fd = ch.fd_ ∧ r = c := by
  unfold Poller.updateChannel at h
  cases hx : ch.index_ with
  | cNew =>
      simp only [hx, Poller.update] at h
      split at h
      · by_cases hfd : fd = ch.fd_
        · subst hfd
          simp only [Function.update_self, Option.some.injEq] at h
          exact .inr ⟨rfl, h.symm⟩
        · simp only [Function.update_of_ne hfd] at h
          exact .inl h
      · exact .inl h
  | _ =>
      simp only [hx] at h
      split_ifs at h <;> exact .inl h

theorem updateChannel_kernel {p : Poller ι} {c : ι} {ch : Channel} {fd : Fd} {e : EpollEvent ι}
    (h : (p.updateChannel c ch).1.kernel fd = some e) :
    p.kernel fd = some e ∨ fd = ch.fd_ ∧ e.ptr = c := by
  unfold Poller.updateChannel at h
  cases hx : ch.index_ with
  | cNew =>
      simp only [hx] at h
      split at h <;> exact update_kernel h
  | cDeleted =>
      simp only [hx] at h
      split at h
      · exact .inl h
      · exact update_kernel h
  | cAdded =>
      simp only [hx] at h
      split_ifs at h
      · exact update_kernel h
      · exact update_kernel h
      · exact .inl h

/-! ### What the kernel was asked for -/

/-- The interest set agrees with `events()`: a nonzero mask is registered exactly, and for a
zero mask no event is requested. -/
def Agrees (p : Poller ι) (ch : Channel) : Prop :=
  (ch.events_ ≠ 0 → ∃ e, p.kernel ch.fd_ = some e ∧ e.events = ch.events_) ∧
    (ch.events_ = 0 → ∀ e, p.kernel ch.fd_ = some e → e.events = 0)

omit [DecidableEq ι] in
theorem InStep.agrees {p : Poller ι} {c : ι} {ch : Channel} (h : InStep p c ch) :
    Agrees p ch := by
  cases hi : ch.index_ with
  | cNew =>
      obtain ⟨he, -, hk⟩ := (inStep_cNew hi).mp h
      exact ⟨fun hne => absurd he hne, fun _ e hke => by rw [hk] at hke; cases hke⟩
  | cAdded =>
      obtain ⟨-, hk⟩ := (inStep_cAdded hi).mp h
      refine ⟨fun _ => ⟨_, hk, rfl⟩, fun he e hke => ?_⟩
      rw [hk] at hke
      cases hke
      exact he
  | cDeleted =>
      obtain ⟨he, -, hk⟩ := (inStep_cDeleted hi).mp h
      exact ⟨fun hne => absurd he hne, fun _ e hke => by rw [hk] at hke; cases hke⟩

/-- Enabling a channel whose index is `cDeleted` changes `events_` and nothing else. -/
theorem not_agrees_set_of_cDeleted {p : Poller ι} {c : ι} {ch : Channel} (h : InStep p c ch)
    (hd : ch.index_ = .cDeleted) {i : Channel.Interest} (hi : i.enables = true) :
    ¬ Agrees (Channel.set i c p ch).1 (Channel.set i c p ch).2 := by
  obtain ⟨-, -, hk⟩ := (inStep_cDeleted hd).mp h
  intro ha
  rw [set_of_inStep h, hd] at ha
  obtain ⟨e, he, -⟩ := ha.1 (Channel.Interest.assign_ne_zero hi 0)
  rw [hk] at he
  cases he

end NetworkStructure
