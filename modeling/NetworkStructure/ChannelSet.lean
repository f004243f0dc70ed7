import Mathlib.Logic.Embedding.Basic
import NetworkStructure.Poller

/-! # Sequences of channel calls

A set of channels on distinct descriptors shares one poller; its calls come in any order.
`RunWith CallStep Good` are the sequences after each call of which the interest set agrees
with every channel (and a channel removed with an empty mask is gone and can come back).
`RunWith CallStep EnablesKnown` are the sequences in which no channel is enabled while its
index is `cDeleted`.  They are the same sequences (`channelCalls_agree_iff`). -/

namespace NetworkStructure

variable {ι : Type} [DecidableEq ι]

/-- The channels `ι` and the poller they share. -/
structure ChannelSet (ι : Type) where
  poller : Poller ι
  chan : ι → Channel

/-- The public member functions of `Channel` that reach the poller. -/
inductive ChannelCall where
  | set (i : Channel.Interest)
  | remove
deriving DecidableEq, Repr

namespace ChannelSet

/-- Fresh channels on the descriptors `fd`, and an empty poller. -/
def fresh (fd : ι → Fd) : ChannelSet ι := ⟨{}, fun c => { fd_ := fd c }⟩

/-- The effect of one call on the poller and on the channel itself. -/
def effect (s : ChannelSet ι) (c : ι) : ChannelCall → Poller ι × Channel
  | .set i => Channel.set i c s.poller (s.chan c)
  | .remove => Channel.remove c s.poller (s.chan c)

def call (s : ChannelSet ι) (c : ι) (a : ChannelCall) : ChannelSet ι :=
  ⟨(s.effect c a).1, Function.update s.chan c (s.effect c a).2⟩

/-- Every channel is in step with the poller, and the descriptors are distinct. -/
structure Inv (s : ChannelSet ι) : Prop where
  inStep : ∀ c, InStep s.poller c (s.chan c)
  distinct : ∀ c d, (s.chan c).fd_ = (s.chan d).fd_ → c = d

omit [DecidableEq ι] in
theorem inv_fresh (fd : ι ↪ Fd) : Inv (fresh fd) :=
  ⟨fun _ => ⟨rfl, rfl, rfl⟩, fun _ _ h => fd.injective h⟩

/-- A channel is gone from the poller and a later enabling call registers it. -/
def Removed (s : ChannelSet ι) (c : ι) : Prop :=
  s.poller.channels_ (s.chan c).fd_ = none ∧ s.poller.kernel (s.chan c).fd_ = none ∧
    ∀ i : Channel.Interest, i.enables = true →
      Agrees (s.call c (.set i)).poller ((s.call c (.set i)).chan c) ∧
        ((s.call c (.set i)).chan c).events_ ≠ 0

end ChannelSet

open ChannelSet

/-- One call on one channel. -/
def CallStep (s : ChannelSet ι) (a : ι × ChannelCall) (t : ChannelSet ι) : Prop :=
  t = s.call a.1 a.2

/-- After the call every channel agrees with the interest set; a channel removed while it
wanted no event is out of `channels_` and of the interest set and can be registered again. -/
def Good (s : ChannelSet ι) (a : ι × ChannelCall) (t : ChannelSet ι) : Prop :=
  (∀ d, Agrees t.poller (t.chan d)) ∧
    (a.2 = .remove → (s.chan a.1).events_ = 0 → Removed t a.1)

/-- The call does not enable a channel whose index is `cDeleted`. -/
def EnablesKnown (s : ChannelSet ι) (a : ι × ChannelCall) (_ : ChannelSet ι) : Prop :=
  ∀ i, a.2 = .set i → i.enables = true → (s.chan a.1).index_ ≠ .cDeleted

namespace ChannelSet

variable {s : ChannelSet ι}

theorem effect_fd_ (c : ι) (a : ChannelCall) :
    (s.effect c a).2.fd_ = (s.chan c).fd_ := by
  cases a with
  | set i => exact set_fd_ i
  | remove => exact remove_fd_

theorem effect_slot_ne (h : Inv s) (c : ι) (a : ChannelCall) {fd : Fd}
    (hfd : fd ≠ (s.chan c).fd_) :
    (s.effect c a).1.channels_ fd = s.poller.channels_ fd ∧
      (s.effect c a).1.kernel fd = s.poller.kernel fd := by
  cases a with
  | set i => exact set_slot_ne (h.inStep c) i hfd
  | remove => exact remove_slot_ne (h.inStep c) hfd

theorem call_chan_fd_ (c d : ι) (a : ChannelCall) :
    ((s.call c a).chan d).fd_ = (s.chan d).fd_ := by
  by_cases hd : d = c
  · subst hd
    simpa [call] using effect_fd_ d a
  · simp [call, hd]

/-- One call keeps the invariant unless it enables a channel whose index is `cDeleted`. -/
theorem inv_call (h : Inv s) {a : ι × ChannelCall}
    (hk : EnablesKnown s a (s.call a.1 a.2)) : Inv (s.call a.1 a.2) := by
  obtain ⟨c, a⟩ := a
  refine ⟨fun d => ?_, fun d e hde => ?_⟩
  · by_cases hd : d = c
    · subst hd
      simp only [call, Function.update_self]
      cases a with
      | set i => exact inStep_set (h.inStep d) (hk i rfl)
      | remove => exact inStep_remove (h.inStep d)
    · simp only [call, Function.update_of_ne hd]
      have hfd : (s.chan d).fd_ ≠ (s.chan c).fd_ := fun he => hd (h.distinct d c he)
      obtain ⟨h₁, h₂⟩ := effect_slot_ne h c a hfd
      exact (h.inStep d).congr h₁ h₂
  · rw [call_chan_fd_, call_chan_fd_] at hde
    exact h.distinct d e hde

theorem removed_call (h : Inv s) {c : ι} (h0 : (s.chan c).events_ = 0) :
    Removed (s.call c .remove) c := by
  have hinv : Inv (s.call c .remove) :=
    inv_call (a := (c, .remove)) h (fun i hi => by cases hi)
  have he : s.effect c .remove = _ := remove_of_inStep (h.inStep c) h0
  have hx : ((s.call c .remove).chan c).index_ = .cNew := by simp [call, he]
  obtain ⟨-, hc, hk⟩ := (inStep_cNew hx).mp (hinv.inStep c)
  refine ⟨hc, hk, fun i hi => ?_⟩
  have hinv' : Inv ((s.call c .remove).call c (.set i)) := by
    refine inv_call (a := (c, .set i)) hinv fun _ _ _ => ?_
    rw [hx]
    decide
  refine ⟨(hinv'.inStep c).agrees, ?_⟩
  rw [show ((s.call c .remove).call c (.set i)).chan c =
    ((s.call c .remove).effect c (.set i)).2 by simp [call]]
  rw [effect, set_events_]
  exact Channel.Interest.assign_ne_zero hi _

/-- A single call is good exactly when it does not enable a channel whose index is
`cDeleted`. -/
theorem good_call_iff (h : Inv s) (a : ι × ChannelCall) :
    Good s a (s.call a.1 a.2) ↔ EnablesKnown s a (s.call a.1 a.2) := by
  constructor
  · rintro ⟨hag, -⟩ i hi hen hd
    have := hag a.1
    rw [hi] at this
    simp only [call, Function.update_self] at this
    exact not_agrees_set_of_cDeleted (h.inStep a.1) hd hen this
  · intro hk
    refine ⟨fun d => ((inv_call h hk).inStep d).agrees, fun hr h0 => ?_⟩
    rw [hr]
    exact removed_call h h0

end ChannelSet

/-- **Interest-set consistency**: over any sequence of calls on channels with distinct
descriptors, starting from fresh channels and an empty poller, the kernel's interest set
agrees with the channels after every call if and only if no call enables a channel whose
index is `cDeleted`. -/
theorem channelCalls_agree_iff (fd : ι ↪ Fd) (calls : List (ι × ChannelCall))
    (t : ChannelSet ι) :
    RunWith CallStep Good (fresh fd) calls t ↔
      RunWith CallStep EnablesKnown (fresh fd) calls t := by
  refine runWith_iff (I := Inv) ?_ ?_ (inv_fresh fd)
  · rintro s a t hI rfl hk
    exact inv_call hI hk
  · rintro s a t hI rfl
    exact good_call_iff hI a

/-- `enableReading(); disableAll(); enableReading();` on one fresh channel (descriptor 5)
leaves it wanting `EPOLLIN|EPOLLPRI` and absent from the interest set. -/
theorem channelCalls_not_agree :
    ∃ t : ChannelSet Unit,
      Run CallStep (fresh fun _ => 5)
        [((), .set .enableReading), ((), .set .disableAll), ((), .set .enableReading)] t ∧
      (t.chan ()).events_ = kReadEvent ∧ t.poller.kernel 5 = none ∧
      ¬ Agrees t.poller (t.chan ()) := by
  refine ⟨_, .cons rfl (.cons rfl (.cons rfl (.nil _))), rfl, rfl, fun h => ?_⟩
  obtain ⟨e, he, -⟩ := h.1 (by decide)
  cases he

end NetworkStructure
