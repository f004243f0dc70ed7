import NetworkStructure.LoopThreads

/-! # Quitting

`quitLoop` sets `quit_` and writes the eventfd, unless it runs on the thread `threadId_`.  Two
things must not happen once it has returned: that `quit_` is false again, and that the loop
waits in `poll` with `quit_` set and the eventfd empty.

The history of a run notes whether `quitLoop` has been called and whether a call has returned.
Two steps decide.  The spawned thread executes `quit_ = false` when it gets to run, and undoes
every call made before that; and a call on `threadId_` skips the write although that is not the
thread that polls.  `Heard` is the condition that neither goes wrong, and it is exact
(`quitKept_iff`). -/

namespace NetworkStructure

namespace LoopPc

/-- `loop()` has been called. -/
def started {φ : Type} : LoopPc φ → Bool
  | notStarted => false
  | _ => true

end LoopPc

namespace LoopThreads

variable {ι φ : Type}

/-- The thread is inside `quitLoop`, past the assignment. -/
def InQuitLoop (s : LoopThreads ι φ) (me : ThreadId) : Prop :=
  s.calls me = .quitSet ∨ s.calls me = .waking false

/-- Nothing will end the wait of the loop in `poll` but another descriptor or the timeout. -/
def Waits (s : LoopThreads ι φ) : Prop := s.pc = .polling ∧ s.loop.wakeupFd_ = 0

/-- Does this action end a call of `quitLoop`? -/
def quitReturns (s : LoopThreads ι φ) : LoopAction φ → Bool
  | .testQuitWakeup me => s.loop.isInLoopThread me
  | .wakeup me => decide (s.calls me = .waking false)
  | _ => false

end LoopThreads

/-- The threads, with the history of `quitLoop`. -/
structure QuitHistory (ι φ : Type) where
  state : LoopThreads ι φ
  called : Bool := false
  returned : Bool := false

namespace QuitHistory

variable {ι φ : Type}

def init (ι φ : Type) (threadId loopTid : ThreadId) : QuitHistory ι φ :=
  { state := .init ι φ threadId loopTid }

/-- One atomic action; `quitLoop` is called after `loop()`. -/
def act (h : QuitHistory ι φ) (a : LoopAction φ) : Option (QuitHistory ι φ) :=
  match a with
  | .setQuit _ =>
      if h.state.pc.started then
        (h.state.act a).map fun t => { h with state := t, called := true }
      else none
  | _ => (h.state.act a).map fun t =>
      { h with state := t, returned := h.returned || h.state.quitReturns a }

/-- **Quit is not lost**: once `quitLoop` has returned, `quit_` is set and the loop does not
wait in `poll` with the eventfd empty. -/
def Kept (h : QuitHistory ι φ) : Prop :=
  h.returned = true → h.state.loop.quit_ = true ∧ ¬ h.state.Waits

/-- The same, with `quit_` set from the call on. -/
def KeptFromCall (h : QuitHistory ι φ) : Prop :=
  (h.called = true → h.state.loop.quit_ = true) ∧ (h.returned = true → ¬ h.state.Waits)

/-- `loopthread` starts before the first call of `quitLoop`, and no call on the thread
`threadId_` decides against the write while the loop waits in `poll` with the eventfd empty. -/
def Heard (h : QuitHistory ι φ) (a : LoopAction φ) (_ : QuitHistory ι φ) : Prop :=
  match a with
  | .start => h.state.loop.quit_ = false
  | .testQuitWakeup me => h.state.loop.isInLoopThread me = true → ¬ h.state.Waits
  | _ => True

end QuitHistory

def QuitStep {ι φ : Type} (h : QuitHistory ι φ) (a : LoopAction φ) (k : QuitHistory ι φ) : Prop :=
  h.act a = some k

open LoopThreads QuitHistory

variable {ι φ : Type}

/-- A step is an action of the threads, noted in the history. -/
theorem QuitStep.cases {h k : QuitHistory ι φ} {a : LoopAction φ} (hs : QuitStep h a k) :
    LoopMove h.state a k.state ∧
      ((∃ me, a = .setQuit me) ∧ k.called = true ∧ k.returned = h.returned ∨
        (∀ me, a ≠ .setQuit me) ∧ k.called = h.called ∧
          k.returned = (h.returned || h.state.quitReturns a)) := by
  unfold QuitStep QuitHistory.act at hs
  split at hs
  · split at hs
    · obtain ⟨t, ht, rfl⟩ := Option.map_eq_some_iff.mp hs
      exact ⟨LoopStep.move ht, .inl ⟨⟨_, rfl⟩, rfl, rfl⟩⟩
    · cases hs
  · next hne =>
      obtain ⟨t, ht, rfl⟩ := Option.map_eq_some_iff.mp hs
      exact ⟨LoopStep.move ht, .inr ⟨hne, rfl, rfl⟩⟩

/-! ### The invariant -/

namespace LoopThreads

/-- Who is inside `quitLoop` after an action: a thread that was, or the one that has just
assigned `quit_`. -/
theorem inQuitLoop_move {s t : LoopThreads ι φ} {a : LoopAction φ} (h : LoopMove s a t)
    {me : ThreadId} (hme : t.InQuitLoop me) : s.InQuitLoop me ∨ a = .setQuit me := by
  have hset : ∀ (other : ThreadId) (p : CallPc),
      Function.update s.calls other p me = .quitSet ∨
        Function.update s.calls other p me = .waking false →
      s.InQuitLoop me ∨ me = other ∧ (p = .quitSet ∨ p = .waking false) := by
    intro other p hp
    by_cases he : me = other
    · subst he
      rw [Function.update_self] at hp
      exact .inr ⟨rfl, hp⟩
    · rw [Function.update_of_ne he] at hp
      exact .inl hp
  cases h with
  | queueInLoop | runQueued => exact .inl ((hset _ _ hme).resolve_right (by simp))
  | @testWakeup other hc =>
      refine .inl ((hset _ _ hme).resolve_right ?_)
      split <;> simp
  | wakeup => exact .inl ((hset _ _ hme).resolve_right (by simp))
  | setQuit =>
      rcases hset _ _ hme with hin | ⟨rfl, -⟩
      · exact .inl hin
      · exact .inr rfl
  | @testQuitWakeup other hc =>
      rcases hset _ _ hme with hin | ⟨rfl, -⟩
      · exact .inl hin
      · exact .inl (.inl hc)
  | _ => exact .inl hme

/-- An action that ends a call of `quitLoop` is made by a thread inside it. -/
theorem inQuitLoop_of_quitReturns {s t : LoopThreads ι φ} {a : LoopAction φ}
    (h : LoopMove s a t) (hr : s.quitReturns a = true) : ∃ me, s.InQuitLoop me := by
  cases h with
  | testQuitWakeup hc => exact ⟨_, .inl hc⟩
  | wakeup hc => exact ⟨_, .inr (of_decide_eq_true hr)⟩
  | _ => cases hr

/-- Outside `setQuit` and `start`, an action leaves `quit_` alone. -/
theorem quit_move {s t : LoopThreads ι φ} {a : LoopAction φ} (h : LoopMove s a t)
    (hset : ∀ me, a ≠ .setQuit me) (hstart : a ≠ .start) : t.loop.quit_ = s.loop.quit_ := by
  cases h with
  | setQuit => exact absurd rfl (hset _)
  | start => exact absurd rfl hstart
  | _ => rfl

/-- The loop begins to wait with the eventfd empty only when it has read `quit_` as false. -/
theorem waits_move {s t : LoopThreads ι φ} {a : LoopAction φ} (h : LoopMove s a t)
    (ht : t.Waits) : s.Waits ∨ a = .testQuit ∧ s.loop.quit_ = false := by
  obtain ⟨hpc, hfd⟩ := ht
  cases h with
  | testQuit h =>
      refine .inr ⟨rfl, ?_⟩
      cases hq : s.loop.quit_ with
      | false => rfl
      | true => simp [hq] at hpc
  | wakeup => exact absurd hfd (eventfdWrite_ne_zero _)
  | queueInLoop | runQueued | runHere | testWakeup | setQuit | testQuitWakeup =>
      exact .inl ⟨hpc, hfd⟩
  | _ => cases hpc

end LoopThreads

namespace QuitHistory

/-- A call that is under way or has returned has been made, `quit_` is set exactly from the
first call on, and the loop does not wait after a call has returned. -/
structure QuitInv (h : QuitHistory ι φ) : Prop where
  inside : ∀ me, h.state.InQuitLoop me → h.called = true
  called : h.returned = true → h.called = true
  quit : h.state.loop.quit_ = h.called
  awake : h.returned = true → ¬ h.state.Waits

theorem QuitInv.kept {h : QuitHistory ι φ} (hI : QuitInv h) : Kept h :=
  fun hr => ⟨hI.quit.trans (hI.called hr), hI.awake hr⟩

theorem QuitInv.keptFromCall {h : QuitHistory ι φ} (hI : QuitInv h) : KeptFromCall h :=
  ⟨fun hc => hI.quit.trans hc, hI.awake⟩

theorem quitInv_init (threadId loopTid : ThreadId) : QuitInv (init ι φ threadId loopTid) := by
  refine ⟨fun me hme => ?_, fun h => h, rfl, fun h => by cases h⟩
  rcases hme with hme | hme <;> cases hme

/-- The call that returns has written the eventfd, or the loop does not wait. -/
theorem not_waits_of_quitReturns {h k : QuitHistory ι φ} {a : LoopAction φ}
    (hm : LoopMove h.state a k.state) (hr : h.state.quitReturns a = true)
    (hh : Heard h a k) : ¬ k.state.Waits := by
  intro hw
  rcases waits_move hm hw with hw' | ⟨rfl, -⟩
  · cases a with
    | testQuitWakeup me => exact hh hr hw'
    | wakeup me =>
        generalize k.state = s at hm hw
        cases hm with
        | wakeup => exact eventfdWrite_ne_zero _ hw.2
    | _ => cases hr
  · cases hr

theorem quitInv_step {h k : QuitHistory ι φ} {a : LoopAction φ} (hI : QuitInv h)
    (hs : QuitStep h a k) (hh : Heard h a k) : QuitInv k := by
  obtain ⟨hm, ⟨⟨me, rfl⟩, hc, hr⟩ | ⟨hne, hc, hr⟩⟩ := hs.cases
  · -- a new call
    refine ⟨fun _ _ => hc, fun _ => hc, ?_, fun hret hw => ?_⟩
    · rw [hc]
      generalize k.state = s at hm ⊢
      cases hm with
      | setQuit => rfl
    · rw [hr] at hret
      rcases waits_move hm hw with hw' | ⟨h, -⟩
      · exact hI.awake hret hw'
      · cases h
  · have hquit : k.state.loop.quit_ = k.called := by
      rw [hc]
      by_cases hst : a = .start
      · subst hst
        have hq : h.state.loop.quit_ = false := hh
        rw [← hI.quit, hq]
        generalize k.state = s at hm ⊢
        cases hm with
        | start => rfl
      · rw [quit_move hm hne hst, hI.quit]
    have hcalled : k.returned = true → k.called = true := by
      intro hret
      rw [hr, Bool.or_eq_true] at hret
      rw [hc]
      rcases hret with hret | hret
      · exact hI.called hret
      · obtain ⟨me, hme⟩ := inQuitLoop_of_quitReturns hm hret
        exact hI.inside me hme
    refine ⟨fun me hme => ?_, hcalled, hquit, fun hret hw => ?_⟩
    · rw [hc]
      exact hI.inside me ((inQuitLoop_move hm hme).resolve_right (hne me))
    · rw [hr, Bool.or_eq_true] at hret
      rcases hret with hret | hret
      · rcases waits_move hm hw with hw' | ⟨-, hq⟩
        · exact hI.awake hret hw'
        · rw [hI.quit, hI.called hret] at hq
          cases hq
      · exact not_waits_of_quitReturns hm hret hh hw

/-! ### The condition is necessary -/

theorem heard_of_keptFromCall {h k : QuitHistory ι φ} {a : LoopAction φ} (hI : QuitInv h)
    (hs : QuitStep h a k) (hk : KeptFromCall k) : Heard h a k := by
  obtain ⟨hm, hcase⟩ := hs.cases
  cases a with
  | start =>
      -- after the assignment `quit_` is false, so that no call has been made
      have hq : k.state.loop.quit_ = false := by
        generalize k.state = s at hm
        cases hm with
        | start => rfl
      have hc : k.called = h.called := by
        rcases hcase with ⟨⟨me, hme⟩, -⟩ | ⟨-, hc, -⟩
        · cases hme
        · exact hc
      show h.state.loop.quit_ = false
      rw [hI.quit, ← hc]
      cases hcall : k.called with
      | false => rfl
      | true => rw [hk.1 hcall] at hq; cases hq
  | testQuitWakeup me =>
      intro hin hw
      have hr : k.returned = true := by
        rcases hcase with ⟨⟨other, ho⟩, -⟩ | ⟨-, -, hr⟩
        · cases ho
        · rw [hr, Bool.or_eq_true]
          exact .inr hin
      apply hk.2 hr
      generalize k.state = s at hm
      cases hm with
      | testQuitWakeup => exact hw
  | _ => trivial

end QuitHistory

/-- **Quitting**: over any interleaving of `loop()` with calls of `quitLoop` made after it, in
which `loopthread` starts before the first call and no call on the thread `threadId_` skips the
write while the loop waits with the eventfd empty, `quit_` stays set once a call has returned
and the loop does not wait in `poll`.  The condition is exact for `quit_` being set from the
call on. -/
theorem quitKept_iff (threadId loopTid : ThreadId) (ls : List (LoopAction φ))
    (t : QuitHistory ι φ) :
    (RunWith QuitStep Heard (QuitHistory.init ι φ threadId loopTid) ls t → Kept t) ∧
      (RunWith QuitStep (fun _ _ u => KeptFromCall u)
          (QuitHistory.init ι φ threadId loopTid) ls t ↔
        RunWith QuitStep Heard (QuitHistory.init ι φ threadId loopTid) ls t) := by
  have hkeep : ∀ (s : QuitHistory ι φ) a t, QuitInv s → QuitStep s a t → Heard s a t →
      QuitInv t := fun _ _ _ hI hs hh => quitInv_step hI hs hh
  constructor
  · intro h
    exact (RunWith.invariant hkeep h (quitInv_init threadId loopTid)).kept
  · refine runWith_iff hkeep (fun s a t hI hs => ?_) (quitInv_init threadId loopTid)
    exact ⟨heard_of_keptFromCall hI hs, fun hh => (hkeep s a t hI hs hh).keptFromCall⟩

/-- Thread 0 constructs the loop and calls `loop()`.  When it calls `quitLoop` before thread 1
has started, `quit_` is reset and thread 1 goes on to poll; when it calls `quitLoop` while
thread 1 polls, the eventfd is not written.  In both runs the call has returned. -/
theorem quitLost :
    (∃ t : QuitHistory Unit ℕ,
      Run QuitStep (QuitHistory.init Unit ℕ 0 1)
        [.loop, .setQuit 0, .testQuitWakeup 0, .start, .testQuit] t ∧
      t.returned = true ∧ t.state.loop.quit_ = false ∧ t.state.pc = .polling ∧ ¬ Kept t) ∧
    ∃ t : QuitHistory Unit ℕ,
      Run QuitStep (QuitHistory.init Unit ℕ 0 1)
        [.loop, .start, .testQuit, .setQuit 0, .testQuitWakeup 0] t ∧
      t.returned = true ∧ t.state.loop.quit_ = true ∧ t.state.pc = .polling ∧
      t.state.loop.wakeupFd_ = 0 ∧ ¬ Kept t := by
  constructor
  · refine ⟨_, .cons rfl (.cons rfl (.cons rfl (.cons rfl (.cons rfl (.nil _))))), rfl, rfl, rfl,
      fun h => ?_⟩
    cases (h rfl).1
  · exact ⟨_, .cons rfl (.cons rfl (.cons rfl (.cons rfl (.cons rfl (.nil _))))), rfl, rfl, rfl,
      rfl, fun h => (h rfl).2 ⟨rfl, rfl⟩⟩

end NetworkStructure
