import NetworkStructure.Simulation
import NetworkStructure.NetworkThreads

/-! # The thread that waits

`NetworkListenerThread` waits on a condition variable, at most five seconds at a time, as long as
`isThreadRunning` is set.  `StopThread` clears the flag, notifies and joins.  It does not take the
mutex that the thread holds from its test of the flag to its wait, so the notification can fall
between the two and wake nobody.

`StopThread` returns all the same.  Once it has notified, the thread has at most three actions to
make, none of which waits for anything but the time; and one of them is the end of a whole wait
exactly when the notification fell between test and wait (`stopThread_returns`).  Between the
calls, the handle has been used as if each of them were one action, as `NetworkThreads.lean` takes
them. -/

namespace NetworkStructure

/-- Where the thread of the handle `listenerT` is. -/
inductive ListenerPc where
  /-- There is none. -/
  | notJoinable
  /-- About to read `isThreadRunning`. -/
  | testing
  /-- It has read `true`, and is about to call `wait_for`. -/
  | entering
  | waiting
  | ended
deriving DecidableEq, Repr

/-- `notify_one`: the thread is woken if it waits. -/
def ListenerPc.notified : ListenerPc → ListenerPc
  | waiting => testing
  | pc => pc

/-- Where the thread that calls `StarThread` and `StopThread` is. -/
inductive StarterPc where
  | idle
  /-- `StarThread` has set the flag. -/
  | starting
  /-- `StopThread` has cleared the flag. -/
  | stopping
  /-- `StopThread` has notified, and is in `join`. -/
  | joining
  | terminated
deriving DecidableEq, Repr

structure Listener where
  isThreadRunning : Bool := false
  listenerT : ListenerPc := .notJoinable
  starter : StarterPc := .idle
deriving DecidableEq, Repr

inductive ListenerAction where
  /-- `StarThread` reads the flag, and sets it if it is clear; nobody else writes it. -/
  | starThread
  | assign
  /-- `StopThread` reads the flag, and clears it if it is set. -/
  | stopThread
  | notify_one
  | join
  | test
  | wait_for
  /-- `wait_for` returns, because of the time or for no reason. -/
  | expire
deriving DecidableEq, Repr

namespace Listener

/-- One atomic action; `none` where it cannot be made, or not yet. -/
def act (s : Listener) : ListenerAction → Option Listener
  | .starThread =>
      if s.starter = .idle then
        if s.isThreadRunning then some s
        else some { s with isThreadRunning := true, starter := .starting }
      else none
  | .assign =>
      if s.starter = .starting then
        if s.listenerT = .notJoinable then some { s with listenerT := .testing, starter := .idle }
        else some { s with starter := .terminated }
      else none
  | .stopThread =>
      if s.starter = .idle then
        if s.isThreadRunning then some { s with isThreadRunning := false, starter := .stopping }
        else some s
      else none
  | .notify_one =>
      if s.starter = .stopping then
        some { s with listenerT := s.listenerT.notified, starter := .joining }
      else none
  | .join =>
      if s.starter = .joining then
        match s.listenerT with
        | .notJoinable => some { s with starter := .terminated }
        | .ended => some { s with listenerT := .notJoinable, starter := .idle }
        | _ => none
      else none
  | .test =>
      if s.listenerT = .testing then
        some { s with listenerT := if s.isThreadRunning then .entering else .ended }
      else none
  | .wait_for =>
      if s.listenerT = .entering then some { s with listenerT := .waiting } else none
  | .expire =>
      if s.listenerT = .waiting then some { s with listenerT := .testing } else none

end Listener

def ListenerStep (s : Listener) (a : ListenerAction) (t : Listener) : Prop := s.act a = some t

instance (s : Listener) (a : ListenerAction) (t : Listener) : Decidable (ListenerStep s a t) :=
  inferInstanceAs (Decidable (_ = _))

/-- What an action does to the handle. -/
def ListenerAction.ops : ListenerAction → List (ThreadOp ThreadHandle)
  | assign => [.assign .listenerT]
  | join => [.join .listenerT]
  | _ => []

/-- The call that an action begins. -/
def ListenerAction.calls : ListenerAction → List (GuardedCall ThreadOwner)
  | starThread => Network.starThread
  | stopThread => Network.stopThread
  | _ => []

/-- What the call that is under way has still to do to the handle. -/
def StarterPc.due : StarterPc → List (ThreadOp ThreadHandle)
  | starting => [.assign .listenerT]
  | stopping | joining => [.join .listenerT]
  | _ => []

def Listener.running (s : Listener) : Finset ThreadOwner :=
  if s.isThreadRunning then {.listener} else ∅

namespace ListenerPc

/-- The thread has been started, and the flag has not been clear when it looked. -/
def Looping (pc : ListenerPc) : Prop := pc = testing ∨ pc = entering ∨ pc = waiting

theorem Looping.joinable {pc : ListenerPc} (h : pc.Looping) : pc ≠ notJoinable := by
  rcases h with rfl | rfl | rfl <;> simp

theorem notified_ne {pc : ListenerPc} (h : pc ≠ notJoinable) : pc.notified ≠ notJoinable := by
  cases pc <;> simp_all [notified]

/-- The actions that the thread has left once the flag is clear. -/
def toGo : ListenerPc → ℕ
  | entering => 3
  | waiting => 2
  | testing => 1
  | _ => 0

/-- The waits that it has left then. -/
def waits : ListenerPc → ℕ
  | entering | waiting => 1
  | _ => 0

theorem toGo_notified (pc : ListenerPc) : pc.notified.toGo ≤ 3 := by
  cases pc <;> decide

/-- The notification ends a wait, but not one that has not begun. -/
theorem waits_notified (pc : ListenerPc) :
    pc.notified.waits = if pc = entering then 1 else 0 := by
  cases pc <;> rfl

end ListenerPc

namespace Listener

open ListenerPc

variable {s t u v : Listener} {a : ListenerAction} {mid : List ListenerAction}

/-- The flag and the handle are as the one who calls expects them. -/
def Inv (s : Listener) : Prop :=
  match s.starter with
  | .idle => if s.isThreadRunning then s.listenerT.Looping else s.listenerT = .notJoinable
  | .starting => s.isThreadRunning = true ∧ s.listenerT = .notJoinable
  | .stopping | .joining => s.isThreadRunning = false ∧ s.listenerT ≠ .notJoinable
  | .terminated => False

theorem Inv.idle (h : s.Inv) (hs : s.starter = .idle) :
    if s.isThreadRunning then s.listenerT.Looping else s.listenerT = .notJoinable := by
  unfold Inv at h
  rwa [hs] at h

theorem Inv.starting (h : s.Inv) (hs : s.starter = .starting) :
    s.isThreadRunning = true ∧ s.listenerT = .notJoinable := by
  unfold Inv at h
  rwa [hs] at h

theorem Inv.stopping (h : s.Inv) (hs : s.starter = .stopping) :
    s.isThreadRunning = false ∧ s.listenerT ≠ .notJoinable := by
  unfold Inv at h
  rwa [hs] at h

theorem Inv.joining (h : s.Inv) (hs : s.starter = .joining) :
    s.isThreadRunning = false ∧ s.listenerT ≠ .notJoinable := by
  unfold Inv at h
  rwa [hs] at h

/-- What the thread does keeps the invariant. -/
theorem Inv.moved {pc : ListenerPc} (h : s.Inv) (hne : s.listenerT ≠ .notJoinable)
    (hpc : pc ≠ .notJoinable) (hloop : s.isThreadRunning = true → pc.Looping) :
    Inv { s with listenerT := pc } := by
  obtain ⟨flag, old, starter⟩ := s
  cases starter with
  | idle =>
      cases flag with
      | false => exact absurd h hne
      | true => exact hloop rfl
  | starting => exact absurd h.2 hne
  | stopping | joining => exact ⟨h.1, hpc⟩
  | terminated => exact h

theorem inv_step (hi : s.Inv) (h : ListenerStep s a t) : t.Inv := by
  cases a with
  | starThread =>
      obtain ⟨hidle, h⟩ := Option.ite_none_right_eq_some.mp h
      have hflag := hi.idle hidle
      by_cases hr : s.isThreadRunning = true
      · rw [if_pos hr] at h
        exact Option.some.inj h ▸ hi
      · rw [if_neg hr] at h hflag
        obtain rfl := Option.some.inj h
        exact ⟨rfl, hflag⟩
  | assign =>
      obtain ⟨hs, h⟩ := Option.ite_none_right_eq_some.mp h
      obtain ⟨hflag, hnone⟩ := hi.starting hs
      rw [if_pos hnone] at h
      obtain rfl := Option.some.inj h
      exact (if_pos hflag).mpr (.inl rfl)
  | stopThread =>
      obtain ⟨hidle, h⟩ := Option.ite_none_right_eq_some.mp h
      have hflag := hi.idle hidle
      by_cases hr : s.isThreadRunning = true
      · rw [if_pos hr] at h hflag
        obtain rfl := Option.some.inj h
        exact ⟨rfl, hflag.joinable⟩
      · rw [if_neg hr] at h
        exact Option.some.inj h ▸ hi
  | notify_one =>
      obtain ⟨hs, h⟩ := Option.ite_none_right_eq_some.mp h
      obtain ⟨hflag, hne⟩ := hi.stopping hs
      obtain rfl := Option.some.inj h
      exact ⟨hflag, notified_ne hne⟩
  | join =>
      obtain ⟨hs, h⟩ := Option.ite_none_right_eq_some.mp h
      obtain ⟨hflag, hne⟩ := hi.joining hs
      split at h
      · next hnone => exact absurd hnone hne
      · obtain rfl := Option.some.inj h
        simp [Inv, hflag]
      · cases h
  | test =>
      obtain ⟨hpc, h⟩ := Option.ite_none_right_eq_some.mp h
      obtain rfl := Option.some.inj h
      refine hi.moved (by simp [hpc]) ?_ fun hr => by simp [hr, Looping]
      split <;> simp
  | wait_for =>
      obtain ⟨hpc, h⟩ := Option.ite_none_right_eq_some.mp h
      obtain rfl := Option.some.inj h
      exact hi.moved (by simp [hpc]) (by simp) fun _ => .inr (.inr rfl)
  | expire =>
      obtain ⟨hpc, h⟩ := Option.ite_none_right_eq_some.mp h
      obtain rfl := Option.some.inj h
      exact hi.moved (by simp [hpc]) (by simp) fun _ => .inl rfl

/-! ### In `join` -/

/-- **What is left** is less by each action of the thread, and by each wait that ends. -/
theorem joining_step (hi : s.Inv) (hs : s.starter = .joining) (h : ListenerStep s a t)
    (ha : a ≠ .join) : t.starter = .joining ∧ t.listenerT.toGo + 1 = s.listenerT.toGo ∧
      t.listenerT.waits + [a].count .expire = s.listenerT.waits := by
  have hflag := (hi.joining hs).1
  cases a with
  | join => exact absurd rfl ha
  | test =>
      obtain ⟨hpc, h⟩ := Option.ite_none_right_eq_some.mp h
      obtain rfl := Option.some.inj h
      rw [hflag, hpc]
      exact ⟨hs, rfl, rfl⟩
  | wait_for | expire =>
      obtain ⟨hpc, h⟩ := Option.ite_none_right_eq_some.mp h
      obtain rfl := Option.some.inj h
      rw [hpc]
      exact ⟨hs, rfl, rfl⟩
  | starThread | assign | stopThread | notify_one =>
      obtain ⟨hother, -⟩ := Option.ite_none_right_eq_some.mp h
      rw [hs] at hother
      cases hother

theorem joining_run (h : Run ListenerStep t mid u) (hi : t.Inv) (hs : t.starter = .joining)
    (hmid : .join ∉ mid) : u.Inv ∧ u.starter = .joining ∧
      u.listenerT.toGo + mid.length = t.listenerT.toGo ∧
      u.listenerT.waits + mid.count .expire = t.listenerT.waits := by
  induction h with
  | nil => exact ⟨hi, hs, rfl, rfl⟩
  | @cons t t' u a mid ht hrun ih =>
      obtain ⟨ha, hmid⟩ := not_or.mp (mt List.mem_cons.mpr hmid)
      obtain ⟨hs', htoGo, hwaits⟩ := joining_step hi hs ht (Ne.symm ha)
      obtain ⟨hu, hsu, hlen, hcount⟩ := ih (inv_step hi ht) hs' hmid
      refine ⟨hu, hsu, ?_, ?_⟩
      · rw [List.length_cons]
        omega
      · rw [List.count_cons, ← List.count_singleton]
        omega

/-- While the thread has an action left it can make one; then it can be joined. -/
theorem joining_goes_on (hi : s.Inv) (hs : s.starter = .joining) :
    ∃ a t, ListenerStep s a t := by
  obtain ⟨-, hne⟩ := hi.joining hs
  cases hpc : s.listenerT with
  | notJoinable => exact absurd hpc hne
  | testing => exact ⟨.test, _, if_pos hpc⟩
  | entering => exact ⟨.wait_for, _, if_pos hpc⟩
  | waiting => exact ⟨.expire, _, if_pos hpc⟩
  | ended => exact ⟨.join, _, by rw [ListenerStep, act, if_pos hs, hpc]⟩

/-! ### The calls -/

/-- One action: what its call does to the handle is done now, or is still due. -/
theorem guarded_step (hi : s.Inv) (h : ListenerStep s a t) :
    s.starter.due ++ guardedOps ThreadOwner.handle s.running a.calls = a.ops ++ t.starter.due ∧
      runningAfter s.running a.calls = t.running := by
  cases a with
  | starThread | stopThread =>
      obtain ⟨hidle, h⟩ := Option.ite_none_right_eq_some.mp h
      by_cases hr : s.isThreadRunning = true
      · rw [if_pos hr] at h
        obtain rfl := Option.some.inj h
        rw [hidle, running, if_pos hr]
        exact ⟨rfl, rfl⟩
      · rw [if_neg hr] at h
        obtain rfl := Option.some.inj h
        rw [hidle, running, if_neg hr]
        exact ⟨rfl, rfl⟩
  | assign =>
      obtain ⟨hs, h⟩ := Option.ite_none_right_eq_some.mp h
      rw [if_pos (hi.starting hs).2] at h
      obtain rfl := Option.some.inj h
      rw [hs]
      exact ⟨rfl, rfl⟩
  | notify_one =>
      obtain ⟨hs, h⟩ := Option.ite_none_right_eq_some.mp h
      obtain rfl := Option.some.inj h
      rw [hs]
      exact ⟨rfl, rfl⟩
  | join =>
      obtain ⟨hs, h⟩ := Option.ite_none_right_eq_some.mp h
      split at h
      · next hnone => exact absurd hnone (hi.joining hs).2
      · obtain rfl := Option.some.inj h
        rw [hs]
        exact ⟨rfl, rfl⟩
      · cases h
  | test | wait_for | expire =>
      obtain ⟨-, h⟩ := Option.ite_none_right_eq_some.mp h
      obtain rfl := Option.some.inj h
      exact ⟨List.append_nil _, rfl⟩

/-- **The calls are atomic for the handle**: between them, it has been used as by one call after
another. -/
theorem guarded_run {ls : List ListenerAction} (h : Run ListenerStep s ls t) (hi : s.Inv) :
    s.starter.due ++
        guardedOps ThreadOwner.handle s.running (ls.flatMap ListenerAction.calls) =
      ls.flatMap ListenerAction.ops ++ t.starter.due := by
  induction h with
  | nil => exact List.append_nil _
  | @cons s u t a ls hs hrun ih =>
      obtain ⟨hops, hrunning⟩ := guarded_step hi hs
      rw [List.flatMap_cons, List.flatMap_cons, guardedOps_append, hrunning, ← List.append_assoc,
        hops, List.append_assoc, ih (inv_step hi hs), List.append_assoc]

end Listener

open Listener ListenerPc in
/-- **`StopThread` returns**, in every run: in `join` the thread makes at most three actions, it is
never stuck, and when it is joined all is as before `StarThread`; and a wait had to end by itself
exactly when the thread was between its test of the flag and `wait_for` at the notification. -/
theorem stopThread_returns {done mid : List ListenerAction} {s t u : Listener}
    (hdone : Run ListenerStep {} done s) (hnotify : ListenerStep s .notify_one t)
    (hmid : Run ListenerStep t mid u) (hjoin : .join ∉ mid) :
    mid.length ≤ 3 ∧ (∃ a v, ListenerStep u a v) ∧
    ∀ v, ListenerStep u .join v → v = {} ∧
      mid.count .expire = (if s.listenerT = .entering then 1 else 0) ∧
      ∀ ls : List ListenerAction, ls = done ++ .notify_one :: (mid ++ [.join]) →
        ls.flatMap ListenerAction.ops =
          guardedOps ThreadOwner.handle ∅ (ls.flatMap ListenerAction.calls) := by
  have hs : s.Inv := hdone.invariant (fun _ _ _ hi h => inv_step hi h) rfl
  have ht := inv_step hs hnotify
  have hgo := hdone.append (.cons hnotify hmid)
  obtain ⟨-, hnotify⟩ := Option.ite_none_right_eq_some.mp hnotify
  obtain rfl := Option.some.inj hnotify
  obtain ⟨hu, hjoining, hlen, hcount⟩ := joining_run hmid ht rfl hjoin
  have htoGo := toGo_notified s.listenerT
  change u.listenerT.toGo + mid.length = s.listenerT.notified.toGo at hlen
  refine ⟨by omega, joining_goes_on hu hjoining, fun v hv => ?_⟩
  obtain ⟨hflag, hne⟩ := hu.joining hjoining
  have hall := guarded_run (hgo.append (.cons hv (.nil v))) rfl
  obtain ⟨-, hv⟩ := Option.ite_none_right_eq_some.mp hv
  cases hpc : u.listenerT with
  | notJoinable => exact absurd hpc hne
  | testing | entering | waiting =>
      rw [hpc] at hv
      cases hv
  | ended =>
      rw [hpc] at hv hcount
      obtain rfl := Option.some.inj hv
      refine ⟨by rw [hflag], ?_, ?_⟩
      · rw [← waits_notified, ← hcount]
        exact (Nat.zero_add _).symm
      · rintro ls rfl
        rw [List.append_assoc] at hall
        exact (hall.trans (List.append_nil _)).symm

/-- The notification falls between the test of the flag and `wait_for`. -/
theorem stopThread_returns_missed :
    ∃ u : Listener, ListenerStep u .join {} ∧
      Run ListenerStep { listenerT := .entering, starter := .joining }
        [.wait_for, .expire, .test] u ∧
      [ListenerAction.wait_for, .expire, .test].count .expire = 1 := by
  have run : Run ListenerStep {} [.starThread, .assign, .test, .stopThread]
      { listenerT := .entering, starter := .stopping } := run_of_foldlM rfl
  have hmid : Run ListenerStep { listenerT := .entering, starter := .joining }
      [.wait_for, .expire, .test] { listenerT := .ended, starter := .joining } := run_of_foldlM rfl
  have h := stopThread_returns run rfl hmid (by decide)
  exact ⟨{ listenerT := .ended, starter := .joining }, rfl, hmid, (h.2.2 {} rfl).2.1⟩

end NetworkStructure
