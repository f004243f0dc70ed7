import NetworkStructure.Run
import Mathlib.Logic.Function.Basic

/-! # TimerCallback

One owner thread calls `Start` and `Stop`; each `Start` allocates a flag, points `lastEnable` at
it, increments `nThread` and detaches a thread, which sleeps, runs the task if the flag is still
set, deletes the flag and decrements `nThread`.  The flag, the thread and the task of the `k`-th
`Start` are all named `k`.  A step is one atomic action of the owner or of one timer thread.

`Stop` stores through `lastEnable` when `nThread > 0`.  That some thread is outstanding does not
mean that the newest one is: the threads may finish in any order, and a thread deletes its flag
before it is discounted.  `InTime` is the condition that the newest flag is still allocated when
the guard passes and until the store; it is exact (`timerCallback_iff`).  A task whose flag was
reset in time, or that an idle `nThread` shows to be over, is never run, whatever the order. -/

namespace NetworkStructure

/-- Where a detached timer thread stands. -/
inductive TimerPc where
  | sleeping
  /-- The sleep is over; the flag is tested next. -/
  | awake
  /-- The flag was set; the task is run next. -/
  | enabled
  /-- The flag is deleted next. -/
  | finished
  /-- `nThread` is decremented next. -/
  | deleted
  | done
deriving DecidableEq, Repr

namespace TimerPc

/-- The thread has not tested its flag. -/
def untested : TimerPc → Bool
  | sleeping | awake => true
  | _ => false

/-- The thread has deleted its flag. -/
def gone : TimerPc → Bool
  | deleted | done => true
  | _ => false

/-- The thread is past its task. -/
def past : TimerPc → Bool
  | finished | deleted | done => true
  | _ => false

end TimerPc

/-- Where the owner stands inside `Stop` (`true`: called from `Start`) or `Start`. -/
inductive OwnerPc where
  | idle
  /-- The guard of `Stop` has passed; the store is next. -/
  | storing (starting : Bool)
  | allocating
  | counting
  | launching
deriving DecidableEq, Repr

namespace OwnerPc

def isStoring : OwnerPc → Bool
  | storing _ => true
  | _ => false

/-- `Start` has returned from its `Stop`. -/
def pastStop : OwnerPc → Bool
  | allocating | counting | launching => true
  | _ => false

/-- `lastEnable` points to a flag whose thread has not been launched. -/
def holdsNew : OwnerPc → Bool
  | counting | launching => true
  | _ => false

end OwnerPc

/-- The members of the class. -/
structure TimerCallback where
  lastEnable : Option ℕ := none
  nThread : ℕ := 0

/-- The guard of `Stop`: `lastEnable != NULL && nThread > 0`. -/
def TimerCallback.stores (c : TimerCallback) : Bool := c.lastEnable.isSome && decide (0 < c.nThread)

/-- The object with the flags, the threads and the owner.  The threads that exist at one time
are fewer than the counter can hold. -/
structure Timers where
  timer : TimerCallback := {}
  /-- The flags on the heap; `none`: not allocated. -/
  enable : ℕ → Option Bool := fun _ => none
  threads : List TimerPc := []
  owner : OwnerPc := .idle
  /-- The tasks that have been run. -/
  ran : List ℕ := []
  /-- The tasks whose threads had not tested their flags when a later call completed. -/
  cancelled : List ℕ := []
  /-- A store has been made through a pointer to a deleted flag. -/
  dangling : Bool := false

inductive TimerAction where
  | stop
  | start
  | store
  | allocate
  | count
  | launch
  | wake (i : ℕ)
  | test (i : ℕ)
  | run (i : ℕ)
  | free (i : ℕ)
  | discount (i : ℕ)
deriving DecidableEq, Repr

namespace Timers

def setThread (s : Timers) (i : ℕ) (p : TimerPc) : Timers :=
  { s with threads := s.threads.set i p }

/-- The tasks whose threads have not tested their flags. -/
def untested (s : Timers) : List ℕ :=
  (List.range s.threads.length).filter fun i => s.threads[i]?.any TimerPc.untested

/-- A call completes. -/
def complete (s : Timers) : Timers :=
  { s with owner := .idle, cancelled := s.cancelled ++ s.untested }

/-- What follows `Stop`: the rest of `Start`, or the caller. -/
def afterStop (s : Timers) (starting : Bool) : Timers :=
  if starting then { s with owner := .allocating } else s.complete

/-- A call of `Stop` up to the store. -/
def stop (s : Timers) (starting : Bool) : Timers :=
  if s.timer.stores then { s with owner := .storing starting } else s.afterStop starting

/-- `*lastEnable = false`. -/
def store (s : Timers) : Timers :=
  match s.timer.lastEnable with
  | none => s
  | some e =>
      match s.enable e with
      | none => { s with dangling := true }
      | some _ => { s with enable := Function.update s.enable e (some false) }

/-- One atomic action; `none` when it is not possible now. -/
def act (s : Timers) : TimerAction → Option Timers
  | .stop => if s.owner = .idle then some (s.stop false) else none
  | .start => if s.owner = .idle then some (s.stop true) else none
  | .store => match s.owner with
      | .storing starting => some (s.store.afterStop starting)
      | _ => none
  | .allocate =>
      if s.owner = .allocating then
        some { s with
          enable := Function.update s.enable s.threads.length (some true)
          timer := { s.timer with lastEnable := some s.threads.length }
          owner := .counting }
      else none
  | .count =>
      if s.owner = .counting then
        some { s with
          timer := { s.timer with nThread := s.timer.nThread + 1 }, owner := .launching }
      else none
  | .launch =>
      if s.owner = .launching then
        some { s.complete with threads := s.threads ++ [.sleeping] }
      else none
  | .wake i =>
      if s.threads[i]? = some .sleeping then some (s.setThread i .awake) else none
  | .test i =>
      if s.threads[i]? = some .awake then
        some (s.setThread i (if s.enable i = some true then .enabled else .finished))
      else none
  | .run i =>
      if s.threads[i]? = some .enabled then
        some { s.setThread i .finished with ran := s.ran ++ [i] }
      else none
  | .free i =>
      if s.threads[i]? = some .finished then
        some { s.setThread i .deleted with enable := Function.update s.enable i none }
      else none
  | .discount i =>
      if s.threads[i]? = some .deleted then
        some { s.setThread i .done with
          timer := { s.timer with nThread := s.timer.nThread - 1 } }
      else none

/-- **The lifetime of the flags**: no store was made to a deleted flag, and no task was run
whose thread had not tested its flag when a later call completed. -/
def Safe (s : Timers) : Prop := s.dangling = false ∧ ∀ i ∈ s.cancelled, i ∉ s.ran

/-- When the guard of `Stop` passes, the thread started last has not deleted its flag; and it
does not delete it between the guard and the store. -/
def InTime (s : Timers) (a : TimerAction) (_ : Timers) : Prop :=
  match a with
  | .stop | .start => s.timer.stores = true →
      ∀ e ∈ s.timer.lastEnable, ∀ p ∈ s.threads[e]?, p.gone = false
  | .free i => s.owner.isStoring = true → s.timer.lastEnable ≠ some i
  | _ => True

end Timers

def TimerStep (s : Timers) (a : TimerAction) (t : Timers) : Prop := s.act a = some t

/-- The actions with their guards and effects. -/
inductive TimerMove (s : Timers) : TimerAction → Timers → Prop
  | stop (h : s.owner = .idle) : TimerMove s .stop (s.stop false)
  | start (h : s.owner = .idle) : TimerMove s .start (s.stop true)
  | store {starting : Bool} (h : s.owner = .storing starting) :
      TimerMove s .store (s.store.afterStop starting)
  | allocate (h : s.owner = .allocating) :
      TimerMove s .allocate { s with
        enable := Function.update s.enable s.threads.length (some true)
        timer := { s.timer with lastEnable := some s.threads.length }
        owner := .counting }
  | count (h : s.owner = .counting) :
      TimerMove s .count { s with
        timer := { s.timer with nThread := s.timer.nThread + 1 }, owner := .launching }
  | launch (h : s.owner = .launching) :
      TimerMove s .launch { s.complete with threads := s.threads ++ [.sleeping] }
  | wake {i : ℕ} (h : s.threads[i]? = some .sleeping) :
      TimerMove s (.wake i) (s.setThread i .awake)
  | test {i : ℕ} (h : s.threads[i]? = some .awake) :
      TimerMove s (.test i)
        (s.setThread i (if s.enable i = some true then .enabled else .finished))
  | run {i : ℕ} (h : s.threads[i]? = some .enabled) :
      TimerMove s (.run i) { s.setThread i .finished with ran := s.ran ++ [i] }
  | free {i : ℕ} (h : s.threads[i]? = some .finished) :
      TimerMove s (.free i)
        { s.setThread i .deleted with enable := Function.update s.enable i none }
  | discount {i : ℕ} (h : s.threads[i]? = some .deleted) :
      TimerMove s (.discount i) { s.setThread i .done with
        timer := { s.timer with nThread := s.timer.nThread - 1 } }

theorem TimerStep.move {s t : Timers} {a : TimerAction} (h : TimerStep s a t) :
    TimerMove s a t := by
  unfold TimerStep at h
  cases a <;> simp only [Timers.act] at h <;> split at h <;> cases h
  · exact .stop ‹_›
  · exact .start ‹_›
  · exact .store ‹_›
  · exact .allocate ‹_›
  · exact .count ‹_›
  · exact .launch ‹_›
  · exact .wake ‹_›
  · exact .test ‹_›
  · exact .run ‹_›
  · exact .free ‹_›
  · exact .discount ‹_›

/-! ### The flags, the threads and the counter -/

namespace Timers

/-- The flags of all threads that are still to test them are reset. -/
def Disarmed (s : Timers) : Prop :=
  ∀ i p, s.threads[i]? = some p → p.untested = true → s.enable i = some false

/-- `lastEnable` is the newest flag, a flag is allocated until its thread deletes it, `nThread`
counts the threads that are not done, and of the flags that are still to be tested only the
newest can be set, and only until `Stop` has returned. -/
structure TimerInv (s : Timers) : Prop where
  newest : ∀ e, s.timer.lastEnable = some e ↔
    e + 1 = s.threads.length + (if s.owner.holdsNew then 1 else 0)
  fresh : s.owner.holdsNew = true → s.enable s.threads.length ≠ none
  allocated : ∀ i p, s.threads[i]? = some p → (s.enable i = none ↔ p.gone = true)
  counted : s.timer.nThread =
    s.threads.countP (fun p => decide (p ≠ .done)) + (if s.owner = .launching then 1 else 0)
  older : ∀ i p, s.threads[i]? = some p → p.untested = true → i + 1 < s.threads.length →
    s.enable i = some false
  disarmed : s.owner.pastStop = true → s.Disarmed
  ran : ∀ i ∈ s.ran, ∃ p, s.threads[i]? = some p ∧ p.past = true
  cancelled : ∀ i ∈ s.cancelled, i ∉ s.ran ∧
    ∃ p, s.threads[i]? = some p ∧ p ≠ .enabled ∧ (p.untested = true → s.enable i = some false)

theorem timerInv_init : TimerInv {} where
  newest e := by simp [OwnerPc.holdsNew]
  fresh h := by cases h
  allocated i p h := by cases h
  counted := rfl
  older i p h := by cases h
  disarmed h := by cases h
  ran i h := by cases h
  cancelled i h := by cases h

theorem mem_untested {s : Timers} {i : ℕ} :
    i ∈ s.untested ↔ ∃ p, s.threads[i]? = some p ∧ p.untested = true := by
  simp only [untested, List.mem_filter, List.mem_range, Option.any_eq_true]
  constructor
  · exact fun h => h.2
  · rintro ⟨p, hp, hu⟩
    exact ⟨(List.getElem?_eq_some_iff.mp hp).1, p, hp, hu⟩

theorem TimerInv.newest_of_not_holdsNew {s : Timers} (hI : TimerInv s)
    (hh : s.owner.holdsNew = false) {e : ℕ} :
    s.timer.lastEnable = some e ↔ e + 1 = s.threads.length := by
  rw [hI.newest e, hh]
  rfl

/-- A guard that does not pass shows that every thread is done. -/
theorem TimerInv.disarmed_of_not_stores {s : Timers} (hI : TimerInv s) (ho : s.owner = .idle)
    (h : s.timer.stores = false) : s.Disarmed := by
  intro i p hp hu
  obtain ⟨hlt, rfl⟩ := List.getElem?_eq_some_iff.mp hp
  have hlast : s.timer.lastEnable = some (s.threads.length - 1) :=
    (hI.newest_of_not_holdsNew (by rw [ho]; rfl)).mpr (by omega)
  have hn : s.threads.countP (fun p => decide (p ≠ .done)) = 0 := by
    have hc := hI.counted
    simp only [TimerCallback.stores, hlast, Option.isSome_some, Bool.true_and,
      decide_eq_false_iff_not] at h
    omega
  have hdone := List.countP_eq_zero.mp hn _ (List.getElem_mem hlt)
  simp only [ne_eq, decide_not, Bool.not_eq_true', decide_eq_false_iff_not, not_not] at hdone
  rw [hdone] at hu
  cases hu

/-- Once the flags are reset, the tasks that have not been tested will not be run. -/
theorem TimerInv.cancelled_complete {s : Timers} (hI : TimerInv s) (hd : s.Disarmed) :
    ∀ i ∈ s.complete.cancelled, i ∉ s.ran ∧
      ∃ p, s.threads[i]? = some p ∧ p ≠ .enabled ∧
        (p.untested = true → s.enable i = some false) := by
  intro i hi
  rcases List.mem_append.mp hi with hold | hnew
  · exact hI.cancelled i hold
  · obtain ⟨p, hp, hu⟩ := mem_untested.mp hnew
    refine ⟨fun hr => ?_, p, hp, fun he => ?_, fun _ => hd i p hp hu⟩
    · obtain ⟨q, hq, hpast⟩ := hI.ran i hr
      rw [hp] at hq
      cases hq
      cases p <;> simp [TimerPc.untested, TimerPc.past] at hu hpast
    · simp [he, TimerPc.untested] at hu

theorem TimerInv.complete {s : Timers} (hI : TimerInv s) (hh : s.owner.holdsNew = false)
    (hd : s.Disarmed) : TimerInv s.complete where
  newest e := hI.newest_of_not_holdsNew hh
  fresh h := by cases h
  allocated := hI.allocated
  counted := by
    have hne : s.owner ≠ .launching := by
      intro he
      simp [he, OwnerPc.holdsNew] at hh
    simpa [Timers.complete, hne] using hI.counted
  older := hI.older
  disarmed h := by cases h
  ran := hI.ran
  cancelled := hI.cancelled_complete hd

theorem TimerInv.afterStop {s : Timers} {starting : Bool} (hI : TimerInv s)
    (hp : s.owner.pastStop = false) (hd : s.Disarmed) : TimerInv (s.afterStop starting) := by
  have hh : s.owner.holdsNew = false := by
    cases ho : s.owner <;> simp [ho, OwnerPc.pastStop, OwnerPc.holdsNew] at hp ⊢
  have hl : s.owner ≠ .launching := by
    intro he
    simp [he, OwnerPc.holdsNew] at hh
  unfold Timers.afterStop
  cases starting with
  | false => exact hI.complete hh hd
  | true =>
      exact
        { newest := fun e => hI.newest_of_not_holdsNew hh
          fresh := fun h => by cases h
          allocated := hI.allocated
          counted := by simpa [hl] using hI.counted
          older := hI.older
          disarmed := fun _ => hd
          ran := hI.ran
          cancelled := hI.cancelled }

theorem TimerInv.stop {s : Timers} {starting : Bool} (hI : TimerInv s) (ho : s.owner = .idle) :
    TimerInv (s.stop starting) := by
  unfold Timers.stop
  split
  · exact
      { newest := by simpa [OwnerPc.holdsNew, ho] using hI.newest
        fresh := fun h => by cases h
        allocated := hI.allocated
        counted := by simpa [ho] using hI.counted
        older := hI.older
        disarmed := fun h => by cases h
        ran := hI.ran
        cancelled := hI.cancelled }
  · next h =>
      exact hI.afterStop (by rw [ho]; rfl)
        (hI.disarmed_of_not_stores ho (Bool.eq_false_iff.mpr h))

theorem TimerInv.enable_ne_none {s : Timers} (hI : TimerInv s) {i : ℕ} {p : TimerPc}
    (hp : s.threads[i]? = some p) (hg : p.gone = false) : s.enable i ≠ none := by
  intro hn
  rw [(hI.allocated i p hp).mp hn] at hg
  cases hg

theorem gone_of_untested {p : TimerPc} (h : p.untested = true) : p.gone = false := by
  cases p <;> simp [TimerPc.untested, TimerPc.gone] at h ⊢

/-- While the owner is about to store, `lastEnable` is the flag of the last thread. -/
theorem TimerInv.newest_of_storing {s : Timers} (hI : TimerInv s) (ho : s.owner.isStoring = true)
    {e : ℕ} : s.timer.lastEnable = some e ↔ e + 1 = s.threads.length := by
  have hh : s.owner.holdsNew = false := by
    cases h : s.owner <;> simp [h, OwnerPc.isStoring, OwnerPc.holdsNew] at ho ⊢
  exact hI.newest_of_not_holdsNew hh

/-- The store resets the newest flag, unless its thread has deleted it. -/
theorem TimerInv.disarmed_store {s : Timers} (hI : TimerInv s) (ho : s.owner.isStoring = true) :
    s.store.Disarmed := by
  intro i p hp hu
  unfold Timers.store at hp ⊢
  have holder : s.threads[i]? = some p → i + 1 ≠ s.threads.length → s.enable i = some false := by
    intro hp' hne
    have hlt := (List.getElem?_eq_some_iff.mp hp').1
    exact hI.older i p hp' hu (by omega)
  cases hl : s.timer.lastEnable with
  | none =>
      simp only [hl] at hp ⊢
      refine holder hp fun he => ?_
      rw [(hI.newest_of_storing ho).mpr he] at hl
      cases hl
  | some e =>
      have he := (hI.newest_of_storing ho).mp hl
      simp only [hl] at hp ⊢
      cases hen : s.enable e with
      | none =>
          simp only [hen] at hp ⊢
          refine holder hp fun hi => ?_
          obtain rfl : i = e := by omega
          exact hI.enable_ne_none hp (gone_of_untested hu) hen
      | some b =>
          simp only [hen] at hp ⊢
          by_cases hi : i = e
          · rw [hi, Function.update_self]
          · rw [Function.update_of_ne hi]
            exact holder hp (by omega)

theorem TimerInv.store {s : Timers} (hI : TimerInv s) : TimerInv s.store := by
  unfold Timers.store
  split
  · exact hI
  · next e hl =>
    split
    · exact { hI with }
    · next b hen =>
      have hreset : ∀ i, s.enable i = some false →
          Function.update s.enable e (some false) i = some false := by
        intro i h
        by_cases hi : i = e
        · rw [hi, Function.update_self]
        · rw [Function.update_of_ne hi, h]
      have hnone : ∀ i, Function.update s.enable e (some false) i = none ↔ s.enable i = none := by
        intro i
        by_cases hi : i = e
        · simp [hi, hen]
        · rw [Function.update_of_ne hi]
      exact
        { newest := hI.newest
          fresh := fun h hn => hI.fresh h ((hnone _).mp hn)
          allocated := fun i p hp => (hnone i).trans (hI.allocated i p hp)
          counted := hI.counted
          older := fun i p hp hu hlt => hreset i (hI.older i p hp hu hlt)
          disarmed := fun h i p hp hu => hreset i (hI.disarmed h i p hp hu)
          ran := hI.ran
          cancelled := fun i hi => by
            obtain ⟨hr, p, hp, hne, hoff⟩ := hI.cancelled i hi
            exact ⟨hr, p, hp, hne, fun hu => hreset i (hoff hu)⟩ }

theorem getElem?_set_cases {l : List TimerPc} {i j : ℕ} {q r : TimerPc}
    (h : (l.set i q)[j]? = some r) : j = i ∧ r = q ∨ j ≠ i ∧ l[j]? = some r := by
  rw [List.getElem?_set] at h
  split at h
  · next he =>
      split at h
      · exact .inl ⟨he.symm, (Option.some.inj h).symm⟩
      · cases h
  · next hne => exact .inr ⟨fun he => hne he.symm, h⟩

theorem countP_set_add {l : List TimerPc} {i : ℕ} {p q : TimerPc} (h : l[i]? = some p) :
    (l.set i q).countP (fun p => decide (p ≠ .done)) + (if p = .done then 0 else 1) =
      l.countP (fun p => decide (p ≠ .done)) + (if q = .done then 0 else 1) := by
  obtain ⟨hlt, rfl⟩ := List.getElem?_eq_some_iff.mp h
  have hpos : l[i] ≠ .done → 0 < l.countP (fun p => decide (p ≠ .done)) := fun hne =>
    List.countP_pos_iff.mpr ⟨l[i], List.getElem_mem hlt, decide_eq_true hne⟩
  rw [List.countP_set hlt]
  by_cases h1 : l[i] = .done
  · by_cases h2 : q = .done <;> simp [h1, h2]
  · have := hpos h1
    by_cases h2 : q = .done <;> simp only [h1, h2, ne_eq, decide_not, decide_true, decide_false,
      Bool.not_true, Bool.not_false, if_true, if_false, Bool.false_eq_true] at this ⊢ <;> omega

/-- A step of one timer thread, from `p` to `q`. -/
theorem TimerInv.thread {s : Timers} {i : ℕ} {p q : TimerPc} (hI : TimerInv s)
    (hp : s.threads[i]? = some p) {enable : ℕ → Option Bool} {n : ℕ} {ran : List ℕ}
    (hother : ∀ j, j ≠ i → enable j = s.enable j)
    (hself : enable i = s.enable i ∧ q.gone = p.gone ∨ enable i = none ∧ q.gone = true)
    (htest : q.untested = true → p.untested = true ∧ enable i = s.enable i)
    (hrun : q = .enabled → s.enable i = some true ∧ p.untested = true)
    (hpast : p.past = true → q.past = true)
    (hn : n + (if p = .done then 0 else 1) = s.timer.nThread + (if q = .done then 0 else 1))
    (hran : ran = s.ran ∨ ran = s.ran ++ [i] ∧ p = .enabled ∧ q.past = true) :
    TimerInv { s.setThread i q with
      enable := enable, timer := { s.timer with nThread := n }, ran := ran } := by
  have hlt : i < s.threads.length := (List.getElem?_eq_some_iff.mp hp).1
  have hset : (s.threads.set i q)[i]? = some q := by
    rw [List.getElem?_set_self hlt]
  have hold : ∀ {j : ℕ} {r : TimerPc}, j ≠ i → s.threads[j]? = some r →
      (s.threads.set i q)[j]? = some r := by
    intro j r hj hr
    rw [List.getElem?_set_ne (Ne.symm hj), hr]
  have hlen : (s.threads.set i q).length = s.threads.length := List.length_set
  refine
    { newest := fun e => ?_
      fresh := fun h => ?_
      allocated := fun j r hr => ?_
      counted := ?_
      older := fun j r hr hu hj => ?_
      disarmed := fun h j r hr hu => ?_
      ran := fun j hj => ?_
      cancelled := fun j hj => ?_ }
  · show s.timer.lastEnable = some e ↔
      e + 1 = (s.threads.set i q).length + (if s.owner.holdsNew then 1 else 0)
    rw [hlen]
    exact hI.newest e
  · show enable (s.threads.set i q).length ≠ none
    rw [hlen, hother _ (by omega)]
    exact hI.fresh h
  · rcases getElem?_set_cases hr with ⟨rfl, rfl⟩ | ⟨hne, hr⟩
    · rcases hself with ⟨he, hg⟩ | ⟨he, hg⟩
      · show enable j = none ↔ _
        rw [he, hg]
        exact hI.allocated j p hp
      · exact iff_of_true he hg
    · show enable j = none ↔ _
      rw [hother j hne]
      exact hI.allocated j r hr
  · have hc := countP_set_add (q := q) hp
    have hn' := hI.counted
    show n = (s.threads.set i q).countP _ + _
    split at hn' <;> split <;> first | contradiction | omega
  · rcases getElem?_set_cases hr with ⟨rfl, rfl⟩ | ⟨hne, hr⟩
    · obtain ⟨hpu, he⟩ := htest hu
      exact he.trans (hI.older j p hp hpu (hlen ▸ hj))
    · exact (hother j hne).trans (hI.older j r hr hu (hlen ▸ hj))
  · rcases getElem?_set_cases hr with ⟨rfl, rfl⟩ | ⟨hne, hr⟩
    · obtain ⟨hpu, he⟩ := htest hu
      exact he.trans (hI.disarmed h j p hp hpu)
    · exact (hother j hne).trans (hI.disarmed h j r hr hu)
  · have hstay : j ∈ s.ran → ∃ r, (s.threads.set i q)[j]? = some r ∧ r.past = true := by
      intro hj
      obtain ⟨r, hr, hpr⟩ := hI.ran j hj
      by_cases hji : j = i
      · subst hji
        rw [hp] at hr
        cases hr
        exact ⟨q, hset, hpast hpr⟩
      · exact ⟨r, hold hji hr, hpr⟩
    rcases hran with rfl | ⟨rfl, -, hq⟩
    · exact hstay hj
    · rcases List.mem_append.mp hj with hj | hj
      · exact hstay hj
      · rw [List.mem_singleton.mp hj]
        exact ⟨q, hset, hq⟩
  · obtain ⟨hr, r, hjr, hne, hoff⟩ := hI.cancelled j hj
    by_cases hji : j = i
    · subst hji
      rw [hp] at hjr
      cases hjr
      refine ⟨?_, q, hset, fun hq => ?_, fun hu => ?_⟩
      · rcases hran with rfl | ⟨-, hen, -⟩
        · exact hr
        · exact absurd hen hne
      · obtain ⟨htrue, hpu⟩ := hrun hq
        rw [hoff hpu] at htrue
        cases htrue
      · obtain ⟨hpu, he⟩ := htest hu
        exact he.trans (hoff hpu)
    · refine ⟨?_, r, hold hji hjr, hne, fun hu => (hother j hji).trans (hoff hu)⟩
      rcases hran with rfl | ⟨rfl, -, -⟩
      · exact hr
      · simp [hr, hji]

theorem getElem?_snoc {l : List TimerPc} {i : ℕ} {p q : TimerPc} :
    (l ++ [q])[i]? = some p ↔ l[i]? = some p ∨ i = l.length ∧ p = q := by
  rw [List.getElem?_append]
  split
  · next hlt =>
      refine ⟨.inl, fun h => h.resolve_right fun he => ?_⟩
      omega
  · next hge =>
      have hnone : l[i]? = none := List.getElem?_eq_none (by omega)
      rw [hnone, List.getElem?_singleton]
      by_cases hi : i = l.length
      · simp [hi, eq_comm]
      · simp [hi, show i - l.length ≠ 0 by omega]

/-- A new flag is allocated, and `lastEnable` points at it. -/
theorem TimerInv.allocate {s : Timers} (hI : TimerInv s) (ho : s.owner = .allocating) :
    TimerInv { s with
      enable := Function.update s.enable s.threads.length (some true)
      timer := { s.timer with lastEnable := some s.threads.length }
      owner := .counting } := by
  have hd : s.Disarmed := hI.disarmed (by rw [ho]; rfl)
  have hne : ∀ {i p}, s.threads[i]? = some p →
      Function.update s.enable s.threads.length (some true) i = s.enable i := by
    intro i p hp
    have hlt := (List.getElem?_eq_some_iff.mp hp).1
    exact Function.update_of_ne (by omega) _ _
  refine
    { newest := fun e => ?_
      fresh := fun _ => by simp
      allocated := fun i p hp => ?_
      counted := by simpa [ho] using hI.counted
      older := fun i p hp hu hlt => (hne hp).trans (hI.older i p hp hu hlt)
      disarmed := fun _ i p hp hu => (hne hp).trans (hd i p hp hu)
      ran := hI.ran
      cancelled := fun i hi => ?_ }
  · simp only [Option.some.injEq, OwnerPc.holdsNew, if_true, Nat.add_right_cancel_iff]
    exact eq_comm
  · show Function.update s.enable s.threads.length (some true) i = none ↔ _
    rw [hne hp]
    exact hI.allocated i p hp
  · obtain ⟨hr, p, hp, hen, hoff⟩ := hI.cancelled i hi
    exact ⟨hr, p, hp, hen, fun hu => (hne hp).trans (hoff hu)⟩

/-- The new thread is counted before it is there. -/
theorem TimerInv.count {s : Timers} (hI : TimerInv s) (ho : s.owner = .counting) :
    TimerInv { s with
      timer := { s.timer with nThread := s.timer.nThread + 1 }, owner := .launching } where
  newest e := by
    rw [hI.newest e, ho]
    rfl
  fresh _ := hI.fresh (by rw [ho]; rfl)
  allocated := hI.allocated
  counted := by
    have hn : s.timer.nThread = s.threads.countP (fun p => decide (p ≠ .done)) := by
      simpa [ho] using hI.counted
    rw [hn]
    rfl
  older := hI.older
  disarmed _ := hI.disarmed (by rw [ho]; rfl)
  ran := hI.ran
  cancelled := hI.cancelled

/-- A thread that is not done is counted. -/
theorem TimerInv.nThread_pos {s : Timers} (hI : TimerInv s) {i : ℕ} {p : TimerPc}
    (hp : s.threads[i]? = some p) (hne : p ≠ .done) : 0 < s.timer.nThread := by
  have hpos := List.countP_pos_iff (p := fun p => decide (p ≠ TimerPc.done)).mpr
    ⟨p, List.mem_of_getElem? hp, decide_eq_true hne⟩
  rw [hI.counted]
  omega

/-- The new thread is launched. -/
theorem TimerInv.launch {s : Timers} (hI : TimerInv s) (ho : s.owner = .launching) :
    TimerInv { s.complete with threads := s.threads ++ [.sleeping] } := by
  have hd : s.Disarmed := hI.disarmed (by rw [ho]; rfl)
  have hfresh : s.enable s.threads.length ≠ none := hI.fresh (by rw [ho]; rfl)
  have hold : ∀ {i p}, s.threads[i]? = some p → (s.threads ++ [.sleeping])[i]? = some p :=
    fun hp => getElem?_snoc.mpr (.inl hp)
  refine
    { newest := fun e => ?_
      fresh := fun h => by cases h
      allocated := fun i p hp => ?_
      counted := ?_
      older := fun i p hp hu hlt => ?_
      disarmed := fun h => by cases h
      ran := fun i hi => ?_
      cancelled := fun i hi => ?_ }
  · have hn := hI.newest e
    rw [ho] at hn
    simpa [OwnerPc.holdsNew, Timers.complete] using hn
  · rcases getElem?_snoc.mp hp with hp | ⟨rfl, rfl⟩
    · exact hI.allocated i p hp
    · exact iff_of_false hfresh (by simp [TimerPc.gone])
  · have hn := hI.counted
    rw [ho, if_pos rfl] at hn
    show s.timer.nThread = _
    rw [hn, List.countP_append]
    rfl
  · rcases getElem?_snoc.mp hp with hp | ⟨rfl, -⟩
    · exact hd i p hp hu
    · simp at hlt
  · obtain ⟨p, hp, hpast⟩ := hI.ran i hi
    exact ⟨p, hold hp, hpast⟩
  · obtain ⟨hr, p, hp, hrest⟩ := hI.cancelled_complete hd i hi
    exact ⟨hr, p, hold hp, hrest⟩

theorem timerInv_move {s t : Timers} {a : TimerAction} (hI : TimerInv s) (h : TimerMove s a t) :
    TimerInv t := by
  cases h with
  | stop h => exact hI.stop h
  | start h => exact hI.stop h
  | @store starting h =>
      have hst : s.owner.isStoring = true := by rw [h]; rfl
      have ho : s.store.owner = .storing starting := by
        rw [← h]
        unfold Timers.store
        split
        · rfl
        · split <;> rfl
      exact hI.store.afterStop (by rw [ho]; rfl) (hI.disarmed_store hst)
  | allocate h => exact hI.allocate h
  | count h => exact hI.count h
  | launch h => exact hI.launch h
  | wake h =>
      exact hI.thread h (fun _ _ => rfl) (.inl ⟨rfl, rfl⟩) (fun _ => ⟨rfl, rfl⟩)
        (fun h => by cases h) (fun h => by cases h) (by simp) (.inl rfl)
  | @test i h =>
      split
      · next he =>
          exact hI.thread h (fun _ _ => rfl) (.inl ⟨rfl, rfl⟩) (fun h => by cases h)
            (fun _ => ⟨he, rfl⟩) (fun h => by cases h) (by simp) (.inl rfl)
      · exact hI.thread h (fun _ _ => rfl) (.inl ⟨rfl, rfl⟩) (fun h => by cases h)
          (fun h => by cases h) (fun h => by cases h) (by simp) (.inl rfl)
  | @run i h =>
      exact hI.thread h (fun _ _ => rfl) (.inl ⟨rfl, rfl⟩) (fun h => by cases h)
        (fun h => by cases h) (fun h => by cases h) (by simp) (.inr ⟨rfl, rfl, rfl⟩)
  | @free i h =>
      exact hI.thread h (fun _ hj => Function.update_of_ne hj _ _)
        (.inr ⟨Function.update_self _ _ _, rfl⟩) (fun h => by cases h) (fun h => by cases h)
        (fun _ => rfl) (by simp) (.inl rfl)
  | @discount i h =>
      have hpos := hI.nThread_pos h (by simp)
      exact hI.thread h (fun _ _ => rfl) (.inl ⟨rfl, rfl⟩) (fun h => by cases h)
        (fun h => by cases h) (fun _ => rfl) (by simp; omega) (.inl rfl)

/-! ### The store -/

/-- The owner has stored through a pointer to a deleted flag, or is about to. -/
def Doomed (s : Timers) : Prop :=
  s.dangling = true ∨
    s.owner.isStoring = true ∧ ∃ e, s.timer.lastEnable = some e ∧ s.enable e = none

theorem afterStop_dangling (s : Timers) (starting : Bool) :
    (s.afterStop starting).dangling = s.dangling := by
  cases starting <;> rfl

theorem not_isStoring_afterStop (s : Timers) (starting : Bool) :
    (s.afterStop starting).owner.isStoring = false := by
  cases starting <;> rfl

theorem store_dangling {s : Timers} {e : ℕ} (he : s.timer.lastEnable = some e) :
    s.store.dangling = (s.dangling || decide (s.enable e = none)) := by
  unfold Timers.store
  rw [he]
  cases hen : s.enable e with
  | none => simp [hen]
  | some b => simp [hen]

theorem doomed_move {s t : Timers} {a : TimerAction} (h : TimerMove s a t) (hd : s.Doomed) :
    t.Doomed := by
  rcases hd with hd | ⟨ho, e, he, hen⟩
  · -- what has happened is not undone
    left
    cases h with
    | stop | start =>
        unfold Timers.stop
        split
        · exact hd
        · rw [afterStop_dangling, hd]
    | store =>
        rw [afterStop_dangling]
        cases he : s.timer.lastEnable with
        | none => simpa [Timers.store, he] using hd
        | some e => rw [store_dangling he, hd, Bool.true_or]
    | _ => exact hd
  · cases h with
    | store =>
        left
        rw [afterStop_dangling, store_dangling he, hen, decide_eq_true rfl, Bool.or_true]
    | @free i =>
        refine .inr ⟨ho, e, he, ?_⟩
        by_cases hi : e = i
        · exact hi ▸ Function.update_self _ _ _
        · exact (Function.update_of_ne hi _ _).trans hen
    | wake | test | run | discount => exact .inr ⟨ho, e, he, hen⟩
    | stop h | start h | allocate h | count h | launch h => rw [h] at ho; cases ho

theorem doomed_of_not_inTime {s t : Timers} {a : TimerAction} (hI : TimerInv s)
    (h : TimerMove s a t) (hn : ¬ InTime s a t) : t.Doomed := by
  have hguard : ∀ starting, ¬ (s.timer.stores = true →
      ∀ e ∈ s.timer.lastEnable, ∀ p ∈ s.threads[e]?, p.gone = false) →
      (s.stop starting).Doomed := by
    intro starting hn
    push Not at hn
    obtain ⟨hst, e, he, p, hp, hg⟩ := hn
    have hen : s.enable e = none := (hI.allocated e p hp).mpr (by simpa using hg)
    rw [Timers.stop, if_pos hst]
    exact .inr ⟨rfl, e, he, hen⟩
  cases h with
  | stop => exact hguard false hn
  | start => exact hguard true hn
  | @free i h =>
      simp only [InTime, ne_eq, Classical.not_imp, not_not] at hn
      exact .inr ⟨hn.1, i, hn.2, Function.update_self _ _ _⟩
  | _ => exact absurd trivial hn

theorem not_doomed_of_inTime {s t : Timers} {a : TimerAction} (hI : TimerInv s)
    (h : TimerMove s a t) (ht : InTime s a t) (hd : ¬ s.Doomed) : ¬ t.Doomed := by
  have hdang : s.dangling = false := by
    cases hs : s.dangling with
    | false => rfl
    | true => exact absurd (.inl hs) hd
  have hafter : ∀ u : Timers, ∀ starting, u.dangling = false →
      ¬ (u.afterStop starting).Doomed := by
    rintro u starting hu (hd | ⟨ho, -⟩)
    · rw [afterStop_dangling, hu] at hd
      cases hd
    · rw [not_isStoring_afterStop] at ho
      cases ho
  have hguard : ∀ starting, (s.timer.stores = true →
      ∀ e ∈ s.timer.lastEnable, ∀ p ∈ s.threads[e]?, p.gone = false) → s.owner = .idle →
      ¬ (s.stop starting).Doomed := by
    intro starting ht hidle
    unfold Timers.stop
    split
    · next hst =>
        rintro (hd' | ⟨-, e, he, hen⟩)
        · rw [hdang] at hd'
          cases hd'
        · have hlen := (hI.newest_of_not_holdsNew (by rw [hidle]; rfl)).mp he
          have hlt : e < s.threads.length := by omega
          have hp : s.threads[e]? = some s.threads[e] := List.getElem?_eq_getElem hlt
          exact hI.enable_ne_none hp (ht hst e he _ hp) hen
    · exact hafter s starting hdang
  cases h with
  | stop h => exact hguard false ht h
  | start h => exact hguard true ht h
  | @store starting h =>
      apply hafter _ _
      cases he : s.timer.lastEnable with
      | none => simpa [Timers.store, he] using hdang
      | some e =>
          have hen : s.enable e ≠ none := fun hen => hd (.inr ⟨by rw [h]; rfl, e, he, hen⟩)
          rw [store_dangling he, hdang, decide_eq_false hen, Bool.or_false]
  | @free i =>
      rintro (hd' | ⟨ho, e, he, hen⟩)
      · exact hd (.inl hd')
      · have hne : e ≠ i := fun hi => ht ho (hi ▸ he)
        exact hd (.inr ⟨ho, e, he, (Function.update_of_ne hne _ _).symm.trans hen⟩)
  | wake | test | run | discount => exact hd
  | allocate | count | launch =>
      rintro (hd' | ⟨ho, -⟩)
      · exact hd (.inl hd')
      · cases ho

theorem safe_iff {s : Timers} (hI : TimerInv s) : s.Safe ↔ s.dangling = false :=
  ⟨fun h => h.1, fun h => ⟨h, fun i hi => (hI.cancelled i hi).1⟩⟩

theorem not_doomed_init : ¬ Doomed {} := by
  rintro (h | ⟨h, -⟩) <;> cases h

end Timers

open Timers

/-- **The flags of `TimerCallback`**: over any interleaving of `Start` and `Stop` with the timer
threads, in which the newest flag is not deleted when the guard of `Stop` passes nor before the
store that follows, no store is made to a deleted flag and no task is run whose thread had not
tested its flag when a later call completed.  The condition is exact: of the runs that do not
end between the guard and the store, no other has the property. -/
theorem timerCallback_iff (ls : List TimerAction) (t : Timers) :
    (RunWith TimerStep InTime {} ls t → Safe t) ∧
      (Run TimerStep {} ls t → t.owner.isStoring = false →
        (Safe t ↔ RunWith TimerStep InTime {} ls t)) := by
  have hI : ∀ s a t, TimerInv s → TimerStep s a t → TimerInv t :=
    fun _ _ _ hI hs => timerInv_move hI hs.move
  have hsafe : RunWith TimerStep InTime {} ls t → Safe t := by
    intro h
    have hboth : TimerInv t ∧ ¬ Doomed t :=
      RunWith.invariant (I := fun s => TimerInv s ∧ ¬ Doomed s)
        (fun s a t hs hstep ht =>
          ⟨hI s a t hs.1 hstep, not_doomed_of_inTime hs.1 hstep.move ht hs.2⟩)
        h ⟨timerInv_init, not_doomed_init⟩
    apply (safe_iff hboth.1).mpr
    cases hd : t.dangling with
    | false => rfl
    | true => exact absurd (.inl hd) hboth.2
  refine ⟨hsafe, fun hrun hidle => ⟨fun h => ?_, hsafe⟩⟩
  refine hrun.runWith_of_not (I := TimerInv) (D := Doomed) hI
    (fun _ _ _ _ hs hd => doomed_move hs.move hd)
    (fun _ _ _ hI hs hn => doomed_of_not_inTime hI hs.move hn) timerInv_init ?_
  rintro (hd | ⟨ho, -⟩)
  · rw [h.1] at hd
    cases hd
  · rw [hidle] at ho
    cases ho

/-- A long timer, a short one that runs out, and `Stop`: one thread is outstanding, and the
store goes to the flag that the other has deleted. -/
theorem not_timerCallback : ¬ ∀ ls t, Run TimerStep {} ls t → Safe t := by
  intro h
  obtain ⟨t, run, hd⟩ := exists_run Timers.act (fun t => t.dangling = true) {}
    [.start, .allocate, .count, .launch, .start, .store, .allocate, .count, .launch,
      .wake 1, .test 1, .run 1, .free 1, .discount 1, .stop, .store] (by decide +kernel)
  have hs := (h _ t run).1
  rw [hd] at hs
  cases hs

end NetworkStructure
