import NetworkStructure.Passes

/-! # Asking for a real-time priority

`setscheduler` asks the kernel for a priority, and where the kernel says `EPERM` it raises the soft
limit of the process up to the priority and asks again, by a `goto` without a count.  An `int` has
32 bits and an `rlim_t` has 64: limits are cut down to an `int`, and a negative priority becomes a
large limit.

A limit that has been raised to the priority is not below it when it is read again
(`le_max_of_ofInt`), not even for the priority -1, which is `RLIM_INFINITY` as a limit and stands
for the maximum of the policy.  So there is one pass that goes back at most, and the loop is left
after at most two calls, whatever the kernel answers (`setscheduler_total`). -/

namespace NetworkStructure

/-! ### The kernel -/

abbrev rlim_t := UInt64

def RLIM_INFINITY : rlim_t := 18446744073709551615

/-- `(rlim_t)n`. -/
def rlim_t.ofInt (n : Int32) : rlim_t := n.toInt64.toUInt64

/-- `(int)x`. -/
def rlim_t.toInt (x : rlim_t) : Int32 := x.toUInt32.toInt32

structure rlimit where
  rlim_cur : rlim_t
  rlim_max : rlim_t
deriving DecidableEq, Repr

structure sched_param where
  sched_priority : Int32
deriving DecidableEq, Repr

def SCHED_OTHER : Int32 := 0
def SCHED_FIFO : Int32 := 1

/-- What `errno` is after a call has failed. -/
structure ErrorNumber where
  value : Int32
  pos : 0 < value
deriving DecidableEq

def EPERM : ErrorNumber := ⟨1, by decide⟩
def EINVAL : ErrorNumber := ⟨22, by decide⟩

/-- The answers of the kernel; `none` is success.  Where they differ from one call to the next they
depend on how often `sched_setscheduler` has been called. -/
structure SchedKernel where
  sched_get_priority_max : Int32 → Int32
  sched_setscheduler : ℕ → Option ErrorNumber
  getrlimit : ℕ → Option ErrorNumber
  setrlimit : ℕ → Option ErrorNumber
  /-- A policy that is not known is an error, and no priority is negative. -/
  priority_max : ∀ policy, sched_get_priority_max policy = -1 ∨ 0 ≤ sched_get_priority_max policy

structure SchedCall where
  pid : Int32
  policy : Int32
  param : sched_param
deriving DecidableEq, Repr

/-- `RLIMIT_RTPRIO` of the process, and the calls of `sched_setscheduler` that it has made. -/
structure SchedState where
  rtprio : rlimit
  calls : List SchedCall := []
deriving DecidableEq, Repr

def SchedState.call (s : SchedState) (c : SchedCall) : SchedState :=
  { s with calls := s.calls ++ [c] }

@[simp] theorem SchedState.call_rtprio (s : SchedState) (c : SchedCall) :
    (s.call c).rtprio = s.rtprio := rfl

@[simp] theorem SchedState.call_calls (s : SchedState) (c : SchedCall) :
    (s.call c).calls = s.calls ++ [c] := rfl

/-! ### The program -/

/-- `soft_max` and `hard_max`. -/
def max_of (limit : rlim_t) (policy_max : Int32) : Int32 :=
  rlim_t.toInt (if limit = RLIM_INFINITY then rlim_t.ofInt policy_max else limit)

/-- The limits are read and set as a whole, and only the soft one is changed. -/
def raise_soft_prio (K : SchedKernel) (policy : Int32) (param : sched_param) (s : SchedState) :
    Int32 × SchedState :=
  let prio := param.sched_priority
  let policy_max := K.sched_get_priority_max policy
  if policy_max = -1 then (EINVAL.value, s)
  else
    match K.getrlimit s.calls.length with
    | some err => (err.value, s)
    | none =>
        let rlim := s.rtprio
        let soft_max := max_of rlim.rlim_cur policy_max
        let hard_max := max_of rlim.rlim_max policy_max
        if soft_max < prio ∧ prio ≤ hard_max then
          let rlim := { rlim with rlim_cur := rlim_t.ofInt prio }
          match K.setrlimit s.calls.length with
          | some err => (err.value, s)
          | none => (0, { s with rtprio := rlim })
        else (-1, s)

/-- From the label `try_again` on: back to it, or to the end with the value returned. -/
def try_again (K : SchedKernel) (pid policy : Int32) (param : sched_param) (s : SchedState) :
    Pass SchedState (Int32 × SchedState) :=
  let s' := s.call { pid, policy, param }
  match K.sched_setscheduler s.calls.length with
  | none => .leave (0, s')
  | some err =>
      if err = EPERM then
        let r := raise_soft_prio K policy param s'
        if r.1 = 0 then .again r.2 else .leave (err.value, r.2)
      else .leave (err.value, s')

def setscheduler (K : SchedKernel) (pid policy : Int32) (param : sched_param) (passes : ℕ)
    (s : SchedState) : Option (Int32 × SchedState) :=
  Pass.loop (try_again K pid policy param) passes s

def set_sched_fifo (K : SchedKernel) (priority : Int32) (passes : ℕ) (s : SchedState) :
    Option (Int32 × SchedState) :=
  setscheduler K 0 SCHED_FIFO { sched_priority := priority } passes s

/-- One call, and what it returns: -1 where `setscheduler` returns `errno`. -/
def set_sched_other (K : SchedKernel) (priority : Int32) (s : SchedState) : Int32 × SchedState :=
  let s' := s.call { pid := 0, policy := SCHED_OTHER, param := { sched_priority := priority } }
  match K.sched_setscheduler s.calls.length with
  | none => (0, s')
  | some _ => (-1, s')

/-! ### A pass -/

theorem toInt_ofInt (n : Int32) : rlim_t.toInt (rlim_t.ofInt n) = n := by
  have h := congrArg Int32.toBitVec n.toInt32_toInt64
  apply Int32.toBitVec_inj.mp
  rw [Int64.toBitVec_toInt32, BitVec.signExtend_eq_setWidth_of_le _ (by decide)] at h
  exact h

/-- **A limit that has been raised is high enough.** -/
theorem le_max_of_ofInt (prio : Int32) {policy_max : Int32} (h : 0 ≤ policy_max) :
    prio ≤ max_of (rlim_t.ofInt prio) policy_max := by
  unfold max_of
  split
  · next hinf =>
    -- only -1 is `RLIM_INFINITY`
    have hprio : prio = -1 := by
      have := congrArg rlim_t.toInt hinf
      rw [toInt_ofInt] at this
      exact this
    rw [toInt_ofInt, hprio]
    exact Int32.le_trans (by decide) h
  · rw [toInt_ofInt]
    exact Int32.le_refl prio

section Attempt

variable {K : SchedKernel} {pid policy : Int32} {param : sched_param} {s t : SchedState}
  {r : Int32 × SchedState}

/-- The soft limit is below the priority. -/
def SoftBelow (K : SchedKernel) (policy : Int32) (param : sched_param) (s : SchedState) : Prop :=
  max_of s.rtprio.rlim_cur (K.sched_get_priority_max policy) < param.sched_priority

instance : Decidable (SoftBelow K policy param s) := inferInstanceAs (Decidable (_ < _))

/-- Either nothing is changed and the answer says so, or the soft limit was below the priority and
is raised to it. -/
theorem raise_soft_prio_cases (K : SchedKernel) (policy : Int32) (param : sched_param)
    (s : SchedState) :
    ((raise_soft_prio K policy param s).1 ≠ 0 ∧ (raise_soft_prio K policy param s).2 = s) ∨
    (SoftBelow K policy param s ∧ 0 ≤ K.sched_get_priority_max policy ∧
      raise_soft_prio K policy param s = (0, { s with
        rtprio := { s.rtprio with rlim_cur := rlim_t.ofInt param.sched_priority } })) := by
  have hne : ∀ err : ErrorNumber, err.value ≠ 0 := fun err => (Int32.ne_of_lt err.pos).symm
  unfold raise_soft_prio
  dsimp only
  split
  · exact .inl ⟨hne EINVAL, rfl⟩
  · next hmax =>
    cases K.getrlimit s.calls.length with
    | some err => exact .inl ⟨hne err, rfl⟩
    | none =>
        dsimp only
        split
        · next hprio =>
          cases K.setrlimit s.calls.length with
          | some err => exact .inl ⟨hne err, rfl⟩
          | none => exact .inr ⟨hprio.1, (K.priority_max policy).resolve_left hmax, rfl⟩
        · exact .inl ⟨show (-1 : Int32) ≠ 0 by decide, rfl⟩

/-- A pass goes back once it has raised the soft limit. -/
theorem try_again_again (h : try_again K pid policy param s = .again t) :
    SoftBelow K policy param s ∧ ¬ SoftBelow K policy param t ∧
      t.rtprio.rlim_max = s.rtprio.rlim_max ∧ t.calls = s.calls ++ [⟨pid, policy, param⟩] := by
  unfold try_again at h
  dsimp only at h
  cases ha : K.sched_setscheduler s.calls.length with
  | none =>
      rw [ha] at h
      cases h
  | some err =>
      rw [ha] at h
      dsimp only at h
      split at h
      · obtain ⟨hr, -⟩ | ⟨hbelow, hmax, hr⟩ :=
          raise_soft_prio_cases K policy param (s.call ⟨pid, policy, param⟩)
        · rw [if_neg hr] at h
          cases h
        · rw [hr, if_pos rfl] at h
          cases h
          exact ⟨hbelow, Int32.not_lt.mpr (le_max_of_ofInt param.sched_priority hmax), rfl, rfl⟩
      · cases h

/-- A pass that leaves the loop returns what the kernel has answered. -/
theorem try_again_leave (h : try_again K pid policy param s = .leave r) :
    r = ((K.sched_setscheduler s.calls.length).elim 0 ErrorNumber.value,
      s.call ⟨pid, policy, param⟩) := by
  unfold try_again at h
  dsimp only at h
  cases ha : K.sched_setscheduler s.calls.length with
  | none =>
      rw [ha] at h
      cases h
      rfl
  | some err =>
      rw [ha] at h
      dsimp only at h
      split at h
      · obtain ⟨hr, hs⟩ | ⟨-, -, hr⟩ :=
          raise_soft_prio_cases K policy param (s.call ⟨pid, policy, param⟩)
        · rw [if_neg hr, hs] at h
          cases h
          rfl
        · rw [hr, if_pos rfl] at h
          cases h
      · cases h
        rfl

end Attempt

/-! ### The loop -/

/-- How often the loop can still go back. -/
def goBacks (K : SchedKernel) (policy : Int32) (param : sched_param) (s : SchedState) : ℕ :=
  if SoftBelow K policy param s then 1 else 0

/-- What `setscheduler` leaves when it is called in `s`: the calls it has made are all the same, the
value is that of the last one, and the hard limit is as it was. -/
structure Answered (K : SchedKernel) (pid policy : Int32) (param : sched_param) (s : SchedState)
    (r : Int32 × SchedState) : Prop where
  calls : ∃ n ≤ goBacks K policy param s,
    r.2.calls = s.calls ++ List.replicate (n + 1) ⟨pid, policy, param⟩
  value : r.1 = (K.sched_setscheduler (r.2.calls.length - 1)).elim 0 ErrorNumber.value
  hard : r.2.rtprio.rlim_max = s.rtprio.rlim_max

section Loop

variable (K : SchedKernel) (pid policy : Int32) (param : sched_param)

/-- The invariant of the loop that is entered in `s`: the passes that have gone back are paid
for. -/
structure Trying (s t : SchedState) : Prop where
  calls : ∃ n, n + goBacks K policy param t ≤ goBacks K policy param s ∧
    t.calls = s.calls ++ List.replicate n ⟨pid, policy, param⟩
  hard : t.rtprio.rlim_max = s.rtprio.rlim_max

variable {K pid policy param} {s t u : SchedState} {r : Int32 × SchedState}

theorem trying_start (s : SchedState) : Trying K pid policy param s s where
  calls := ⟨0, Nat.le_of_eq (Nat.zero_add _), (List.append_nil _).symm⟩
  hard := rfl

theorem Trying.again (h : Trying K pid policy param s t)
    (hu : try_again K pid policy param t = .again u) :
    Trying K pid policy param s u ∧ goBacks K policy param u < goBacks K policy param t := by
  obtain ⟨hbelow, hreached, hmax, hcalls⟩ := try_again_again hu
  have ht1 : goBacks K policy param t = 1 := if_pos hbelow
  have hu0 : goBacks K policy param u = 0 := if_neg hreached
  obtain ⟨n, hn, hrep⟩ := h.calls
  refine ⟨⟨⟨n + 1, by omega, ?_⟩, hmax.trans h.hard⟩, by omega⟩
  rw [hcalls, hrep, List.replicate_succ', List.append_assoc]

theorem Trying.leave (h : Trying K pid policy param s t)
    (hr : try_again K pid policy param t = .leave r) : Answered K pid policy param s r := by
  obtain ⟨n, hn, hrep⟩ := h.calls
  obtain rfl := try_again_leave hr
  constructor
  case calls =>
      refine ⟨n, by omega, ?_⟩
      rw [SchedState.call_calls, hrep, List.replicate_succ', List.append_assoc]
  case value =>
      rw [SchedState.call_calls, List.length_append, List.length_singleton, Nat.add_sub_cancel]
  case hard => exact h.hard

variable (K pid policy param)

theorem setscheduler_answered (s : SchedState) : ∃ r, Answered K pid policy param s r ∧
    ∀ passes > goBacks K policy param s, setscheduler K pid policy param passes s = some r :=
  Pass.loop_total (fun _ _ h hu => Trying.again h hu) (fun _ _ h hr => Trying.leave h hr)
    (trying_start s)

theorem goBacks_le_one (s : SchedState) : goBacks K policy param s ≤ 1 := by
  unfold goBacks
  split <;> omega

/-- **The loop is left after at most two calls of `sched_setscheduler`**, whatever the kernel
answers and whatever the limits are. -/
theorem setscheduler_total (limits : rlimit) : ∃ r : Int32 × SchedState,
    (∀ passes ≥ 2, setscheduler K pid policy param passes { rtprio := limits } = some r) ∧
      r.2.calls.length ≤ 2 := by
  obtain ⟨r, hr, hloop⟩ := setscheduler_answered K pid policy param { rtprio := limits }
  have hle := goBacks_le_one K policy param { rtprio := limits }
  refine ⟨r, fun passes hp => hloop passes (by omega), ?_⟩
  obtain ⟨n, hn, hcalls⟩ := hr.calls
  rw [hcalls, List.nil_append, List.length_replicate]
  omega

/-- A refusal is a positive `errno` for `set_sched_fifo`, but -1 for `set_sched_other`. -/
theorem set_sched_refused (h : ∀ n, K.sched_setscheduler n ≠ none) (priority : Int32)
    (s : SchedState) :
    (∃ r : Int32 × SchedState,
      (∀ passes ≥ 2, set_sched_fifo K priority passes s = some r) ∧ 0 < r.1) ∧
    (set_sched_other K priority s).1 = -1 := by
  constructor
  · obtain ⟨r, hr, hloop⟩ := setscheduler_answered K 0 SCHED_FIFO ⟨priority⟩ s
    have hle := goBacks_le_one K SCHED_FIFO ⟨priority⟩ s
    refine ⟨r, fun passes hp => hloop passes (by omega), ?_⟩
    obtain ⟨err, herr⟩ := Option.ne_none_iff_exists'.mp (h (r.2.calls.length - 1))
    rw [hr.value, herr]
    exact err.pos
  · obtain ⟨err, herr⟩ := Option.ne_none_iff_exists'.mp (h s.calls.length)
    unfold set_sched_other
    rw [herr]

end Loop

/-- The kernel of Linux, which knows two policies with priorities and four without. -/
def linux (sched_setscheduler getrlimit setrlimit : ℕ → Option ErrorNumber) : SchedKernel where
  sched_get_priority_max policy :=
    if policy ∈ [SCHED_FIFO, 2] then 99 else if policy ∈ [SCHED_OTHER, 3, 5, 6] then 0 else -1
  sched_setscheduler := sched_setscheduler
  getrlimit := getrlimit
  setrlimit := setrlimit
  priority_max policy := by
    split
    · exact .inr (by decide)
    · split
      · exact .inr (by decide)
      · exact .inl rfl

/-- A kernel that lets the limit be raised and refuses all the same. -/
def refusing : SchedKernel := linux (fun _ => some EPERM) (fun _ => none) (fun _ => none)

/-- Linux is asked twice: the limit is raised, and that does not help. -/
theorem setscheduler_total_linux : ∃ r : Int32 × SchedState,
    (∀ passes ≥ 2, setscheduler refusing 0 SCHED_FIFO ⟨40⟩ passes { rtprio := ⟨0, 99⟩ } = some r) ∧
      r.1 = 1 ∧ r.2.rtprio = ⟨40, 99⟩ ∧ r.2.calls.length = 2 := by
  obtain ⟨r, hr, -⟩ := setscheduler_total refusing 0 SCHED_FIFO ⟨40⟩ ⟨0, 99⟩
  have hrun : setscheduler refusing 0 SCHED_FIFO ⟨40⟩ 2 { rtprio := ⟨0, 99⟩ } =
      some (1, { rtprio := ⟨40, 99⟩, calls := List.replicate 2 ⟨0, SCHED_FIFO, ⟨40⟩⟩ }) := by
    decide
  obtain rfl := Option.some.inj ((hr 2 (Nat.le_refl 2)).symm.trans hrun)
  exact ⟨_, hr, rfl, rfl, rfl⟩

end NetworkStructure
