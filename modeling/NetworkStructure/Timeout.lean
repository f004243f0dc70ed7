import Mathlib.Algebra.Ring.Nat
import Mathlib.Data.Int.Notation
import Mathlib.Tactic.ByContra

/-! # Timeouts

`CTimeout` and `CTimeoutmS` remember the instant at which they were armed and a duration, both in
nanoseconds, and compare them with a clock of 64 bits.  An instant is a number of nanoseconds;
`clock_gettime` gives seconds and nanoseconds for it, and `GetTimeNs` puts them together again
modulo 2^64, so that a difference of two readings is right also where the clock has wrapped
(`getTimeNs_sub`).

`CTimeoutmS` computes a duration in 64 bits.  `CTimeout` does it in 32 bits, and `ms` twice, so
that a duration of more than 2^32 nanoseconds is cut off: `timeouts_agree_iff`.  And `GetElapsed`
of `CTimeoutmS` answers in nanoseconds, modulo 2^32, where the other queries answer in
milliseconds: `accounting_iff` says at which instants this does not show. -/

namespace NetworkStructure

/-- The `int64_t` that an integer is taken for. -/
def int64 (x : ℤ) : ℤ := (x + 9223372036854775808) % 18446744073709551616 - 9223372036854775808

structure timespec where
  tv_sec : UInt64
  tv_nsec : UInt64
deriving DecidableEq, Repr

/-- The monotonic clock at an instant. -/
def clock_gettime (t : ℕ) : timespec where
  tv_sec := UInt64.ofNat (t / 1000000000)
  tv_nsec := UInt64.ofNat (t % 1000000000)

/-- Private in both classes. -/
def getTimeNs (spec : timespec) : UInt64 := spec.tv_sec * 1000000000 + spec.tv_nsec

/-- `GetRestTime` of both classes, where `unit` is the number of nanoseconds that it counts in. -/
def restTime (start_ns duration_ns : UInt64) (unit : ℤ) (now : timespec) : UInt32 :=
  let temp := int64 (int64 (int64 start_ns.toNat + int64 duration_ns.toNat) -
    int64 (getTimeNs now).toNat)
  if temp < 0 then 0 else UInt32.ofNat (temp.tdiv unit).toNat

/-! ### The classes -/

structure CTimeout where
  start_ns : UInt64 := 0
  duration_ns : UInt64 := 0
deriving DecidableEq, Repr

namespace CTimeout

/-- The product has 32 bits. -/
def setExpiration (uSec : UInt32) (now : timespec) : CTimeout where
  start_ns := getTimeNs now
  duration_ns := (uSec * 1000).toUInt64

def ms (mSec : UInt32) (now : timespec) : CTimeout := setExpiration (mSec * 1000) now

def us (uSec : UInt32) (now : timespec) : CTimeout := setExpiration uSec now

def reset (t : CTimeout) (now : timespec) : CTimeout := { t with start_ns := getTimeNs now }

def getExpiration (t : CTimeout) : UInt32 := (t.duration_ns / 1000).toUInt32

def hasExpired (t : CTimeout) (now : timespec) : Bool :=
  let nDiff := getTimeNs now - t.start_ns
  nDiff ≥ t.duration_ns

def notExpired (t : CTimeout) (now : timespec) : Bool := !t.hasExpired now

def getRestTime (t : CTimeout) (now : timespec) : UInt32 :=
  restTime t.start_ns t.duration_ns 1000 now

end CTimeout

structure CTimeoutmS where
  start_ns : UInt64 := 0
  duration_ns : UInt64 := 0
deriving DecidableEq, Repr

namespace CTimeoutmS

def setExpiration (mSec : UInt32) (now : timespec) : CTimeoutmS where
  start_ns := getTimeNs now
  duration_ns := mSec.toUInt64 * 1000000

def reset (t : CTimeoutmS) (now : timespec) : CTimeoutmS := { t with start_ns := getTimeNs now }

def hasExpired (t : CTimeoutmS) (now : timespec) : Bool :=
  let nDiff := getTimeNs now - t.start_ns
  nDiff ≥ t.duration_ns

def getExpiration (t : CTimeoutmS) : UInt32 := (t.duration_ns / 1000000).toUInt32

def getRestTime (t : CTimeoutmS) (now : timespec) : UInt32 :=
  restTime t.start_ns t.duration_ns 1000000 now

/-- Has no division. -/
def getElapsed (t : CTimeoutmS) (now : timespec) : UInt32 := (getTimeNs now - t.start_ns).toUInt32

end CTimeoutmS

/-! ### The clock -/

section Clock

variable (t e : ℕ)

theorem getTimeNs_clock : getTimeNs (clock_gettime t) = UInt64.ofNat t := by
  have hunit : (1000000000 : UInt64).toNat = 1000000000 := rfl
  apply UInt64.toNat_inj.mp
  unfold getTimeNs clock_gettime
  rw [UInt64.toNat_add, UInt64.toNat_mul, UInt64.toNat_ofNat', UInt64.toNat_ofNat',
    UInt64.toNat_ofNat', hunit]
  omega

theorem getTimeNs_toNat (ht : t < 2 ^ 64) : (getTimeNs (clock_gettime t)).toNat = t := by
  rw [getTimeNs_clock, UInt64.toNat_ofNat', Nat.mod_eq_of_lt ht]

/-- **The difference of two readings** is the time that has gone by. -/
theorem getTimeNs_sub (he : e < 2 ^ 64) :
    (getTimeNs (clock_gettime (t + e)) - getTimeNs (clock_gettime t)).toNat = e := by
  rw [getTimeNs_clock, getTimeNs_clock, UInt64.toNat_sub, UInt64.toNat_ofNat', UInt64.toNat_ofNat']
  omega

end Clock

/-! ### Expiry -/

section Expiry

variable {mSec : UInt32} {t e : ℕ}

theorem uS_duration (uSec : UInt32) (now : timespec) :
    (CTimeout.setExpiration uSec now).duration_ns.toNat = uSec.toNat * 1000 % 2 ^ 32 := by
  have hunit : (1000 : UInt32).toNat = 1000 := rfl
  show (uSec * 1000).toUInt64.toNat = _
  rw [UInt32.toNat_toUInt64, UInt32.toNat_mul, hunit]

theorem mS_duration (now : timespec) :
    (CTimeoutmS.setExpiration mSec now).duration_ns.toNat = mSec.toNat * 1000000 := by
  have hunit : (1000000 : UInt64).toNat = 1000000 := rfl
  have hlt := mSec.toNat_lt
  show (mSec.toUInt64 * 1000000).toNat = _
  rw [UInt64.toNat_mul, UInt32.toNat_toUInt64, hunit]
  omega

/-- Microseconds, also for `us`. -/
theorem CTimeout.hasExpired_iff (uSec : UInt32) (he : e < 2 ^ 64) :
    (setExpiration uSec (clock_gettime t)).hasExpired (clock_gettime (t + e)) = true ↔
      uSec.toNat * 1000 % 2 ^ 32 ≤ e := by
  unfold hasExpired
  rw [decide_eq_true_eq, ge_iff_le, UInt64.le_iff_toNat_le, uS_duration]
  show _ ≤ (getTimeNs (clock_gettime (t + e)) - getTimeNs (clock_gettime t)).toNat ↔ _
  rw [getTimeNs_sub t e he]

theorem CTimeout.ms_hasExpired_iff (he : e < 2 ^ 64) :
    (ms mSec (clock_gettime t)).hasExpired (clock_gettime (t + e)) = true ↔
      mSec.toNat * 1000000 % 2 ^ 32 ≤ e := by
  have hunit : (1000 : UInt32).toNat = 1000 := rfl
  have h : (mSec * 1000).toNat * 1000 % 2 ^ 32 = mSec.toNat * 1000000 % 2 ^ 32 := by
    rw [UInt32.toNat_mul, hunit]
    omega
  unfold ms
  rw [CTimeout.hasExpired_iff _ he, h]

theorem CTimeoutmS.hasExpired_iff (he : e < 2 ^ 64) :
    (setExpiration mSec (clock_gettime t)).hasExpired (clock_gettime (t + e)) = true ↔
      mSec.toNat * 1000000 ≤ e := by
  unfold hasExpired
  rw [decide_eq_true_eq, ge_iff_le, UInt64.le_iff_toNat_le, mS_duration]
  show _ ≤ (getTimeNs (clock_gettime (t + e)) - getTimeNs (clock_gettime t)).toNat ↔ _
  rw [getTimeNs_sub t e he]

/-- Both have expired exactly if `mSec` milliseconds have gone by. -/
def TimeoutsAgree (mSec : UInt32) (t e : ℕ) : Prop :=
  let timeout := CTimeout.ms mSec (clock_gettime t)
  let timeoutmS := CTimeoutmS.setExpiration mSec (clock_gettime t)
  let now := clock_gettime (t + e)
  timeout.hasExpired now = timeoutmS.hasExpired now ∧
    (timeoutmS.hasExpired now = true ↔ mSec.toNat * 1000000 ≤ e)

/-- **The timeouts agree** exactly where the duration has less than 32 bits, or the time that has
gone by is less than what is left of it in 32 bits, or at least all of it. -/
theorem timeouts_agree_iff (mSec : UInt32) (t e : ℕ) (he : e < 2 ^ 64) :
    TimeoutsAgree mSec t e ↔ mSec.toNat * 1000000 < 2 ^ 32 ∨
      e < mSec.toNat * 1000000 % 2 ^ 32 ∨ mSec.toNat * 1000000 ≤ e := by
  unfold TimeoutsAgree
  rw [and_iff_left (CTimeoutmS.hasExpired_iff he), Bool.eq_iff_iff, CTimeout.ms_hasExpired_iff he,
    CTimeoutmS.hasExpired_iff he]
  omega

/-- Four seconds, where the clock wraps in between. -/
theorem timeouts_agree_iff_example : TimeoutsAgree 4000 (2 ^ 64 - 1) 4000000000 :=
  (timeouts_agree_iff 4000 (2 ^ 64 - 1) 4000000000 (by decide)).mpr (by decide)

/-- Five seconds: a `CTimeout` expires after less than one. -/
theorem not_timeouts_agree :
    (CTimeout.ms 5000 (clock_gettime 0)).hasExpired (clock_gettime 1000000000) = true ∧
      ¬ TimeoutsAgree 5000 0 1000000000 := by
  have h : (CTimeout.ms 5000 (clock_gettime 0)).hasExpired (clock_gettime 1000000000) = true := by
    decide +kernel
  refine ⟨h, fun ha => ?_⟩
  have hexpired := ha.2.mp (ha.1.symm.trans h)
  exact absurd hexpired (by decide)

end Expiry

/-! ### Accounting -/

section Accounting

variable {mSec : UInt32} {t e : ℕ}

theorem getElapsed_toNat (he : e < 2 ^ 64) :
    ((CTimeoutmS.setExpiration mSec (clock_gettime t)).getElapsed (clock_gettime (t + e))).toNat =
      e % 2 ^ 32 := by
  show (getTimeNs (clock_gettime (t + e)) - getTimeNs (clock_gettime t)).toUInt32.toNat = _
  rw [UInt64.toNat_toUInt32, getTimeNs_sub t e he]

theorem getExpiration_toNat (now : timespec) :
    (CTimeoutmS.setExpiration mSec now).getExpiration.toNat = mSec.toNat := by
  have hunit : (1000000 : UInt64).toNat = 1000000 := rfl
  have hlt := mSec.toNat_lt
  unfold CTimeoutmS.getExpiration
  rw [UInt64.toNat_toUInt32, UInt64.toNat_div, mS_duration, hunit]
  omega

/-- Nothing overflows. -/
theorem int64_rest {d : ℕ} (hdom : t + e + d < 2 ^ 63) :
    int64 (int64 (int64 t + int64 d) - int64 (t + e : ℕ)) = (d : ℤ) - e := by
  unfold int64
  omega

/-- What is left of a duration, in whole units. -/
theorem restTime_toNat {start_ns duration_ns : UInt64} (unit : ℕ) {d : ℕ}
    (hstart : start_ns.toNat = t) (hduration : duration_ns.toNat = d)
    (hdom : t + e + d < 2 ^ 63) (hfits : d / unit < 2 ^ 32) :
    (restTime start_ns duration_ns unit (clock_gettime (t + e))).toNat = (d - e) / unit := by
  have hnow : (getTimeNs (clock_gettime (t + e))).toNat = t + e := getTimeNs_toNat _ (by omega)
  unfold restTime
  rw [hstart, hduration, hnow, int64_rest hdom]
  dsimp only
  split
  · next hneg =>
    rw [show d - e = 0 by omega, Nat.zero_div]
    rfl
  · next hpos =>
    have hle : (d - e) / unit ≤ d / unit := Nat.div_le_div_right (Nat.sub_le d e)
    have htemp' : (d : ℤ) - e = (d - e : ℕ) := by omega
    rw [htemp', ← Int.ofNat_tdiv, Int.toNat_natCast, UInt32.toNat_ofNat']
    apply Nat.mod_eq_of_lt
    omega

theorem CTimeoutmS.getRestTime_toNat (hdom : t + e + mSec.toNat * 1000000 < 2 ^ 63) :
    ((setExpiration mSec (clock_gettime t)).getRestTime (clock_gettime (t + e))).toNat =
      (mSec.toNat * 1000000 - e) / 1000000 := by
  have hlt := mSec.toNat_lt
  apply restTime_toNat 1000000 (getTimeNs_toNat t (by omega)) (mS_duration _) hdom
  omega

/-- Of the duration that is left of it in 32 bits. -/
theorem CTimeout.getRestTime_toNat (uSec : UInt32)
    (hdom : t + e + uSec.toNat * 1000 % 2 ^ 32 < 2 ^ 63) :
    ((setExpiration uSec (clock_gettime t)).getRestTime (clock_gettime (t + e))).toNat =
      (uSec.toNat * 1000 % 2 ^ 32 - e) / 1000 := by
  apply restTime_toNat 1000 (getTimeNs_toNat t (by omega)) (uS_duration uSec _) hdom
  omega

/-- The queries of a timer that was armed at `t` agree `e` nanoseconds later. -/
structure AccountedAt (timeout : CTimeoutmS) (t e : ℕ) : Prop where
  expired : timeout.hasExpired (clock_gettime (t + e)) = true →
    timeout.getRestTime (clock_gettime (t + e)) = 0
  running : timeout.hasExpired (clock_gettime (t + e)) = false →
    (((timeout.getElapsed (clock_gettime (t + e))).toNat : ℤ) +
      (timeout.getRestTime (clock_gettime (t + e))).toNat - timeout.getExpiration.toNat).natAbs ≤ 1

/-- `GetElapsed` does not decrease from the instant `e` to the instant `e'`, where less than 2^32
milliseconds have gone by. -/
def ElapsedGrows (timeout : CTimeoutmS) (t e e' : ℕ) : Prop :=
  e' < 2 ^ 32 * 1000000 →
    timeout.getElapsed (clock_gettime (t + e)) ≤ timeout.getElapsed (clock_gettime (t + e'))

/-- The nanoseconds that have gone by, cut to 32 bits, are within 1 of the milliseconds, rounded
up. -/
def NanosFit (e : ℕ) : Prop :=
  e % 2 ^ 32 ≤ (e + 999999) / 1000000 + 1 ∧ (e + 999999) / 1000000 ≤ e % 2 ^ 32 + 1

instance (e : ℕ) : Decidable (NanosFit e) := inferInstanceAs (Decidable (_ ∧ _))

/-- Until the nanoseconds have 32 bits, two of them fit. -/
theorem nanosFit_iff (he : e < 2 ^ 32) : NanosFit e ↔ e ≤ 2 := by
  rw [NanosFit, Nat.mod_eq_of_lt he]
  constructor
  · intro h
    have hle := h.1
    omega
  · intro h
    omega

/-- While the timer runs, the sum misses the duration as the nanoseconds miss the milliseconds. -/
theorem sum_fits_iff {d : ℕ} (hlt : e < d * 1000000) :
    (((e % 2 ^ 32 : ℕ) : ℤ) + ((d * 1000000 - e) / 1000000 : ℕ) - d).natAbs ≤ 1 ↔ NanosFit e := by
  have hms : (d * 1000000 - e) / 1000000 + (e + 999999) / 1000000 = d := by omega
  unfold NanosFit
  generalize e % 2 ^ 32 = nanos
  generalize (d * 1000000 - e) / 1000000 = rest at hms ⊢
  generalize (e + 999999) / 1000000 = millis at hms ⊢
  omega

theorem accountedAt_iff (hdom : t + e + mSec.toNat * 1000000 < 2 ^ 63) :
    AccountedAt (.setExpiration mSec (clock_gettime t)) t e ↔
      mSec.toNat * 1000000 ≤ e ∨ NanosFit e := by
  have he : e < 2 ^ 64 := by omega
  have hexpired : (CTimeoutmS.setExpiration mSec (clock_gettime t)).hasExpired
      (clock_gettime (t + e)) = true ↔ mSec.toNat * 1000000 ≤ e := CTimeoutmS.hasExpired_iff he
  have hrest := CTimeoutmS.getRestTime_toNat hdom
  constructor
  · intro h
    by_cases hle : mSec.toNat * 1000000 ≤ e
    · exact .inl hle
    · have hsum := h.running (Bool.eq_false_iff.mpr (mt hexpired.mp hle))
      rw [getElapsed_toNat he, hrest, getExpiration_toNat] at hsum
      exact .inr ((sum_fits_iff (Nat.lt_of_not_le hle)).mp hsum)
  · intro h
    constructor
    case expired =>
        intro hexp
        rw [← UInt32.toNat_inj, hrest, Nat.sub_eq_zero_of_le (hexpired.mp hexp), Nat.zero_div]
        rfl
    case running =>
        intro hrun
        have hle := mt hexpired.mpr (Bool.eq_false_iff.mp hrun)
        rw [getElapsed_toNat he, hrest, getExpiration_toNat]
        exact (sum_fits_iff (Nat.lt_of_not_le hle)).mpr (h.resolve_left hle)

theorem elapsedGrows_iff {e' : ℕ} (hle : e ≤ e') :
    ElapsedGrows (.setExpiration mSec (clock_gettime t)) t e e' ↔
      (e' < 2 ^ 32 * 1000000 → e % 2 ^ 32 ≤ e' % 2 ^ 32) := by
  refine forall_congr' fun hms => ?_
  rw [UInt32.le_iff_toNat_le, getElapsed_toNat (by omega), getElapsed_toNat (by omega)]

/-- **The queries agree**, at an instant, exactly where the timer has expired or the nanoseconds
fit; and from one instant to a later one, where less than 2^32 milliseconds have gone by, the
elapsed time does not decrease exactly where the nanoseconds modulo 2^32 do not. -/
theorem accounting_iff (mSec : UInt32) (t e e' : ℕ) (hle : e ≤ e')
    (hdom : t + e' + mSec.toNat * 1000000 < 2 ^ 63) :
    (AccountedAt (.setExpiration mSec (clock_gettime t)) t e ↔
      mSec.toNat * 1000000 ≤ e ∨ NanosFit e) ∧
    (ElapsedGrows (.setExpiration mSec (clock_gettime t)) t e e' ↔
      (e' < 2 ^ 32 * 1000000 → e % 2 ^ 32 ≤ e' % 2 ^ 32)) :=
  ⟨accountedAt_iff (by omega), elapsedGrows_iff hle⟩

/-- A timer of a second, after 1.5 and 1.7 seconds. -/
theorem accounting_iff_example :
    AccountedAt (.setExpiration 1000 (clock_gettime 0)) 0 1500000000 ∧
      ElapsedGrows (.setExpiration 1000 (clock_gettime 0)) 0 1500000000 1700000000 := by
  obtain ⟨hat, hgrows⟩ := accounting_iff 1000 0 1500000000 1700000000 (by decide) (by decide)
  exact ⟨hat.mpr (.inl (by decide)), hgrows.mpr fun _ => by decide⟩

/-- After three nanoseconds of a second 1002 milliseconds are accounted for, and after 2^32 the
elapsed time starts again at zero. -/
theorem not_accounting : ¬ AccountedAt (.setExpiration 1000 (clock_gettime 0)) 0 3 ∧
    ¬ ElapsedGrows (.setExpiration 1000 (clock_gettime 0)) 0 (2 ^ 32 - 1) (2 ^ 32) := by
  constructor
  · rw [accountedAt_iff (by decide), nanosFit_iff (by decide)]
    decide
  · intro h
    have hle := h (by decide)
    revert hle
    decide +kernel

end Accounting
end NetworkStructure
