import Mathlib.Data.List.Nodup
import NetworkStructure.FdManager
import NetworkStructure.Run

/-! # The capacity of an FdManager, and what it holds

`FdManager(n)` is meant to hold `n` descriptors: both server classes count on it for the bound on
their clients.  A run is any sequence of `Insert`, `Delete` and `ClearAll`, and its history says
which descriptors should be found.

`Find` agrees with the history in every run (`FdHistory.Finds`).  The bound is missed by one: the
test of `Insert` is `<=`, so the manager takes one more when it holds `n`.  Hence the bound and
the refusal at `n` last exactly as long as no `Insert` comes at `n` (`fdManager_iff`). -/

namespace NetworkStructure

/-! ### Histories -/

inductive FdCall where
  | insert (fd : Fd)
  | delete (fd : Fd)
  | clearAll
deriving DecidableEq, Repr

/-- The answer, where there is one, and the manager afterwards. -/
def FdManager.call (m : FdManager) : FdCall → Option ℤ × FdManager
  | .insert fd => (some (m.insert fd).1, (m.insert fd).2)
  | .delete fd => (some (m.delete fd).1, (m.delete fd).2)
  | .clearAll => (none, m.clearAll)

/-- A manager and the calls that were made to it with their answers, the last one first. -/
structure FdHistory where
  manager : FdManager
  calls : List (FdCall × Option ℤ) := []

namespace FdHistory

/-- `FdManager(num)`. -/
def new (num : ℕ) : FdHistory := { manager := { maxSize_ := num } }

def act (s : FdHistory) (c : FdCall) : Option FdHistory :=
  some { manager := (s.manager.call c).2, calls := (c, (s.manager.call c).1) :: s.calls }

def Step (s : FdHistory) (c : FdCall) (t : FdHistory) : Prop := s.act c = some t

end FdHistory

/-- `fd` was inserted, and not since deleted or cleared. -/
def Held (fd : Fd) : List (FdCall × Option ℤ) → Prop
  | [] => False
  | (.insert d, r) :: calls => (d = fd ∧ r = some 0) ∨ Held fd calls
  | (.delete d, _) :: calls => d ≠ fd ∧ Held fd calls
  | (.clearAll, _) :: _ => False

/-- Each descriptor was inserted only while it was absent. -/
def OnlyWhileAbsent : List (FdCall × Option ℤ) → Prop
  | [] => True
  | (.insert d, _) :: calls => ¬ Held d calls ∧ OnlyWhileAbsent calls
  | (.delete _, _) :: calls | (.clearAll, _) :: calls => OnlyWhileAbsent calls

namespace FdHistory

/-- `Find` answers with the descriptors that the history says are there. -/
def Finds (s : FdHistory) : Prop :=
  OnlyWhileAbsent s.calls → ∀ fd : Fd, s.manager.find fd = fd ↔ Held fd s.calls

/-- The step is that of a manager of at most `n` descriptors. -/
structure Bounded (n : ℕ) (s : FdHistory) (c : FdCall) (t : FdHistory) : Prop where
  count : t.manager.getTotalCount ≤ n
  insert : ∀ fd, c = .insert fd →
    ((s.manager.insert fd).1 = -1 ∧ t.manager = s.manager ↔ s.manager.getTotalCount = n)
  find : t.Finds

/-- An `Insert` finds fewer than `n` descriptors. -/
def Roomy (n : ℕ) (s : FdHistory) : FdCall → Prop
  | .insert _ => s.manager.getTotalCount < n
  | .delete _ | .clearAll => True

instance (n : ℕ) (s : FdHistory) (c : FdCall) : Decidable (s.Roomy n c) := by
  unfold Roomy
  cases c <;> infer_instance

/-! ### What a step keeps -/

/-- The list of the manager is a list of what is held, without repetition. -/
def Lists (s : FdHistory) : Prop :=
  OnlyWhileAbsent s.calls → s.manager.fdVec_.Nodup ∧ ∀ fd, fd ∈ s.manager.fdVec_ ↔ Held fd s.calls

variable {n : ℕ} {s t : FdHistory} {c : FdCall}

theorem Lists.finds (h : s.Lists) : s.Finds := by
  intro ha fd
  rw [← (h ha).2 fd]
  unfold FdManager.find
  split
  · next hm => exact iff_of_true rfl hm
  · next hm => exact iff_of_false (by omega) hm

theorem Lists.step (h : s.Lists) (hs : s.Step c t) : t.Lists := by
  obtain rfl := Option.some.inj hs
  cases c with
  | insert fd =>
      rintro ⟨hfd, ha⟩
      obtain ⟨hnd, hmem⟩ := h ha
      show (s.manager.insert fd).2.fdVec_.Nodup ∧ ∀ d, d ∈ (s.manager.insert fd).2.fdVec_ ↔
        (fd = d ∧ some (s.manager.insert fd).1 = some 0) ∨ Held d s.calls
      unfold FdManager.insert
      split
      · have hnew : fd ∉ s.manager.fdVec_ := fun hm => hfd ((hmem fd).mp hm)
        have hdisj := List.disjoint_singleton.mpr hnew
        refine ⟨hnd.append (List.nodup_singleton fd) hdisj, fun d => ?_⟩
        rw [List.mem_append, List.mem_singleton, hmem d]
        simp only [and_true]
        rw [or_comm, eq_comm]
      · refine ⟨hnd, fun d => ?_⟩
        rw [hmem d]
        simp
  | delete fd =>
      intro ha
      obtain ⟨hnd, hmem⟩ := h ha
      show (s.manager.delete fd).2.fdVec_.Nodup ∧ ∀ d, d ∈ (s.manager.delete fd).2.fdVec_ ↔
        fd ≠ d ∧ Held d s.calls
      rw [FdManager.delete_fdVec_]
      refine ⟨hnd.erase fd, fun d => ?_⟩
      rw [hnd.mem_erase_iff, hmem d, ne_comm]
  | clearAll =>
      intro _
      exact ⟨List.nodup_nil, fun d => iff_of_false List.not_mem_nil id⟩

theorem maxSize_step (hs : s.Step c t) : t.manager.maxSize_ = s.manager.maxSize_ := by
  obtain rfl := Option.some.inj hs
  cases c with
  | insert fd => exact s.manager.insert_maxSize_ fd
  | delete fd => exact s.manager.delete_maxSize_ fd
  | clearAll => rfl

/-- The invariant of the runs in which there is always room. -/
structure Kept (n : ℕ) (s : FdHistory) : Prop where
  maxSize_ : s.manager.maxSize_ = n
  count : s.manager.getTotalCount ≤ n
  lists : s.Lists

/-- **One step**: it is that of a bounded manager exactly when it finds room. -/
theorem Kept.bounded_iff (h : s.Kept n) (hs : s.Step c t) : Bounded n s c t ↔ s.Roomy n c := by
  have hfind := (h.lists.step hs).finds
  obtain rfl := Option.some.inj hs
  have hcount := h.count
  cases c with
  | insert fd =>
      have htest : s.manager.fdVec_.length ≤ s.manager.maxSize_ := by
        rw [h.maxSize_]
        exact hcount
      have hins : s.manager.insert fd =
          (0, { s.manager with fdVec_ := s.manager.fdVec_ ++ [fd] }) := if_pos htest
      have hgrow : (s.manager.insert fd).2.getTotalCount = s.manager.getTotalCount + 1 := by
        rw [hins]
        exact List.length_append
      constructor
      · intro hb
        have hle : (s.manager.insert fd).2.getTotalCount ≤ n := hb.count
        show s.manager.getTotalCount < n
        omega
      · intro hr
        have hlt : s.manager.getTotalCount < n := hr
        constructor
        case count =>
            show (s.manager.insert fd).2.getTotalCount ≤ n
            omega
        case insert =>
            rintro d ⟨⟩
            refine iff_of_false (fun h => ?_) (Nat.ne_of_lt hlt)
            rw [hins] at h
            cases h.1
        case find => exact hfind
  | delete fd =>
      refine iff_of_true ⟨?_, nofun, hfind⟩ trivial
      show (s.manager.delete fd).2.fdVec_.length ≤ n
      rw [FdManager.delete_fdVec_]
      exact Nat.le_trans List.length_erase_le hcount
  | clearAll => exact iff_of_true ⟨Nat.zero_le n, nofun, hfind⟩ trivial

theorem Kept.step (h : s.Kept n) (hs : s.Step c t) (hr : s.Roomy n c) : t.Kept n where
  maxSize_ := (maxSize_step hs).trans h.maxSize_
  count := ((h.bounded_iff hs).mpr hr).count
  lists := h.lists.step hs

theorem kept_new (n : ℕ) : (new n).Kept n :=
  ⟨rfl, Nat.zero_le n, fun _ => ⟨List.nodup_nil, fun _ => iff_of_false List.not_mem_nil id⟩⟩

end FdHistory

/-- **An `FdManager(n)` over its runs.**  While every `Insert` finds fewer than `n` descriptors,
there are never more than `n`, and the steps are those of a bounded manager; in every other run
some step is not.  `Find` is right in all of them. -/
theorem fdManager_iff (n : ℕ) (cs : List FdCall) (t : FdHistory) :
    (RunWith FdHistory.Step (fun s c _ => s.Roomy n c) (.new n) cs t →
      t.manager.getTotalCount ≤ n) ∧
    (RunWith FdHistory.Step (FdHistory.Bounded n) (.new n) cs t ↔
      RunWith FdHistory.Step (fun s c _ => s.Roomy n c) (.new n) cs t) ∧
    (Run FdHistory.Step (.new n) cs t → t.Finds) := by
  have hinit := FdHistory.kept_new n
  have hkeep : ∀ (s : FdHistory) c t, s.Kept n → s.Step c t → s.Roomy n c → t.Kept n :=
    fun s c t h hs hr => h.step hs hr
  refine ⟨fun h => (RunWith.invariant hkeep h hinit).count, ?_, fun h => ?_⟩
  · exact runWith_iff hkeep (fun s c t h hs => h.bounded_iff hs) hinit
  · exact FdHistory.Lists.finds (h.invariant (fun s c t hl hs => hl.step hs) hinit.lists)

/-- Room for one. -/
theorem fdManager_iff_example : ∃ t : FdHistory,
    t.manager.fdVec_ = [6] ∧ t.manager.getTotalCount ≤ 1 ∧ t.Finds := by
  obtain ⟨t, run, ht⟩ := exists_runWith FdHistory.act (FdHistory.Roomy 1)
    (fun t => t.manager.fdVec_ = [6]) (.new 1) [.insert 5, .delete 5, .insert 6] (by decide)
  have h := fdManager_iff 1 [.insert 5, .delete 5, .insert 6] t
  exact ⟨t, ht, h.1 run, h.2.2 (run.mono fun s c t hs => hs.1)⟩

/-- A manager for no descriptor takes one. -/
theorem not_fdManager : ∃ t : FdHistory,
    Run FdHistory.Step (.new 0) [.insert 5] t ∧ ¬ t.manager.getTotalCount ≤ 0 ∧
      ¬ FdHistory.Bounded 0 (.new 0) (.insert 5) t := by
  obtain ⟨t, run, ht⟩ := exists_run FdHistory.act (fun t => ¬ t.manager.getTotalCount ≤ 0)
    (.new 0) [.insert 5] (by decide)
  exact ⟨t, run, ht, fun h => ht h.count⟩

end NetworkStructure
