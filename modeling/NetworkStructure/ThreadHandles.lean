import Mathlib.Data.Finset.Image
import Mathlib.Data.List.Basic

/-! # Thread handles

A `std::thread` is joinable from when a thread is assigned to it until that thread is joined.  The
process is terminated when one that is joinable is assigned to or destroyed, and when one that is
not is joined.

A guarded object has a flag that says whether its thread is running: it assigns to its handle only
when the flag is clear, and joins it only when the flag is set.  Where each object has its own
handle this is enough.  Objects that share handles are safe exactly in the sequences of calls in
which no two of them with the same handle are running at once (`guarded_iff`). -/

namespace NetworkStructure

variable {ι κ : Type*}

inductive ThreadOp (κ : Type*) where
  | assign (h : κ)
  | join (h : κ)
  | destroy (h : κ)
deriving DecidableEq, Repr

/-- The calls of a guarded object. -/
inductive GuardedCall (ι : Type*) where
  | start (i : ι)
  | stop (i : ι)
deriving DecidableEq, Repr

section

variable [DecidableEq κ]

/-- The handles that are joinable afterwards; `none` where the process is terminated. -/
def ThreadOp.exec (joinable : Finset κ) : ThreadOp κ → Option (Finset κ)
  | assign h => if h ∈ joinable then none else some (insert h joinable)
  | join h => if h ∈ joinable then some (joinable.erase h) else none
  | destroy h => if h ∈ joinable then none else some joinable

def execThreads (joinable : Finset κ) (ops : List (ThreadOp κ)) : Option (Finset κ) :=
  ops.foldlM ThreadOp.exec joinable

theorem execThreads_singleton (joinable : Finset κ) (op : ThreadOp κ) :
    execThreads joinable [op] = op.exec joinable := by
  simp [execThreads]

theorem execThreads_append (joinable : Finset κ) (xs ys : List (ThreadOp κ)) :
    execThreads joinable (xs ++ ys) = (execThreads joinable xs).bind (execThreads · ys) :=
  List.foldlM_append ..

end

section

variable [DecidableEq ι]

/-- The objects whose flag is set after a call. -/
def GuardedCall.next (running : Finset ι) : GuardedCall ι → Finset ι
  | start i => insert i running
  | stop i => running.erase i

/-- What a call does to the handle of its object. -/
def GuardedCall.ops (handle : ι → κ) (running : Finset ι) : GuardedCall ι → List (ThreadOp κ)
  | start i => if i ∈ running then [] else [.assign (handle i)]
  | stop i => if i ∈ running then [.join (handle i)] else []

def runningAfter (running : Finset ι) (calls : List (GuardedCall ι)) : Finset ι :=
  calls.foldl GuardedCall.next running

def guardedOps (handle : ι → κ) : Finset ι → List (GuardedCall ι) → List (ThreadOp κ)
  | _, [] => []
  | running, c :: calls => c.ops handle running ++ guardedOps handle (c.next running) calls

variable {handle : ι → κ} {running : Finset ι}

@[simp] theorem runningAfter_cons (c : GuardedCall ι) (calls : List (GuardedCall ι)) :
    runningAfter running (c :: calls) = runningAfter (c.next running) calls := rfl

theorem guardedOps_append (xs ys : List (GuardedCall ι)) :
    guardedOps handle running (xs ++ ys) =
      guardedOps handle running xs ++ guardedOps handle (runningAfter running xs) ys := by
  induction xs generalizing running with
  | nil => rfl
  | cons c xs ih => rw [List.cons_append, guardedOps, guardedOps, ih, List.append_assoc]; rfl

/-- No two objects with the same handle are running, now or after any of the calls. -/
def NeverShared (handle : ι → κ) : Finset ι → List (GuardedCall ι) → Prop
  | running, [] => Set.InjOn handle running
  | running, c :: calls => Set.InjOn handle running ∧ NeverShared handle (c.next running) calls

theorem NeverShared.start {calls : List (GuardedCall ι)}
    (h : NeverShared handle running calls) : Set.InjOn handle running := by
  cases calls with
  | nil => exact h
  | cons c calls => exact h.1

theorem neverShared_iff {calls : List (GuardedCall ι)} : NeverShared handle running calls ↔
    ∀ done, done <+: calls → Set.InjOn handle (runningAfter running done) := by
  induction calls generalizing running with
  | nil =>
      constructor
      · intro h done hd
        rw [List.prefix_nil.mp hd]
        exact h
      · exact fun h => h [] (List.prefix_refl [])
  | cons c calls ih =>
      rw [NeverShared, ih]
      constructor
      · rintro ⟨hinj, h⟩ done hd
        rcases List.prefix_cons_iff.mp hd with rfl | ⟨done', rfl, hd'⟩
        · exact hinj
        · exact h done' hd'
      · intro h
        refine ⟨h [] List.nil_prefix, fun done hd => ?_⟩
        exact h (c :: done) (List.cons_prefix_cons.mpr ⟨rfl, hd⟩)

variable [DecidableEq κ]

theorem injOn_insert {i : ι} (hi : i ∉ running) (hinj : Set.InjOn handle running) :
    Set.InjOn handle (insert i running : Finset ι) ↔ handle i ∉ running.image handle := by
  rw [Finset.coe_insert, Set.injOn_insert (by simpa using hi), and_iff_right hinj]
  simp

theorem image_erase {i : ι} (hi : i ∈ running) (hinj : Set.InjOn handle running) :
    (running.erase i).image handle = (running.image handle).erase (handle i) := by
  ext h
  simp only [Finset.mem_image, Finset.mem_erase]
  constructor
  · rintro ⟨j, ⟨hne, hj⟩, rfl⟩
    exact ⟨fun he => hne (hinj hj hi he), j, hj, rfl⟩
  · rintro ⟨hne, j, hj, rfl⟩
    exact ⟨j, ⟨fun he => hne (he ▸ rfl), hj⟩, rfl⟩

/-- **One call**, where the handles that are joinable are those of the running objects, each of
its own: it goes through exactly when this is so afterwards. -/
theorem GuardedCall.exec_ops (hinj : Set.InjOn handle running) (c : GuardedCall ι) :
    (Set.InjOn handle (c.next running) → execThreads (running.image handle)
      (c.ops handle running) = some ((c.next running).image handle)) ∧
    (¬ Set.InjOn handle (c.next running) →
      execThreads (running.image handle) (c.ops handle running) = none) := by
  cases c with
  | start i =>
      by_cases hi : i ∈ running
      · have hnext : next running (start i) = running := Finset.insert_eq_of_mem hi
        have hops : ops handle running (start i) = [] := if_pos hi
        rw [hnext, hops]
        exact ⟨fun _ => rfl, fun h => absurd hinj h⟩
      · have hops : ops handle running (start i) = [.assign (handle i)] := if_neg hi
        rw [hops, execThreads_singleton, next, injOn_insert hi hinj, Finset.image_insert]
        exact ⟨fun h => if_neg h, fun h => if_pos (not_not.mp h)⟩
  | stop i =>
      by_cases hi : i ∈ running
      · have hops : ops handle running (stop i) = [.join (handle i)] := if_pos hi
        have hsub : Set.InjOn handle (running.erase i : Finset ι) :=
          hinj.mono (Finset.coe_subset.mpr (Finset.erase_subset i running))
        rw [hops, execThreads_singleton, next, image_erase hi hinj]
        exact ⟨fun _ => if_pos (Finset.mem_image_of_mem handle hi), fun h => absurd hsub h⟩
      · have hnext : next running (stop i) = running := Finset.erase_eq_of_notMem hi
        have hops : ops handle running (stop i) = [] := if_neg hi
        rw [hnext, hops]
        exact ⟨fun _ => rfl, fun h => absurd hinj h⟩

theorem execThreads_guarded {calls : List (GuardedCall ι)}
    (h : NeverShared handle running calls) :
    execThreads (running.image handle) (guardedOps handle running calls) =
      some ((runningAfter running calls).image handle) := by
  induction calls generalizing running with
  | nil => rfl
  | cons c calls ih =>
      obtain ⟨hinj, hrest⟩ := h
      rw [guardedOps, execThreads_append, (c.exec_ops hinj).1 hrest.start, Option.bind_some,
        ih hrest, runningAfter_cons]

/-- **A sequence of calls** leaves the process running exactly when no handle is ever shared; then
the handles of the running objects are those that are joinable. -/
theorem guarded_iff (hinj : Set.InjOn handle running) (calls : List (GuardedCall ι)) :
    execThreads (running.image handle) (guardedOps handle running calls) ≠ none ↔
      NeverShared handle running calls := by
  constructor
  · induction calls generalizing running with
    | nil => exact fun _ => hinj
    | cons c calls ih =>
        intro h
        rw [guardedOps, execThreads_append] at h
        by_cases hc : Set.InjOn handle (c.next running)
        · rw [(c.exec_ops hinj).1 hc, Option.bind_some] at h
          exact ⟨hinj, ih hc h⟩
        · rw [(c.exec_ops hinj).2 hc] at h
          exact absurd rfl h
  · intro h
    rw [execThreads_guarded h]
    exact Option.some_ne_none _

/-- An object that stops its thread in its destructor, and shares its handle with none that is
running, is destroyed. -/
theorem execThreads_stop_destroy (hinj : Set.InjOn handle running) {i : ι}
    (hi : handle i ∉ (running.erase i).image handle) :
    execThreads (running.image handle)
        ((GuardedCall.stop i).ops handle running ++ [.destroy (handle i)]) =
      some ((running.erase i).image handle) := by
  have hsub : Set.InjOn handle (running.erase i : Finset ι) :=
    hinj.mono (Finset.coe_subset.mpr (Finset.erase_subset i running))
  rw [execThreads_append, ((GuardedCall.stop i).exec_ops hinj).1 hsub, Option.bind_some,
    execThreads_singleton]
  exact if_neg hi

end
end NetworkStructure
