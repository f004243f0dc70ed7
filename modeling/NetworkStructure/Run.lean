import Mathlib.Data.List.Basic

/-! # Runs of a labelled transition system

`Run step s ls t` says that the labels `ls`, taken one after another from `s`, end in `t`.
The module gives the rules by which every run-level statement of the development is proved:

* `Run.invariant`: a predicate that holds at the start and is kept by every step holds in
  every state a run reaches;
* `RunWith step Q`: the runs each of whose steps satisfies `Q`; `RunWith.invariant` is the
  invariant rule for them, where the step may use that it satisfies `Q`;
* `Run.observed`: a list that each step lengthens by what its label says has been lengthened, in
  order, by what the labels of the run say;
* `runWith_iff`: under an invariant, two conditions on steps that agree one step at a time
  select the same runs.  It turns "this step goes wrong exactly when ..." into a statement
  about whole runs;
* `Run.iff_runWith`: a property that a step can only lose, and loses exactly when it misses `Q`,
  holds at the end of exactly the runs whose steps all satisfy `Q`;
* `Recorded`: the system with a history beside it, which every run has (`run_recorded_iff`);
* `exists_run`, `exists_runWith`: a system given by a partial function is run by folding it over
  the labels, and a run on fixed labels is found by evaluation. -/

namespace NetworkStructure

variable {σ ℓ : Type*}

/-- `Run step s ls t`: from `s`, the labels `ls` are taken one after another, ending in `t`. -/
inductive Run (step : σ → ℓ → σ → Prop) : σ → List ℓ → σ → Prop
  | nil (s : σ) : Run step s [] s
  | cons {s t u : σ} {a : ℓ} {ls : List ℓ} :
      step s a t → Run step t ls u → Run step s (a :: ls) u

variable {step : σ → ℓ → σ → Prop}

theorem Run.append {s t u : σ} {ls ms : List ℓ} (h : Run step s ls t) (h' : Run step t ms u) :
    Run step s (ls ++ ms) u := by
  induction h with
  | nil => exact h'
  | cons hs _ ih => exact .cons hs (ih h')

/-- **Invariant rule**: what holds at the start and is kept by every step holds in every
state that a run reaches. -/
theorem Run.invariant {I : σ → Prop} (hstep : ∀ s a t, I s → step s a t → I t)
    {s t : σ} {ls : List ℓ} (h : Run step s ls t) (h0 : I s) : I t := by
  induction h with
  | nil => exact h0
  | cons hs _ ih => exact ih (hstep _ _ _ h0 hs)

/-- **Observation rule**: where a step, under the invariant `I`, appends to the list `f` what its
label says, a run appends what its labels say, in order. -/
theorem Run.observed {β : Type*} {I : σ → Prop} {f : σ → List β} {g : ℓ → List β}
    (hI : ∀ s a t, I s → step s a t → I t) (hf : ∀ s a t, I s → step s a t → f t = f s ++ g a)
    {s t : σ} {ls : List ℓ} (h : Run step s ls t) (h0 : I s) : f t = f s ++ ls.flatMap g := by
  induction h with
  | nil => exact (List.append_nil _).symm
  | cons hs _ ih =>
      rw [ih (hI _ _ _ h0 hs), hf _ _ _ h0 hs, List.flatMap_cons, List.append_assoc]

/-- The runs each of whose steps satisfies `Q` (a condition on the state before the step, the
label and the state after it). -/
def RunWith (step : σ → ℓ → σ → Prop) (Q : σ → ℓ → σ → Prop) : σ → List ℓ → σ → Prop :=
  Run fun s a t => step s a t ∧ Q s a t

theorem RunWith.invariant {Q : σ → ℓ → σ → Prop} {I : σ → Prop}
    (hstep : ∀ s a t, I s → step s a t → Q s a t → I t)
    {s t : σ} {ls : List ℓ} (h : RunWith step Q s ls t) (h0 : I s) : I t :=
  Run.invariant (fun s a t hI hs => hstep s a t hI hs.1 hs.2) h h0

/-- Two step conditions that agree under an invariant select the same runs.  The invariant
need only be kept by the steps that satisfy the conditions. -/
theorem runWith_iff {Q R : σ → ℓ → σ → Prop} {I : σ → Prop}
    (hkeep : ∀ s a t, I s → step s a t → R s a t → I t)
    (hiff : ∀ s a t, I s → step s a t → (Q s a t ↔ R s a t))
    {s t : σ} {ls : List ℓ} (h0 : I s) : RunWith step Q s ls t ↔ RunWith step R s ls t := by
  constructor
  · intro h
    induction h with
    | nil => exact .nil _
    | cons hs _ ih =>
        have hR := (hiff _ _ _ h0 hs.1).mp hs.2
        exact .cons ⟨hs.1, hR⟩ (ih (hkeep _ _ _ h0 hs.1 hR))
  · intro h
    induction h with
    | nil => exact .nil _
    | cons hs _ ih =>
        exact .cons ⟨hs.1, (hiff _ _ _ h0 hs.1).mpr hs.2⟩ (ih (hkeep _ _ _ h0 hs.1 hs.2))

/-- A condition on the labels alone. -/
theorem runWith_label_iff {P : ℓ → Prop} {s t : σ} {ls : List ℓ} :
    RunWith step (fun _ a _ => P a) s ls t ↔ Run step s ls t ∧ ∀ a ∈ ls, P a := by
  constructor
  · intro h
    induction h with
    | nil => exact ⟨.nil _, fun a ha => absurd ha List.not_mem_nil⟩
    | cons hs _ ih => exact ⟨.cons hs.1 ih.1, List.forall_mem_cons.mpr ⟨hs.2, ih.2⟩⟩
  · rintro ⟨h, hP⟩
    induction h with
    | nil => exact .nil _
    | cons hs _ ih =>
        rw [List.forall_mem_cons] at hP
        exact .cons ⟨hs, hP.1⟩ (ih hP.2)

/-- Where every step that misses `Q` enters `D`, and `D` is never left, a run that ends outside
`D` satisfies `Q` at every step. -/
theorem Run.runWith_of_not {Q : σ → ℓ → σ → Prop} {I D : σ → Prop}
    (hI : ∀ s a t, I s → step s a t → I t) (hD : ∀ s a t, I s → step s a t → D s → D t)
    (hQ : ∀ s a t, I s → step s a t → ¬ Q s a t → D t)
    {s t : σ} {ls : List ℓ} (h : Run step s ls t) (h0 : I s) (ht : ¬ D t) :
    RunWith step Q s ls t := by
  induction h with
  | nil => exact .nil _
  | @cons s u t a ls hs hrun ih =>
      have hu := hI _ _ _ h0 hs
      refine .cons ⟨hs, ?_⟩ (ih hu ht)
      by_contra hq
      have hkeep : ∀ s a t, I s ∧ D s → step s a t → I t ∧ D t :=
        fun _ _ _ h hs => ⟨hI _ _ _ h.1 hs, hD _ _ _ h.1 hs h.2⟩
      exact ht (hrun.invariant hkeep ⟨hu, hQ _ _ _ h0 hs hq⟩).2

/-- Where steps start only from states in `C`, a run that ends in `C` starts there. -/
theorem Run.start_mem {C : σ → Prop} (hC : ∀ s a t, step s a t → C s) {s t : σ} {ls : List ℓ}
    (h : Run step s ls t) (ht : C t) : C s := by
  cases h with
  | nil => exact ht
  | cons hs _ => exact hC _ _ _ hs

/-- A property that a step ends in exactly when it starts in it and satisfies `Q` holds at the end
of a run exactly when it holds at the start and every step satisfies `Q`.  The states in `C` are
those that a run can go on from. -/
theorem Run.iff_runWith {Q : σ → ℓ → σ → Prop} {I C P : σ → Prop}
    (hI : ∀ s a t, I s → step s a t → I t) (hC : ∀ s a t, step s a t → C s)
    (hstep : ∀ s a t, I s → C t → step s a t → (P t ↔ P s ∧ Q s a t))
    {s t : σ} {ls : List ℓ} (h : Run step s ls t) (h0 : I s) (ht : C t) :
    P t ↔ P s ∧ RunWith step Q s ls t := by
  constructor
  · intro hp
    induction h with
    | nil => exact ⟨hp, .nil _⟩
    | cons hs hrun ih =>
        obtain ⟨hu, hrest⟩ := ih (hI _ _ _ h0 hs) ht hp
        obtain ⟨hp, hq⟩ := (hstep _ _ _ h0 (hrun.start_mem hC ht) hs).mp hu
        exact ⟨hp, .cons ⟨hs, hq⟩ hrest⟩
  · rintro ⟨hp, hrun⟩
    clear h
    induction hrun with
    | nil => exact hp
    | cons hs hrun ih =>
        have hu := hrun.start_mem (fun s a t hs => hC s a t hs.1) ht
        exact ih (hI _ _ _ h0 hs.1) ht ((hstep _ _ _ h0 hu hs.1).mpr ⟨hp, hs.2⟩)

/-- A run of one system is a run of any other that makes its steps. -/
theorem Run.mono {step' : σ → ℓ → σ → Prop} (hsub : ∀ s a t, step s a t → step' s a t) {s t : σ}
    {ls : List ℓ} (h : Run step s ls t) : Run step' s ls t := by
  induction h with
  | nil => exact .nil _
  | cons hs _ ih => exact .cons (hsub _ _ _ hs) ih

/-- The system with a history, which each step continues. -/
def Recorded {η : Type*} (step : σ → ℓ → σ → Prop) (next : η → σ → ℓ → σ → η) (s : σ × η) (a : ℓ)
    (t : σ × η) : Prop :=
  step s.1 a t.1 ∧ t.2 = next s.2 s.1 a t.1

/-- Every run has a history, which adds no run. -/
theorem run_recorded_iff {η : Type*} {next : η → σ → ℓ → σ → η} {s t : σ} {ls : List ℓ} (j : η) :
    (∃ j', Run (Recorded step next) (s, j) ls (t, j')) ↔ Run step s ls t := by
  constructor
  · rintro ⟨j', h⟩
    induction ls generalizing s j with
    | nil =>
        cases h
        exact .nil _
    | cons a ls ih =>
        cases h with
        | @cons _ u _ _ _ hs hrest => exact .cons hs.1 (ih u.2 hrest)
  · intro h
    induction h generalizing j with
    | nil s => exact ⟨j, .nil _⟩
    | @cons s t u a ls hs _ ih =>
        obtain ⟨j', h⟩ := ih (next j s a t)
        exact ⟨j', .cons ⟨hs, rfl⟩ h⟩

theorem run_of_foldlM {act : σ → ℓ → Option σ} {s t : σ} {ls : List ℓ}
    (h : ls.foldlM act s = some t) : Run (fun s a t => act s a = some t) s ls t := by
  induction ls generalizing s with
  | nil =>
      cases h
      exact .nil _
  | cons a ls ih =>
      rw [List.foldlM_cons] at h
      obtain ⟨u, hu, h⟩ := Option.bind_eq_some_iff.mp h
      exact .cons hu (ih h)

/-- Labels that take a system given by a partial function to a state with the property `P`. -/
theorem exists_run (act : σ → ℓ → Option σ) (P : σ → Prop) [DecidablePred P] (s : σ) (ls : List ℓ)
    (h : (ls.foldlM act s).any (fun t => decide (P t)) = true) :
    ∃ t, Run (fun s a t => act s a = some t) s ls t ∧ P t := by
  obtain ⟨t, ht, hp⟩ := (Option.any_eq_true _ _).mp h
  exact ⟨t, run_of_foldlM ht, of_decide_eq_true hp⟩

/-- The same by steps that satisfy `Q`. -/
theorem exists_runWith (act : σ → ℓ → Option σ) (Q : σ → ℓ → Prop)
    [∀ s a, Decidable (Q s a)] (P : σ → Prop) [DecidablePred P] (s : σ) (ls : List ℓ)
    (h : (ls.foldlM (fun s a => if Q s a then act s a else none) s).any
      (fun t => decide (P t)) = true) :
    ∃ t, RunWith (fun s a t => act s a = some t) (fun s a _ => Q s a) s ls t ∧ P t := by
  obtain ⟨t, run, hp⟩ := exists_run _ P s ls h
  refine ⟨t, run.mono fun s a t hs => ?_, hp⟩
  split at hs
  · next hq => exact ⟨hs, hq⟩
  · cases hs

end NetworkStructure
