import NetworkStructure.Ledger

/-! # Handles

A program acquires handles and releases them.  It is `Proper` when it acquires only what is free
and releases only what is held: then each handle is released as often as it is acquired, or once
less while it is held (`Proper.count`), and never twice in a row.

Releasing everything in a list is proper and leaves nothing exactly when the list is a balanced
ledger of what is held (`releaseAll_iff`). -/

namespace NetworkStructure

variable {α : Type*}

inductive HandleOp (α : Type*) where
  | acquire (a : α)
  | release (a : α)
deriving DecidableEq, Repr

variable [DecidableEq α]

def HandleOp.apply (held : Finset α) : HandleOp α → Finset α
  | acquire a => insert a held
  | release a => held.erase a

/-- What is held after the operations. -/
def heldAfter (held : Finset α) (ops : List (HandleOp α)) : Finset α :=
  ops.foldl HandleOp.apply held

/-- What is acquired is free, and what is released is held. -/
def HandleOp.Allowed (held : Finset α) : HandleOp α → Prop
  | acquire a => a ∉ held
  | release a => a ∈ held

instance (held : Finset α) (op : HandleOp α) : Decidable (op.Allowed held) :=
  match op with
  | .acquire a => inferInstanceAs (Decidable (a ∉ held))
  | .release a => inferInstanceAs (Decidable (a ∈ held))

def Proper : Finset α → List (HandleOp α) → Prop
  | _, [] => True
  | held, op :: ops => op.Allowed held ∧ Proper (op.apply held) ops

variable {held : Finset α} {ops ops' : List (HandleOp α)} {a : α}

@[simp] theorem heldAfter_nil : heldAfter held [] = held := rfl

@[simp] theorem heldAfter_cons (op : HandleOp α) :
    heldAfter held (op :: ops) = heldAfter (op.apply held) ops := rfl

theorem heldAfter_append :
    heldAfter held (ops ++ ops') = heldAfter (heldAfter held ops) ops' :=
  List.foldl_append ..

theorem proper_append :
    Proper held (ops ++ ops') ↔ Proper held ops ∧ Proper (heldAfter held ops) ops' := by
  induction ops generalizing held with
  | nil => exact ⟨fun h => ⟨trivial, h⟩, And.right⟩
  | cons op ops ih =>
      rw [List.cons_append, Proper, Proper, ih, heldAfter_cons, and_assoc]

/-- What the handles of `held` count for. -/
def holding (held : Finset α) (a : α) : ℕ := if a ∈ held then 1 else 0

theorem HandleOp.Allowed.count {op : HandleOp α} (h : op.Allowed held) :
    [op].count (.acquire a) + holding held a =
      [op].count (.release a) + holding (op.apply held) a := by
  cases op with
  | acquire b =>
      have hb : b ∉ held := h
      by_cases hab : a = b
      · subst hab
        simp [holding, HandleOp.apply, hb]
      · have hba : b ≠ a := fun hba => hab hba.symm
        simp [holding, HandleOp.apply, hab, hba]
  | release b =>
      have hb : b ∈ held := h
      by_cases hab : a = b
      · subst hab
        simp [holding, HandleOp.apply, hb]
      · have hba : b ≠ a := fun hba => hab hba.symm
        simp [holding, HandleOp.apply, hab, hba]

/-- **Conservation**: what has been acquired has been released or is held. -/
theorem Proper.count (h : Proper held ops) (a : α) :
    ops.count (.acquire a) + holding held a =
      ops.count (.release a) + holding (heldAfter held ops) a := by
  induction ops generalizing held with
  | nil => rfl
  | cons op ops ih =>
      obtain ⟨hop, hops⟩ := h
      have h₁ := hop.count (a := a)
      have h₂ := ih hops
      rw [← List.singleton_append, List.count_append, List.count_append, heldAfter_append]
      rw [heldAfter_cons, heldAfter_nil]
      omega

/-- Nothing is held before and after: each handle is released as often as it is acquired. -/
theorem Proper.count_eq (h : Proper (∅ : Finset α) ops) (he : heldAfter ∅ ops = ∅) (a : α) :
    ops.count (.acquire a) = ops.count (.release a) := by
  have hc := h.count a
  rw [he] at hc
  omega

theorem heldAfter_releaseAll (l : List α) :
    heldAfter held (l.map .release) = held \ l.toFinset := by
  induction l generalizing held with
  | nil => simp
  | cons b l ih =>
      rw [List.map_cons, heldAfter_cons, ih]
      ext c
      simp [HandleOp.apply]
      tauto

theorem proper_releaseAll (l : List α) :
    Proper held (l.map .release) ↔ l.Nodup ∧ ∀ b ∈ l, b ∈ held := by
  induction l generalizing held with
  | nil => exact iff_of_true trivial ⟨.nil, fun _ h => nomatch h⟩
  | cons b l ih =>
      rw [List.map_cons, Proper, ih, List.nodup_cons, List.forall_mem_cons]
      constructor
      · rintro ⟨hb, hnd, hl⟩
        have hbl : b ∉ l := fun hm => Finset.notMem_erase b held (hl b hm)
        exact ⟨⟨hbl, hnd⟩, hb, fun c hc => Finset.mem_of_mem_erase (hl c hc)⟩
      · rintro ⟨⟨hbl, hnd⟩, hb, hl⟩
        refine ⟨hb, hnd, fun c hc => ?_⟩
        exact Finset.mem_erase_of_ne_of_mem (fun hcb => hbl (hcb ▸ hc)) (hl c hc)

/-- A handle that is not in a ledger, and its entry. -/
theorem balanced_cons_iff {l : List α} (ha : a ∉ held) :
    Balanced (a :: l) (insert a held) ↔ Balanced l held := by
  constructor
  · intro h
    obtain ⟨hal, hnd⟩ := List.nodup_cons.mp h.nodup
    refine ⟨hnd, fun b => ?_⟩
    by_cases hb : b = a
    · subst hb
      exact iff_of_false hal ha
    · have hm := h.mem b
      rwa [List.mem_cons, Finset.mem_insert, or_iff_right hb, or_iff_right hb] at hm
  · exact fun h => h.enter ha

/-- **Releasing what a ledger lists** is proper and leaves nothing exactly when the ledger is
balanced. -/
theorem releaseAll_iff (l : List α) :
    (Proper held (l.map .release) ∧ heldAfter held (l.map .release) = ∅) ↔ Balanced l held := by
  rw [proper_releaseAll, heldAfter_releaseAll, Finset.sdiff_eq_empty_iff_subset]
  constructor
  · rintro ⟨⟨hnd, hl⟩, hsub⟩
    exact ⟨hnd, fun b => ⟨hl b, fun hb => List.mem_toFinset.mp (hsub hb)⟩⟩
  · intro h
    exact ⟨⟨h.nodup, fun b => (h.mem b).mp⟩, fun b hb => List.mem_toFinset.mpr ((h.mem b).mpr hb)⟩

end NetworkStructure
