import Mathlib.Data.Finset.Basic
import Mathlib.Data.List.Perm.Basic
import Mathlib.Data.List.Nodup

/-! # Ledgers

A ledger is a list that is to hold exactly the members of a finite set, each once: the entries
that a program keeps of what it has opened.  Two operations keep it balanced: what is opened is
entered, and what is erased is closed.  The two that do one half of these, opening without an
entry and closing without erasing, unbalance it, unless they change nothing. -/

namespace NetworkStructure

variable {α : Type*}

/-- `held` has the members of `opened`, each once. -/
structure Balanced (held : List α) (opened : Finset α) : Prop where
  nodup : held.Nodup
  mem : ∀ a, a ∈ held ↔ a ∈ opened

variable {held held' : List α} {opened : Finset α} {a : α}

theorem Balanced.perm (h : Balanced held opened) (hp : held.Perm held') : Balanced held' opened :=
  ⟨hp.nodup h.nodup, fun b => hp.mem_iff.symm.trans (h.mem b)⟩

theorem balanced_perm (hp : held.Perm held') : Balanced held opened ↔ Balanced held' opened :=
  ⟨fun h => h.perm hp, fun h => h.perm hp.symm⟩

variable [DecidableEq α]

/-- What is opened is entered. -/
theorem Balanced.enter (h : Balanced held opened) (ha : a ∉ opened) :
    Balanced (a :: held) (insert a opened) where
  nodup := List.nodup_cons.mpr ⟨fun hm => ha ((h.mem a).mp hm), h.nodup⟩
  mem b := by rw [List.mem_cons, Finset.mem_insert, h.mem b]

/-- What is erased is closed. -/
theorem Balanced.erase (h : Balanced held opened) (a : α) :
    Balanced (held.erase a) (opened.erase a) where
  nodup := h.nodup.erase a
  mem b := by rw [h.nodup.mem_erase_iff, Finset.mem_erase, h.mem b]

/-- Closing without erasing. -/
theorem Balanced.close_iff (h : Balanced held opened) :
    Balanced held (opened.erase a) ↔ a ∉ opened := by
  constructor
  · intro h' ha
    have hm := (h'.mem a).mp ((h.mem a).mpr ha)
    exact Finset.notMem_erase a opened hm
  · intro ha
    rwa [Finset.erase_eq_of_notMem ha]

/-- Opening without an entry. -/
theorem Balanced.open_iff (h : Balanced held opened) :
    Balanced held (insert a opened) ↔ a ∈ opened := by
  constructor
  · intro h'
    exact (h.mem a).mp ((h'.mem a).mpr (Finset.mem_insert_self a opened))
  · intro ha
    rwa [Finset.insert_eq_of_mem ha]

end NetworkStructure
