import Mathlib.Data.List.AList
import Mathlib.Logic.Function.Basic
import NetworkStructure.FdManager
import NetworkStructure.Run

/-! # FdManagerSet

A set of `FdManager`s, each under a name, is meant to behave as a map from names to bounded lists
of descriptors (`FdManagerSet.lists`), with room for `maxSize_` names.

The map is an `unordered_map`: it holds a name once, in an order that the program cannot rely on.
`insert` and `DeleteManagerSet` walk through all of it.  What a call does to the lists is
`lookup_insertLoop`, `lookup_deleteLoop` and `creatManagerSet_lists`.

Two results of the inner operations get lost.  `insert` drops the answer of `FdManager::Insert`,
and answers 0 also where the list was full; `maxSize_` is stored, and never looked at.  The set is
right exactly in the runs in which neither matters (`fdManagerSet_iff`). -/

namespace NetworkStructure

/-- The entries of `FdMap_`, as an iterator walks through them. -/
abbrev FdEntries := List (Σ _ : List Char, FdManager)

structure FdManagerSet where
  maxSize_ : ℤ
  FdMap_ : AList (fun _ : List Char => FdManager) := ∅

namespace FdManagerSet

/-! ### The operations -/

/-- The range of the entries with this name, and the first one of them. -/
def findPair (map : FdEntries) (first : List Char) : Option (Σ _ : List Char, FdManager) :=
  (map.filter fun e => e.1 = first).find? fun e => e.1 = first

/-- The loop of `insert`: whether the name is found, and the entries afterwards. -/
def insertLoop (str : List Char) (fd : Fd) : FdEntries → Bool × FdEntries
  | [] => (false, [])
  | e :: es =>
      if e.1 = str then (true, ⟨e.1, (e.2.insert fd).2⟩ :: es)
      else ((insertLoop str fd es).1, e :: (insertLoop str fd es).2)

def deleteLoop (str : List Char) : FdEntries → FdEntries
  | [] => []
  | e :: es => if e.1 = str then deleteLoop str es else e :: deleteLoop str es

theorem keys_insertLoop (str : List Char) (fd : Fd) (es : FdEntries) :
    (insertLoop str fd es).2.keys = es.keys := by
  induction es with
  | nil => rfl
  | cons e es ih =>
      unfold insertLoop
      split
      · rfl
      · exact congrArg (e.1 :: ·) ih

theorem deleteLoop_sublist (str : List Char) (es : FdEntries) :
    (deleteLoop str es).Sublist es := by
  induction es with
  | nil => exact .slnil
  | cons e es ih =>
      unfold deleteLoop
      split
      · exact ih.cons e
      · exact ih.cons_cons e

variable (s : FdManagerSet)

/-- `FdMap_.insert` is called only where the name is new. -/
def creatManagerSet (str : List Char) (num : ℕ) : ℤ × FdManagerSet :=
  (0, if findPair s.FdMap_.entries str = none then
      { s with FdMap_ := s.FdMap_.insert str { maxSize_ := num } }
    else s)

def deleteManagerSet (str : List Char) : ℤ × FdManagerSet :=
  (0, { s with FdMap_ := {
    entries := deleteLoop str s.FdMap_.entries
    nodupKeys := s.FdMap_.nodupKeys.sublist (deleteLoop_sublist str _) } })

def insert (str : List Char) (fd : Fd) : ℤ × FdManagerSet :=
  (if (insertLoop str fd s.FdMap_.entries).1 then 0 else -1, { s with FdMap_ := {
    entries := (insertLoop str fd s.FdMap_.entries).2
    nodupKeys := by
      unfold List.NodupKeys
      rw [keys_insertLoop]
      exact s.FdMap_.nodupKeys } })

end FdManagerSet

/-- The operations with a `const char *` for the name; the others are these for `some`. -/
inductive SetCall where
  | creatManagerSet (pName : Option (List Char)) (num : ℕ)
  | deleteManagerSet (pName : Option (List Char))
  | insert (pName : Option (List Char)) (fd : Fd)
deriving DecidableEq, Repr

namespace FdManagerSet

/-- The answer and the set afterwards. -/
def call (s : FdManagerSet) : SetCall → ℤ × FdManagerSet
  | .creatManagerSet (some str) num => (0, (s.creatManagerSet str num).2)
  | .deleteManagerSet (some str) => (0, (s.deleteManagerSet str).2)
  | .insert (some str) fd => s.insert str fd
  | .creatManagerSet none _ | .deleteManagerSet none | .insert none _ => (-1, s)

def act (s : FdManagerSet) (c : SetCall) : Option FdManagerSet := some (s.call c).2

def Step (s : FdManagerSet) (c : SetCall) (t : FdManagerSet) : Prop := s.act c = some t

/-! ### The map of lists -/

/-- What the set stands for. -/
def lists (s : FdManagerSet) (name : List Char) : Option (List Fd) :=
  (s.FdMap_.lookup name).map (·.fdVec_)

/-- The number of names. -/
def count (s : FdManagerSet) : ℕ := s.FdMap_.keys.length

/-- The step is that of a map of bounded lists with room for `m` names. -/
structure AsMap (m : ℤ) (s : FdManagerSet) (c : SetCall) (t : FdManagerSet) : Prop where
  /-- `insert` answers 0 exactly where it has appended. -/
  insert : ∀ name fd, c = .insert (some name) fd →
    ((s.insert name fd).1 = 0 ↔
      ∃ l, s.lists name = some l ∧ t.lists name = some (l ++ [fd])) ∧
    ∀ other ≠ name, t.lists other = s.lists other
  creat : ∀ name num, c = .creatManagerSet (some name) num →
    t.lists = if s.lists name = none then Function.update s.lists name (some []) else s.lists
  delete : ∀ name, c = .deleteManagerSet (some name) → t.lists = Function.update s.lists name none
  null : ∀ num fd, c ∈ [.creatManagerSet none num, .deleteManagerSet none, .insert none fd] →
    (s.call c).1 = -1 ∧ t.lists = s.lists
  count : t.count ≤ m

/-- Nothing that the call loses matters: the list that it inserts into is not longer than its
capacity, and there is room for a new name. -/
def Clean (m : ℤ) (s : FdManagerSet) : SetCall → Prop
  | .insert (some name) _ => ∀ e ∈ s.FdMap_.lookup name, e.fdVec_.length ≤ e.maxSize_
  | .creatManagerSet (some name) _ => s.FdMap_.lookup name = none → s.count < m
  | .insert none _ | .creatManagerSet none _ | .deleteManagerSet _ => True

instance (m : ℤ) (s : FdManagerSet) (c : SetCall) : Decidable (s.Clean m c) := by
  unfold Clean
  split <;> infer_instance

/-! ### What the loops do -/

section Loops

variable (str : List Char) (fd : Fd) (es : FdEntries)

theorem insertLoop_found : (insertLoop str fd es).1 = true ↔ es.dlookup str ≠ none := by
  induction es with
  | nil => exact iff_of_false Bool.false_ne_true fun h => h rfl
  | cons e es ih =>
      unfold insertLoop
      split
      · next he =>
        subst he
        rw [List.dlookup_cons_eq]
        exact iff_of_true rfl (Option.some_ne_none _)
      · next he =>
        rw [List.dlookup_cons_ne es e (Ne.symm he)]
        exact ih

theorem lookup_insertLoop (name : List Char) : (insertLoop str fd es).2.dlookup name =
    if name = str then (es.dlookup str).map fun e => (e.insert fd).2 else es.dlookup name := by
  induction es with
  | nil => split <;> rfl
  | cons e es ih =>
      unfold insertLoop
      split
      · next he =>
        subst he
        split
        · next hn =>
          subst hn
          rw [List.dlookup_cons_eq, List.dlookup_cons_eq]
          rfl
        · next hn =>
          rw [List.dlookup_cons_ne es e hn]
          exact List.dlookup_cons_ne es _ hn
      · next he =>
        rw [List.dlookup_cons_ne es e (Ne.symm he)]
        by_cases hn : name = e.1
        · subst hn
          rw [if_neg he, List.dlookup_cons_eq, List.dlookup_cons_eq]
        · rw [List.dlookup_cons_ne _ _ hn, List.dlookup_cons_ne _ _ hn]
          exact ih

theorem lookup_deleteLoop (name : List Char) : (deleteLoop str es).dlookup name =
    if name = str then none else es.dlookup name := by
  induction es with
  | nil => split <;> rfl
  | cons e es ih =>
      unfold deleteLoop
      split
      · next he =>
        rw [ih]
        split
        · rfl
        · next hn => rw [List.dlookup_cons_ne _ _ fun h => hn (h.trans he)]
      · next he =>
        by_cases hn : name = e.1
        · subst hn
          rw [if_neg he, List.dlookup_cons_eq, List.dlookup_cons_eq]
        · rw [List.dlookup_cons_ne _ _ hn, List.dlookup_cons_ne _ _ hn]
          exact ih

theorem findPair_eq_none : findPair es str = none ↔ es.dlookup str = none := by
  unfold findPair
  rw [List.find?_filter, List.find?_eq_none, List.dlookup_eq_none, List.mem_keys]
  constructor
  · rintro h ⟨b, hb⟩
    exact h _ hb (by simp)
  · rintro h ⟨a, b⟩ hb he
    obtain rfl : a = str := by simpa using he
    exact h ⟨b, hb⟩

end Loops

section Lists

variable (s : FdManagerSet) (name : List Char) (fd : Fd)

theorem creatManagerSet_lists (num : ℕ) : (s.creatManagerSet name num).2.lists =
    if s.lists name = none then Function.update s.lists name (some []) else s.lists := by
  have hnone : s.lists name = none ↔ findPair s.FdMap_.entries name = none := by
    rw [findPair_eq_none]
    exact Option.map_eq_none_iff
  unfold creatManagerSet
  by_cases h : findPair s.FdMap_.entries name = none
  · rw [if_pos h, if_pos (hnone.mpr h)]
    funext other
    rcases eq_or_ne other name with rfl | hne
    · rw [Function.update_self]
      exact congrArg (Option.map FdManager.fdVec_) (AList.lookup_insert s.FdMap_)
    · rw [Function.update_of_ne hne]
      exact congrArg (Option.map FdManager.fdVec_) (AList.lookup_insert_ne hne)
  · rw [if_neg h, if_neg fun hl => h (hnone.mp hl)]

theorem deleteManagerSet_lists :
    (s.deleteManagerSet name).2.lists = Function.update s.lists name none := by
  funext other
  have h := lookup_deleteLoop name s.FdMap_.entries other
  rcases eq_or_ne other name with rfl | hne
  · rw [Function.update_self]
    rw [if_pos rfl] at h
    exact congrArg (Option.map FdManager.fdVec_) h
  · rw [Function.update_of_ne hne]
    rw [if_neg hne] at h
    exact congrArg (Option.map FdManager.fdVec_) h

theorem insert_lists_ne {other : List Char} (hne : other ≠ name) :
    (s.insert name fd).2.lists other = s.lists other := by
  have h := lookup_insertLoop name fd s.FdMap_.entries other
  rw [if_neg hne] at h
  exact congrArg (Option.map FdManager.fdVec_) h

theorem insert_lists : (s.insert name fd).2.lists name =
    (s.FdMap_.lookup name).map fun e => (e.insert fd).2.fdVec_ := by
  have h := lookup_insertLoop name fd s.FdMap_.entries name
  rw [if_pos rfl] at h
  apply (congrArg (Option.map FdManager.fdVec_) h).trans
  exact Option.map_map ..

/-- The answer says only that the name is there. -/
theorem insert_answer : (s.insert name fd).1 = 0 ↔ s.FdMap_.lookup name ≠ none := by
  have h := insertLoop_found name fd s.FdMap_.entries
  unfold insert
  dsimp only
  split
  · next hf => exact iff_of_true rfl (h.mp hf)
  · next hf => exact iff_of_false (by decide) fun hl => hf (h.mpr hl)

/-- The answer is right where the list takes the descriptor. -/
theorem insert_answer_iff : ((s.insert name fd).1 = 0 ↔
      ∃ l, s.lists name = some l ∧ (s.insert name fd).2.lists name = some (l ++ [fd])) ↔
    ∀ e ∈ s.FdMap_.lookup name, e.fdVec_.length ≤ e.maxSize_ := by
  rw [insert_answer, insert_lists]
  unfold lists
  cases hl : s.FdMap_.lookup name with
  | none => exact iff_of_true (iff_of_false (fun h => h rfl) (by simp)) nofun
  | some e =>
      rw [Option.map_some, Option.map_some]
      constructor
      · intro h d hd
        obtain rfl := Option.some.inj hd
        obtain ⟨l, hl, happ⟩ := h.mp (Option.some_ne_none _)
        obtain rfl := Option.some.inj hl
        by_contra hfull
        have hsame : (e.insert fd).2 = e := by
          unfold FdManager.insert
          rw [if_neg hfull]
        rw [hsame] at happ
        have := congrArg List.length (Option.some.inj happ)
        rw [List.length_append, List.length_singleton] at this
        omega
      · intro h
        refine iff_of_true (Option.some_ne_none _) ⟨e.fdVec_, rfl, ?_⟩
        rw [FdManager.insert_fdVec_ (h e rfl)]

end Lists

/-! ### The number of names -/

section Count

variable {s t : FdManagerSet} {m : ℤ} {c : SetCall}

theorem creatManagerSet_count (name : List Char) (num : ℕ) :
    (s.creatManagerSet name num).2.count =
      if s.FdMap_.lookup name = none then s.count + 1 else s.count := by
  have hnone := findPair_eq_none name s.FdMap_.entries
  unfold creatManagerSet
  by_cases h : s.FdMap_.lookup name = none
  · rw [if_pos h, if_pos (hnone.mpr h)]
    have he := AList.entries_insert_of_notMem (b := { maxSize_ := num }) (AList.lookup_eq_none.mp h)
    exact congrArg (fun es : FdEntries => es.keys.length) he
  · rw [if_neg h, if_neg fun hf => h (hnone.mp hf)]

theorem deleteManagerSet_count (name : List Char) : (s.deleteManagerSet name).2.count ≤ s.count :=
  ((deleteLoop_sublist name s.FdMap_.entries).map Sigma.fst).length_le

theorem insert_count (name : List Char) (fd : Fd) : (s.insert name fd).2.count = s.count :=
  congrArg List.length (keys_insertLoop name fd s.FdMap_.entries)

/-- A call with a null pointer is refused. -/
theorem asMap_null (hm : s.count ≤ m) (num : ℕ) (fd : Fd)
    (hc : c ∈ [.creatManagerSet none num, .deleteManagerSet none, .insert none fd]) :
    AsMap m s c (s.call c).2 := by
  have hcases : c = .creatManagerSet none num ∨ c = .deleteManagerSet none ∨
      c = .insert none fd := by simpa using hc
  have hcall : s.call c = (-1, s) := by
    rcases hcases with rfl | rfl | rfl <;> rfl
  rw [hcall]
  constructor
  case insert =>
      rintro name d rfl
      simp at hcases
  case creat =>
      rintro name k rfl
      simp at hcases
  case delete =>
      rintro name rfl
      simp at hcases
  case null =>
      intro _ _ _
      rw [hcall]
      exact ⟨rfl, rfl⟩
  case count => exact hm

theorem asMap_creat_iff (hm : s.count ≤ m) (name : List Char) (num : ℕ) :
    AsMap m s (.creatManagerSet (some name) num) (s.creatManagerSet name num).2 ↔
      (s.FdMap_.lookup name = none → s.count < m) := by
  have hcount := creatManagerSet_count (s := s) name num
  constructor
  · intro h hl
    have hle := h.count
    rw [hcount, if_pos hl] at hle
    omega
  · intro h
    constructor
    case insert => nofun
    case creat =>
        rintro _ _ ⟨⟩
        exact s.creatManagerSet_lists name num
    case delete => nofun
    case null => simp
    case count =>
        rw [hcount]
        split
        · next hl =>
          have := h hl
          omega
        · exact hm

theorem asMap_delete (hm : s.count ≤ m) (name : List Char) :
    AsMap m s (.deleteManagerSet (some name)) (s.deleteManagerSet name).2 := by
  constructor
  case insert => nofun
  case creat => nofun
  case delete =>
      rintro _ ⟨⟩
      exact s.deleteManagerSet_lists name
  case null => simp
  case count =>
      have := s.deleteManagerSet_count name
      omega

theorem asMap_insert_iff (hm : s.count ≤ m) (name : List Char) (fd : Fd) :
    AsMap m s (.insert (some name) fd) (s.insert name fd).2 ↔
      ∀ e ∈ s.FdMap_.lookup name, e.fdVec_.length ≤ e.maxSize_ := by
  constructor
  · intro h
    exact (s.insert_answer_iff name fd).mp (h.insert name fd rfl).1
  · intro h
    constructor
    case insert =>
        rintro _ _ ⟨⟩
        exact ⟨(s.insert_answer_iff name fd).mpr h, fun _ hne => s.insert_lists_ne _ _ hne⟩
    case creat => nofun
    case delete => nofun
    case null => simp
    case count =>
        rw [insert_count]
        exact hm

/-- **One step**: the set is a map of bounded lists exactly where the call loses nothing. -/
theorem asMap_iff (hm : s.count ≤ m) (hs : s.Step c t) : AsMap m s c t ↔ s.Clean m c := by
  obtain rfl := Option.some.inj hs
  cases c with
  | creatManagerSet pName num =>
      cases pName with
      | none => exact iff_of_true (asMap_null hm num 0 (by simp)) trivial
      | some name => exact asMap_creat_iff hm name num
  | deleteManagerSet pName =>
      cases pName with
      | none => exact iff_of_true (asMap_null hm 0 0 (by simp)) trivial
      | some name => exact iff_of_true (asMap_delete hm name) trivial
  | insert pName fd =>
      cases pName with
      | none => exact iff_of_true (asMap_null hm 0 fd (by simp)) trivial
      | some name => exact asMap_insert_iff hm name fd

end Count
end FdManagerSet

/-- **A set for `m` names over its runs**: it has at most `m` names at the beginning, and is a map
of bounded lists at every step, exactly when `m` is not negative, and no step loses anything. -/
theorem fdManagerSet_iff (m : ℤ) (cs : List SetCall) (t : FdManagerSet) :
    ((FdManagerSet.mk m ∅).count ≤ m ∧
        RunWith FdManagerSet.Step (FdManagerSet.AsMap m) ⟨m, ∅⟩ cs t ↔
      0 ≤ m ∧ RunWith FdManagerSet.Step (fun s c _ => s.Clean m c) ⟨m, ∅⟩ cs t) ∧
    (0 ≤ m → RunWith FdManagerSet.Step (fun s c _ => s.Clean m c) ⟨m, ∅⟩ cs t → t.count ≤ m) := by
  have hkeep : ∀ (s : FdManagerSet) c t, s.count ≤ m → s.Step c t → s.Clean m c → t.count ≤ m :=
    fun s c t h hs hc => ((FdManagerSet.asMap_iff h hs).mpr hc).count
  constructor
  · refine and_congr_right fun hm => ?_
    exact runWith_iff hkeep (fun s c t h hs => FdManagerSet.asMap_iff h hs) hm
  · exact fun hm h => RunWith.invariant hkeep h hm

/-- Two names, of which one is deleted. -/
theorem fdManagerSet_iff_example : ∃ t : FdManagerSet, t.lists ['b'] = some [7] ∧
    RunWith FdManagerSet.Step (FdManagerSet.AsMap 2) ⟨2, ∅⟩ [.creatManagerSet (some ['a']) 1,
      .creatManagerSet (some ['b']) 1, .insert (some ['b']) 7, .deleteManagerSet (some ['a']),
      .insert none 8] t := by
  obtain ⟨t, run, ht⟩ := exists_runWith FdManagerSet.act (FdManagerSet.Clean 2)
    (fun t => t.lists ['b'] = some [7]) ⟨2, ∅⟩ [.creatManagerSet (some ['a']) 1,
      .creatManagerSet (some ['b']) 1, .insert (some ['b']) 7, .deleteManagerSet (some ['a']),
      .insert none 8] (by decide)
  exact ⟨t, ht, ((fdManagerSet_iff 2 _ t).1.mpr ⟨by decide, run⟩).2⟩

/-- A list without room for a second descriptor: the answer is 0 all the same.  And a set for no
names takes one. -/
theorem not_fdManagerSet :
    (∃ s t : FdManagerSet,
      Run FdManagerSet.Step ⟨1, ∅⟩ [.creatManagerSet (some ['a']) 0, .insert (some ['a']) 5] s ∧
        s.Step (.insert (some ['a']) 6) t ∧ (s.insert ['a'] 6).1 = 0 ∧
        t.lists ['a'] = s.lists ['a'] ∧ ¬ FdManagerSet.AsMap 1 s (.insert (some ['a']) 6) t) ∧
    ∃ t : FdManagerSet,
      Run FdManagerSet.Step ⟨0, ∅⟩ [.creatManagerSet (some ['a']) 0] t ∧ ¬ (t.count : ℤ) ≤ 0 := by
  constructor
  · obtain ⟨s, run, hl, ha, hsame⟩ := exists_run FdManagerSet.act
      (fun s => s.lists ['a'] = some [5] ∧ (s.insert ['a'] 6).1 = 0 ∧
        (s.insert ['a'] 6).2.lists ['a'] = some [5]) ⟨1, ∅⟩
      [.creatManagerSet (some ['a']) 0, .insert (some ['a']) 5] (by decide)
    refine ⟨s, _, run, rfl, ha, hsame.trans hl.symm, fun h => ?_⟩
    obtain ⟨l, hl', happ⟩ := (h.insert ['a'] 6 rfl).1.mp ha
    obtain rfl := Option.some.inj (hl.symm.trans hl')
    exact absurd (hsame.symm.trans happ) (by decide)
  · exact exists_run FdManagerSet.act (fun t => ¬ (t.count : ℤ) ≤ 0) ⟨0, ∅⟩
      [.creatManagerSet (some ['a']) 0] (by decide)

end NetworkStructure
