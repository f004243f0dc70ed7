import Mathlib.Algebra.Ring.Nat
import NetworkStructure.Strtok

/-! # Which messages are logged

`messageIsFilteredOut` decides by the level of a message and by its tag, which is looked for in a
list of tags that are separated by `+`.  Its comment gives the rule (`Allowed`): an empty list lets
every message pass, and tags are compared without regard to case.

The loop over the tokens finds the tag exactly where it is one of the nonempty pieces of the list
(`scanTags_iff`).  But it compares with `strcmp`, so a piece in another case is missed, and the
length of the list is stored as an `int`, which it need not fit into.  Where neither matters the
rule is met, and nowhere else (`messageIsFilteredOut_iff`).

A string is the list of its characters, without the terminator; `none` is `NULL`. -/

namespace NetworkStructure

def LOG_ERR : UInt8 := 3

structure Logging where
  log_level : UInt8 := LOG_ERR
  log_tag : Option (List Char) := some []
deriving DecidableEq, Repr

namespace Logging

def log_set_level (s : Logging) (level : UInt8) : Logging := { s with log_level := level }

def log_set_tag (s : Logging) (tag : Option (List Char)) : Logging := { s with log_tag := tag }

end Logging

/-- `int tagListLen = strlen(tagList)`. -/
def tagListLen (tagList : List Char) : BitVec 32 := BitVec.ofNat 32 tagList.length

/-- `malloc(tagListLen + 1)`: the sum is an `int`, and becomes a `size_t`. -/
def tagsSize (tagList : List Char) : ℕ := ((tagListLen tagList + 1).signExtend 64).toNat

/-- The loop over the tokens: the last value of `filteredOut`. -/
def scanTags (tag tags : List Char) : Bool :=
  match _h : strtok '+' tags with
  | none => true
  | some (currentTag, rest) => if currentTag = tag then false else scanTags tag rest
termination_by tags.length
decreasing_by exact strtok_length _h

/-- The result and the settings afterwards; `none` where `strcpy` writes behind the end of
`tags`. -/
def messageIsFilteredOut (s : Logging) (level : UInt8) (tag : Option (List Char)) :
    Option (Bool × Logging) :=
  if s.log_level < level then some (true, s)
  else
    let tagList := s.log_tag.getD []
    let s' := s.log_set_tag (some tagList)
    match tag with
    | none | some [] => some (false, s')
    | some tag =>
        if 0 < (tagListLen tagList).toInt then
          if tagList.length < tagsSize tagList then some (scanTags tag tagList, s') else none
        else some (false, s')

/-! ### The rule -/

/-- The same letters, whatever their case. -/
def SameLetters (s t : List Char) : Prop := s.map Char.toLower = t.map Char.toLower

instance (s t : List Char) : Decidable (SameLetters s t) := inferInstanceAs (Decidable (_ = _))

/-- Some nonempty piece of the list is the tag, up to case. -/
def ListedUpToCase (tagList tag : List Char) : Prop :=
  ∃ p ∈ tagList.splitOn '+', p ≠ [] ∧ SameLetters p tag

/-- Some nonempty piece of the list is the tag. -/
def Listed (tagList tag : List Char) : Prop := ∃ p ∈ tagList.splitOn '+', p ≠ [] ∧ p = tag

/-- What the comment says about the messages that pass. -/
def Allowed (s : Logging) (level : UInt8) (tag : Option (List Char)) : Prop :=
  level ≤ s.log_level ∧
    (tag.getD [] = [] ∨ s.log_tag.getD [] = [] ∨
      ListedUpToCase (s.log_tag.getD []) (tag.getD []))

/-- A number of characters that is a positive `int` once it is taken modulo 2^32. -/
def IsPositiveInt (n : ℕ) : Prop := 0 < n % 2 ^ 32 ∧ n % 2 ^ 32 < 2 ^ 31

instance (n : ℕ) : Decidable (IsPositiveInt n) := inferInstanceAs (Decidable (_ ∧ _))

/-- There is room for a copy of so many characters: the number is itself an `int`, or the size
that `malloc` is asked for has become a negative number, and is nearly all of memory. -/
def CopyFits (n : ℕ) : Prop :=
  n < 2 ^ 31 ∨ n % 2 ^ 32 = 2 ^ 31 - 1 ∧ n < 2 ^ 64 - 2 ^ 31

/-- Neither the case of the letters nor the length of the list matters: the message is decided
without the list, or, where the length is a positive `int`, there is room for the copy, and a tag
that is listed up to case is listed as it is; where it is not, the tag is listed up to case. -/
def CaseAndLengthOk (s : Logging) (level : UInt8) (tag : Option (List Char)) : Prop :=
  s.log_level < level ∨ tag.getD [] = [] ∨ s.log_tag.getD [] = [] ∨
    if IsPositiveInt (s.log_tag.getD []).length then
      CopyFits (s.log_tag.getD []).length ∧
        (ListedUpToCase (s.log_tag.getD []) (tag.getD []) →
          Listed (s.log_tag.getD []) (tag.getD []))
    else ListedUpToCase (s.log_tag.getD []) (tag.getD [])

section Rule

variable {s : Logging} {level : UInt8} {tag tags tagList : List Char}

theorem listed_iff : Listed tagList tag ↔ tag ∈ pieces '+' tagList := by
  unfold Listed pieces
  rw [List.mem_filter, decide_eq_true_eq]
  constructor
  · rintro ⟨p, hp, hne, rfl⟩
    exact ⟨hp, hne⟩
  · rintro ⟨hp, hne⟩
    exact ⟨tag, hp, hne, rfl⟩

theorem Listed.upToCase (h : Listed tagList tag) : ListedUpToCase tagList tag := by
  obtain ⟨p, hp, hne, rfl⟩ := h
  exact ⟨p, hp, hne, rfl⟩

/-- **The loop** blocks a message exactly where its tag is not listed. -/
theorem scanTags_iff : scanTags tag tags = false ↔ Listed tags tag := by
  rw [listed_iff]
  fun_induction scanTags tag tags with
  | case1 tags h =>
      rw [pieces_strtok, h]
      exact iff_of_false (fun h => Bool.noConfusion h) List.not_mem_nil
  | case2 tags rest h =>
      rw [pieces_strtok, h]
      exact iff_of_true rfl List.mem_cons_self
  | case3 tags currentTag rest h hne ih =>
      rw [pieces_strtok, h, ih, List.mem_cons, or_iff_right (Ne.symm hne)]

theorem tagListLen_pos_iff : 0 < (tagListLen tagList).toInt ↔ IsPositiveInt tagList.length := by
  unfold tagListLen IsPositiveInt
  rw [BitVec.toInt_eq_toNat_cond, BitVec.toNat_ofNat]
  split <;> omega

/-- The copy has its terminator, too. -/
theorem length_lt_tagsSize_iff (h : IsPositiveInt tagList.length) :
    tagList.length < tagsSize tagList ↔ CopyFits tagList.length := by
  obtain ⟨hpos, hlt⟩ := h
  have hlen : (tagListLen tagList).toNat = tagList.length % 2 ^ 32 := BitVec.toNat_ofNat ..
  have hsum : (tagListLen tagList + 1).toNat = tagList.length % 2 ^ 32 + 1 := by
    rw [BitVec.toNat_add, hlen]
    show (tagList.length % 2 ^ 32 + 1) % 2 ^ 32 = _
    omega
  unfold tagsSize CopyFits
  rw [BitVec.toNat_signExtend, BitVec.toNat_setWidth, BitVec.msb_eq_decide, hsum]
  split
  · next hneg =>
    have := of_decide_eq_true hneg
    omega
  · next hneg =>
    have := of_decide_eq_false (Bool.eq_false_iff.mpr hneg)
    omega

/-! ### What is answered -/

theorem messageIsFilteredOut_of_lt (h : s.log_level < level) (tag : Option (List Char)) :
    messageIsFilteredOut s level tag = some (true, s) := by
  unfold messageIsFilteredOut
  exact if_pos h

theorem messageIsFilteredOut_untagged (h : ¬ s.log_level < level) {tag : Option (List Char)}
    (ht : tag.getD [] = []) :
    messageIsFilteredOut s level tag = some (false, s.log_set_tag (some (s.log_tag.getD []))) := by
  unfold messageIsFilteredOut
  rw [if_neg h]
  cases tag with
  | none => rfl
  | some t =>
      obtain rfl : t = [] := ht
      rfl

theorem messageIsFilteredOut_tagged (h : ¬ s.log_level < level) (ht : tag ≠ []) :
    messageIsFilteredOut s level (some tag) =
      if 0 < (tagListLen (s.log_tag.getD [])).toInt then
        if (s.log_tag.getD []).length < tagsSize (s.log_tag.getD []) then
          some (scanTags tag (s.log_tag.getD []), s.log_set_tag (some (s.log_tag.getD [])))
        else none
      else some (false, s.log_set_tag (some (s.log_tag.getD []))) := by
  unfold messageIsFilteredOut
  rw [if_neg h]
  cases tag with
  | nil => exact absurd rfl ht
  | cons c cs => rfl

end Rule

/-- The answer is that of the rule. -/
def RuleMet (s : Logging) (level : UInt8) (tag : Option (List Char)) : Prop :=
  ∃ b s', messageIsFilteredOut s level tag = some (b, s') ∧ (b = false ↔ Allowed s level tag)

section Main

variable {s : Logging} {level : UInt8} {tag : List Char}

theorem ruleMet_of_eq {tag : Option (List Char)} {b : Bool} {s' : Logging}
    (h : messageIsFilteredOut s level tag = some (b, s')) :
    RuleMet s level tag ↔ (b = false ↔ Allowed s level tag) := by
  constructor
  · rintro ⟨b', t, ht, hb⟩
    cases h.symm.trans ht
    exact hb
  · exact fun hb => ⟨b, s', h, hb⟩

theorem allowed_tagged (h : ¬ s.log_level < level) (ht : tag ≠ []) :
    Allowed s level (some tag) ↔
      s.log_tag.getD [] = [] ∨ ListedUpToCase (s.log_tag.getD []) tag := by
  unfold Allowed
  rw [and_iff_right (UInt8.not_lt.mp h)]
  exact or_iff_right ht

/-- A message with a tag, at a level that is logged. -/
theorem ruleMet_tagged (h : ¬ s.log_level < level) (ht : tag ≠ []) :
    RuleMet s level (some tag) ↔ s.log_tag.getD [] = [] ∨
      if IsPositiveInt (s.log_tag.getD []).length then
        CopyFits (s.log_tag.getD []).length ∧
          (ListedUpToCase (s.log_tag.getD []) tag → Listed (s.log_tag.getD []) tag)
      else ListedUpToCase (s.log_tag.getD []) tag := by
  have hans := messageIsFilteredOut_tagged h ht
  have hallowed := allowed_tagged h ht
  simp only [tagListLen_pos_iff] at hans
  by_cases hpos : IsPositiveInt (s.log_tag.getD []).length
  · have hne : s.log_tag.getD [] ≠ [] := by
      intro he
      rw [he] at hpos
      exact absurd hpos (by decide)
    rw [if_pos hpos, or_iff_right hne, ← length_lt_tagsSize_iff hpos]
    rw [if_pos hpos] at hans
    rw [or_iff_right hne] at hallowed
    by_cases hfits : (s.log_tag.getD []).length < tagsSize (s.log_tag.getD [])
    · rw [if_pos hfits] at hans
      rw [ruleMet_of_eq hans, and_iff_right hfits, hallowed, scanTags_iff]
      exact ⟨fun hi => hi.mpr, fun hi => ⟨Listed.upToCase, hi⟩⟩
    · rw [if_neg hfits] at hans
      refine iff_of_false ?_ fun hf => hfits hf.1
      rintro ⟨b, s', hb, -⟩
      cases hans.symm.trans hb
  · rw [if_neg hpos] at hans ⊢
    rw [ruleMet_of_eq hans, hallowed]
    exact ⟨fun hi => hi.mp rfl, fun hi => iff_of_true rfl hi⟩

/-- For a list of fewer than 2^31 characters only the case matters. -/
theorem ruleMet_short (h : ¬ s.log_level < level) (ht : tag ≠ []) (hne : s.log_tag.getD [] ≠ [])
    (hlen : (s.log_tag.getD []).length < 2 ^ 31) : RuleMet s level (some tag) ↔
      (ListedUpToCase (s.log_tag.getD []) tag → Listed (s.log_tag.getD []) tag) := by
  have hlt : 0 < (s.log_tag.getD []).length := List.length_pos_iff.mpr hne
  have hpos : IsPositiveInt (s.log_tag.getD []).length := by
    unfold IsPositiveInt
    omega
  have hfits : CopyFits (s.log_tag.getD []).length := .inl hlen
  rw [ruleMet_tagged h ht, or_iff_right hne, if_pos hpos, and_iff_right hfits]

end Main

/-- **The rule is met exactly where neither case nor length matters.** -/
theorem messageIsFilteredOut_iff (s : Logging) (level : UInt8) (tag : Option (List Char)) :
    RuleMet s level tag ↔ CaseAndLengthOk s level tag := by
  unfold CaseAndLengthOk
  by_cases hl : s.log_level < level
  · rw [ruleMet_of_eq (messageIsFilteredOut_of_lt hl tag)]
    refine iff_of_true (iff_of_false (fun h => Bool.noConfusion h) fun h => ?_) (.inl hl)
    exact UInt8.not_lt.mpr h.1 hl
  · rw [or_iff_right hl]
    by_cases ht : tag.getD [] = []
    · rw [ruleMet_of_eq (messageIsFilteredOut_untagged hl ht)]
      exact iff_of_true (iff_of_true rfl ⟨UInt8.not_lt.mp hl, .inl ht⟩) (.inl ht)
    · rw [or_iff_right ht]
      cases tag with
      | none => exact absurd rfl ht
      | some t => exact ruleMet_tagged hl ht

/-- The tag `net` where `Net` is listed. -/
theorem not_messageIsFilteredOut :
    Allowed { log_tag := some ['N', 'e', 't'] } 3 (some ['n', 'e', 't']) ∧
      ¬ RuleMet { log_tag := some ['N', 'e', 't'] } 3 (some ['n', 'e', 't']) := by
  have hcase : ListedUpToCase ['N', 'e', 't'] ['n', 'e', 't'] := by
    unfold ListedUpToCase
    decide
  have hnot : ¬ Listed ['N', 'e', 't'] ['n', 'e', 't'] := by
    unfold Listed
    decide
  refine ⟨⟨by decide, .inr (.inr hcase)⟩, fun h => hnot ?_⟩
  exact (ruleMet_short (s := { log_tag := some ['N', 'e', 't'] }) (by decide) (by decide)
    (by decide) (by decide)).mp h hcase

end NetworkStructure
