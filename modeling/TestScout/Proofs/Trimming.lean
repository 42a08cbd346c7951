import TestScout.Text.Blank
import Mathlib.Data.List.TakeWhile
set_option autoImplicit false

namespace TestScout.Text

variable {cs core padded before after : List Char}

/-- The text with nothing but blank characters put around it. -/
def IsPadded (text padded : List Char) : Prop :=
  ∃ before after, padded = before ++ text ++ after ∧ (∀ c ∈ before, isBlank c) ∧
    ∀ c ∈ after, isBlank c

structure IsTrimmed (cs : List Char) : Prop where
  start : ∀ c ∈ cs.head?, ¬isBlank c
  last : ∀ c ∈ cs.getLast?, ¬isBlank c

theorem isPadded_self (text : List Char) : IsPadded text text :=
  ⟨[],[],by simp,by simp,by simp⟩

theorem IsPadded.blank_of_not_mem (pads : IsPadded core padded) {c : Char} (member : c ∈ padded)
    (outside : c ∉ core) : isBlank c := by
  obtain ⟨before,after,rfl,hb,ha⟩ := pads
  rcases List.mem_append.1 member with member | member
  · rcases List.mem_append.1 member with member | member
    · exact hb c member
    · exact absurd member outside
  · exact ha c member

theorem IsPadded.subset (pads : IsPadded core padded) : core ⊆ padded := by
  obtain ⟨before,after,rfl,-,-⟩ := pads
  exact List.subset_append_of_subset_left _ (List.subset_append_right _ _)

theorem trimStart_append (blank : ∀ c ∈ before, isBlank c) (cs : List Char) :
    trimStart (before ++ cs) = trimStart cs :=
  List.dropWhile_append_of_pos blank

theorem trimStart_eq_nil (blank : ∀ c ∈ cs, isBlank c) : trimStart cs = [] :=
  List.dropWhile_eq_nil_iff.2 blank

theorem trimStart_eq_self (unpadded : ∀ c ∈ cs.head?, ¬isBlank c) : trimStart cs = cs := by
  cases cs with
  | nil => rfl
  | cons c rest =>
    have filled : ¬isBlank c := unpadded c rfl
    simp [trimStart,filled]

theorem head?_trimStart (cs : List Char) : ∀ c ∈ (trimStart cs).head?, ¬isBlank c := by
  intro c first
  have stop := List.head?_dropWhile_not isBlank cs
  rw [show (cs.dropWhile isBlank).head? = some c from first] at stop
  exact Bool.not_eq_true _ ▸ stop

theorem exists_eq_append_trimStart (cs : List Char) :
    ∃ before, cs = before ++ trimStart cs ∧ ∀ c ∈ before, isBlank c :=
  ⟨cs.takeWhile isBlank,List.takeWhile_append_dropWhile.symm,
    fun _ member => List.mem_takeWhile_imp member⟩

theorem exists_eq_trimEnd_append (cs : List Char) :
    ∃ after, cs = trimEnd cs ++ after ∧ ∀ c ∈ after, isBlank c := by
  obtain ⟨before,split,blank⟩ := exists_eq_append_trimStart cs.reverse
  refine ⟨before.reverse,?_,by simpa using blank⟩
  rw [trimEnd,← List.reverse_append,← split,List.reverse_reverse]

theorem isPadded_trimChars (cs : List Char) : IsPadded (trimChars cs) cs := by
  obtain ⟨before,start,hb⟩ := exists_eq_append_trimStart cs
  obtain ⟨after,last,ha⟩ := exists_eq_trimEnd_append (trimStart cs)
  refine ⟨before,after,?_,hb,ha⟩
  rw [List.append_assoc,trimChars,← last,← start]

theorem isTrimmed_trimChars (cs : List Char) : IsTrimmed (trimChars cs) where
  start c first := by
    obtain ⟨after,last,-⟩ := exists_eq_trimEnd_append (trimStart cs)
    refine head?_trimStart cs c ?_
    rw [last,List.head?_append,← trimChars,show (trimChars cs).head? = some c from first]
    rfl
  last c final := by
    rw [trimChars,trimEnd,List.getLast?_reverse] at final
    exact head?_trimStart _ c final

theorem trimChars_of_isPadded (pads : IsPadded core cs) (trimmed : IsTrimmed core) :
    trimChars cs = core := by
  obtain ⟨before,after,rfl,hb,ha⟩ := pads
  cases core with
  | nil =>
    -- Of nothing but blank characters the first scan leaves nothing.
    rw [List.append_nil,trimChars,trimStart_append hb,trimStart_eq_nil ha]
    rfl
  | cons c rest =>
    have start : trimStart (c :: rest ++ after) = c :: rest ++ after :=
      trimStart_eq_self trimmed.start
    have last : trimStart (c :: rest).reverse = (c :: rest).reverse :=
      trimStart_eq_self (by rw [List.head?_reverse]; exact trimmed.last)
    rw [List.append_assoc,trimChars,trimStart_append hb,start,trimEnd,List.reverse_append,
      trimStart_append (by simpa using ha),last,List.reverse_reverse]

theorem trimChars_eq_iff : trimChars cs = core ↔ IsPadded core cs ∧ IsTrimmed core := by
  constructor
  · rintro rfl
    exact ⟨isPadded_trimChars cs,isTrimmed_trimChars cs⟩
  · rintro ⟨pads,trimmed⟩
    exact trimChars_of_isPadded pads trimmed

end TestScout.Text
