import TestScout.Graph.QualifiedName
import Mathlib.Data.List.Basic
set_option autoImplicit false

namespace TestScout

/-- A name that can be a part of a full name: it is not empty and has no separator in it. -/
structure IsIdentifier (name : String) : Prop where
  ne_empty : name ≠ ""
  no_separator : ∀ c ∈ name.toList, c ≠ '.' ∧ c ≠ '+'

theorem isIdentifier_iff (name : String) : IsIdentifier name ↔
    name ≠ "" ∧ (name.toList.all fun c => c != '.' && c != '+') = true := by
  simp only [List.all_eq_true,Bool.and_eq_true,bne_iff_ne]
  exact ⟨fun h => ⟨h.ne_empty,h.no_separator⟩,fun h => ⟨h.1,h.2⟩⟩

instance (name : String) : Decidable (IsIdentifier name) :=
  decidable_of_iff _ (isIdentifier_iff name).symm

namespace DisplayPart

variable {path other : List DisplayPart} {part : DisplayPart} {name name' : String}

def pathText (path : List DisplayPart) : String :=
  render (path.intersperse dot)

def inType (path : List DisplayPart) : Bool :=
  path.any fun part => part.kind == .typeName

def separator (path : List DisplayPart) : String :=
  if inType path then "+" else "."

def lead (path : List DisplayPart) : String :=
  if path = [] then "" else pathText path ++ separator path

theorem lead_of_ne_nil (h : path ≠ []) : lead path = pathText path ++ separator path :=
  if_neg h

theorem intersperse_concat {α : Type} (sep a b : α) (rest : List α) :
    (a :: rest ++ [b]).intersperse sep = (a :: rest).intersperse sep ++ [sep,b] := by
  induction rest generalizing a with
  | nil => rfl
  | cons c rest ih =>
    have later := ih c
    simp only [List.cons_append,List.intersperse_cons_cons] at later ⊢
    rw [later]

theorem renderFrom_append (within : Bool) (parts rest : List DisplayPart) :
    renderFrom within (parts ++ rest) =
      renderFrom within parts ++ renderFrom (within || inType parts) rest := by
  induction parts generalizing within with
  | nil => simp [renderFrom,inType]
  | cons part parts ih =>
    simp only [List.cons_append,renderFrom,ih,inType,List.any_cons,String.append_assoc,
      Bool.or_assoc]

@[simp] theorem inType_intersperse (path : List DisplayPart) :
    inType (path.intersperse dot) = inType path := by
  induction path with
  | nil => rfl
  | cons part rest ih =>
    cases rest with
    | nil => rfl
    | cons next rest =>
      have noType : (dot.kind == .typeName) = false := rfl
      rw [List.intersperse_cons_cons]
      simp only [inType,List.any_cons] at ih ⊢
      rw [ih,noType,Bool.false_or]

@[simp] theorem inType_concat (path : List DisplayPart) (part : DisplayPart) :
    inType (path ++ [part]) = (inType path || part.kind == .typeName) := by
  simp [inType]

theorem pathText_concat (names : part.kind.isSeparator = false) :
    pathText (path ++ [part]) = lead path ++ part.text := by
  unfold pathText lead
  cases path with
  | nil => simp [render,renderFrom,names]
  | cons first rest =>
    have noType : (dot.kind == .typeName) = false := rfl
    have isDot : dot.kind.isSeparator = true := rfl
    rw [intersperse_concat,render,renderFrom_append,inType_intersperse]
    simp only [reduceCtorEq,if_false,pathText,render,Bool.false_or,renderFrom,separator,noType,isDot,
      names,Bool.or_false,Bool.and_true,Bool.and_false,Bool.false_eq_true,String.append_assoc,
      String.append_empty]
    rfl

theorem separator_eq (path : List DisplayPart) :
    (separator path = "+" ∧ inType path = true) ∨ (separator path = "." ∧ inType path = false) := by
  unfold separator
  cases inType path <;> simp

theorem append_separator_ne_empty (path : List DisplayPart) : pathText path ++ separator path ≠ "" := by
  rcases separator_eq path with ⟨h,-⟩ | ⟨h,-⟩ <;> simp [h,String.append_eq_empty_iff]

/-- What is written before a part says which path comes before it, as far as the text of that path
does, and whether the part stands in a type. -/
theorem lead_inj (same : lead path = lead other) :
    pathText path = pathText other ∧ inType path = inType other := by
  unfold lead at same
  split at same <;> split at same
  · next h h' => exact ⟨by rw [h,h'],by rw [h,h']⟩
  · exact absurd same.symm (append_separator_ne_empty other)
  · exact absurd same (append_separator_ne_empty path)
  · have chars := congrArg String.toList same
    rcases separator_eq path with ⟨h,k⟩ | ⟨h,k⟩ <;> rcases separator_eq other with ⟨h',k'⟩ | ⟨h',k'⟩
    all_goals
      rw [h,h'] at chars
      simp [String.toList_append,String.toList_inj] at chars
    all_goals exact ⟨chars,by rw [k,k']⟩

theorem append_inj_of_free {xs ys as bs : List Char} {p : Char → Prop}
    (hx : ∀ c ∈ xs.getLast?, p c) (hy : ∀ c ∈ ys.getLast?, p c) (ha : ∀ c ∈ as, ¬p c)
    (hb : ∀ c ∈ bs, ¬p c) (same : xs ++ as = ys ++ bs) : xs = ys ∧ as = bs := by
  have none_between : ∀ {zs us : List Char}, (∀ c ∈ (zs ++ us).getLast?, p c) →
      (∀ c ∈ us, ¬p c) → us = [] := by
    intro zs us last free
    cases hu : us.getLast? with
    | none => exact List.getLast?_eq_none_iff.1 hu
    | some c =>
      have inside : c ∈ us := List.mem_of_getLast? hu
      exact absurd (last c (by simp [List.getLast?_append,hu])) (free c inside)
  -- One of the prefixes is the longer one, and what it is longer by ends in a separator.
  rcases List.append_eq_append_iff.1 same with ⟨us,rfl,rfl⟩ | ⟨us,rfl,rfl⟩
  · have : us = [] := none_between hy fun c h => ha c (List.mem_append_left _ h)
    simp [this]
  · have : us = [] := none_between hx fun c h => hb c (List.mem_append_left _ h)
    simp [this]

theorem lead_ends (path : List DisplayPart) :
    ∀ c ∈ (lead path).toList.getLast?, ¬(c ≠ '.' ∧ c ≠ '+') := by
  unfold lead
  split
  · simp
  · rcases separator_eq path with ⟨h,-⟩ | ⟨h,-⟩ <;> simp [h]

theorem lead_append_inj (hn : IsIdentifier name) (hn' : IsIdentifier name')
    (same : lead path ++ name = lead other ++ name') : lead path = lead other ∧ name = name' := by
  have chars := congrArg String.toList same
  rw [String.toList_append,String.toList_append] at chars
  have parts := append_inj_of_free (lead_ends path) (lead_ends other)
    (fun c h => not_not.2 (hn.no_separator c h)) (fun c h => not_not.2 (hn'.no_separator c h)) chars
  exact ⟨String.toList_inj.1 parts.1,String.toList_inj.1 parts.2⟩

theorem lead_append_ne_empty (hn : IsIdentifier name) : lead path ++ name ≠ "" := by
  intro empty
  have := congrArg String.length empty
  have := hn.ne_empty
  simp_all

end DisplayPart

end TestScout
