import Mathlib.Data.List.Basic
set_option autoImplicit false

namespace TestScout

variable {α : Type} {p q : Nat → Prop} [DecidablePred p] [DecidablePred q]

/-- The entries at the positions that pass the test. -/
def entriesAt (p : Nat → Prop) [DecidablePred p] (list : List α) : List α :=
  (list.zipIdx.filter fun entry => p entry.2).map Prod.fst

theorem entriesAt_cons (a : α) (rest : List α) :
    entriesAt p (a :: rest) =
      (if p 0 then [a] else []) ++ entriesAt (fun k => p (k + 1)) rest := by
  have later : ((rest.zipIdx 1).filter fun entry => p entry.2).map Prod.fst =
      entriesAt (fun k => p (k + 1)) rest := by
    rw [List.zipIdx_succ,List.filter_map,List.map_map]
    rfl
  unfold entriesAt
  rw [List.zipIdx_cons,List.filter_cons]
  by_cases first : p 0
  · simp [first,later,entriesAt]
  · simp [first,later,entriesAt]

@[simp] theorem mem_entriesAt_iff {list : List α} {a : α} :
    a ∈ entriesAt p list ↔ ∃ k, p k ∧ list[k]? = some a := by
  simp only [entriesAt,List.mem_map,List.mem_filter,Prod.exists,List.mk_mem_zipIdx_iff_getElem?,
    decide_eq_true_eq]
  constructor
  · rintro ⟨a,k,⟨here,passes⟩,rfl⟩
    exact ⟨k,passes,here⟩
  · rintro ⟨k,passes,here⟩
    exact ⟨a,k,⟨here,passes⟩,rfl⟩

theorem idxOf_le_of_getElem? [DecidableEq α] {list : List α} {k : Nat} {a : α}
    (here : list[k]? = some a) : list.idxOf a ≤ k := by
  have member : a ∈ list.take (k + 1) := by
    refine List.mem_of_getElem? (i := k) ?_
    rw [List.getElem?_take_of_lt (Nat.lt_succ_self k),here]
  have before := (List.mem_take_iff_idxOf_lt (List.mem_of_getElem? here)).1 member
  omega

theorem entriesAt_congr {list : List α} (same : ∀ k, k < list.length → (p k ↔ q k)) :
    entriesAt p list = entriesAt q list := by
  unfold entriesAt
  congr 1
  refine List.filter_congr fun entry member => ?_
  have inside := List.snd_lt_of_mem_zipIdx member
  simp only [same entry.2 (by simpa using inside)]

theorem getElem?_concat_eq_some_iff {list : List α} {a b : α} {k : Nat} :
    (list ++ [a])[k]? = some b ↔ list[k]? = some b ∨ k = list.length ∧ a = b := by
  rcases Nat.lt_trichotomy k list.length with inside | rfl | beyond
  · simp [List.getElem?_append_left inside,Nat.ne_of_lt inside]
  · simp
  · have outside : (list ++ [a])[k]? = none := List.getElem?_eq_none (by simp; omega)
    simp [outside,List.getElem?_eq_none (Nat.le_of_lt beyond),Nat.ne_of_gt beyond]

theorem entriesAt_concat (list : List α) (a : α) :
    entriesAt p (list ++ [a]) = entriesAt p list ++ if p list.length then [a] else [] := by
  unfold entriesAt
  rw [List.zipIdx_append,List.filter_append,List.map_append,List.zipIdx_singleton,Nat.zero_add]
  by_cases last : p list.length <;> simp [last]

theorem filter_entriesAt {test : α → Bool} {list : List α}
    (same : ∀ k a, list[k]? = some a → (q k ↔ p k ∧ test a)) :
    (entriesAt p list).filter test = entriesAt q list := by
  unfold entriesAt
  rw [List.filter_map,List.filter_filter]
  congr 1
  refine List.filter_congr fun entry member => ?_
  have here := List.mk_mem_zipIdx_iff_getElem?.1 member
  simp [same entry.2 entry.1 here,Bool.and_comm]

end TestScout
