import Mathlib
import TestScout.Graph.Walk
set_option autoImplicit false

namespace TestScout

variable {α : Type} [DecidableEq α] {next : α → List α} {fresh pending rest : List α} {a b : α}

theorem mem_of_mem_spread (met : b ∈ spread next fresh pending) : b ∈ fresh := by
  fun_induction spread next fresh pending with
  | case1 => simp at met
  | case2 fresh a rest entered ih =>
    rcases List.mem_cons.1 met with rfl | later
    · exact entered
    · exact List.mem_of_mem_erase (ih later)
  | case3 fresh a rest absent ih => exact ih met

theorem mem_spread_of_mem_pending (inside : a ∈ fresh) (waits : a ∈ pending) :
    a ∈ spread next fresh pending := by
  fun_induction spread next fresh pending with
  | case1 => simp at waits
  | case2 fresh b rest entered ih =>
    by_cases same : a = b
    · exact same ▸ List.mem_cons_self
    · refine List.mem_cons_of_mem _ (ih ((List.mem_erase_of_ne same).2 inside) ?_)
      exact List.mem_append_right _ ((List.mem_cons.1 waits).resolve_left same)
  | case3 fresh b rest absent ih =>
    refine ih inside ((List.mem_cons.1 waits).resolve_left ?_)
    rintro rfl
    exact absurd inside absent

theorem reaches_of_mem_spread (met : b ∈ spread next fresh pending) :
    ∃ a ∈ pending, Relation.ReflTransGen (fun a b => b ∈ next a) a b := by
  fun_induction spread next fresh pending with
  | case1 => simp at met
  | case2 fresh a rest entered ih =>
    rcases List.mem_cons.1 met with rfl | later
    · exact ⟨b,List.mem_cons_self,.refl⟩
    · obtain ⟨c,waits,path⟩ := ih later
      rcases List.mem_append.1 waits with link | waits
      · exact ⟨a,List.mem_cons_self,.head link path⟩
      · exact ⟨c,List.mem_cons_of_mem _ waits,path⟩
  | case3 fresh a rest absent ih =>
    obtain ⟨c,waits,path⟩ := ih met
    exact ⟨c,List.mem_cons_of_mem _ waits,path⟩

theorem mem_spread_of_link (met : a ∈ spread next fresh pending) (link : b ∈ next a)
    (inside : b ∈ fresh) : b ∈ spread next fresh pending := by
  fun_induction spread next fresh pending with
  | case1 => simp at met
  | case2 fresh c rest entered ih =>
    by_cases same : b = c
    · exact same ▸ List.mem_cons_self
    · have kept : b ∈ fresh.erase c := (List.mem_erase_of_ne same).2 inside
      refine List.mem_cons_of_mem _ ?_
      rcases List.mem_cons.1 met with rfl | later
      · exact mem_spread_of_mem_pending kept (List.mem_append_left _ link)
      · exact ih later kept
  | case3 fresh c rest absent ih => exact ih met inside

/-- One step of a search. The first value that waits is entered, and what it links to waits in its
place, or it is given up if it may not be entered. -/
def spreadStep (next : α → List α) : List α × List α → List α × List α
  | (fresh,[]) => (fresh,[])
  | (fresh,a :: rest) =>
    if a ∈ fresh then (fresh.erase a,next a ++ rest) else (fresh,rest)

/-- A search ends: step by step it enters the spread, and then nothing waits any more. -/
theorem iterate_spreadStep (next : α → List α) (fresh pending : List α) :
    ∃ steps ≤ pending.length + (fresh.map fun a => (next a).length).sum,
      (spreadStep next)^[steps] (fresh,pending) = (fresh.diff (spread next fresh pending),[]) := by
  fun_induction spread next fresh pending with
  | case1 fresh => exact ⟨0,Nat.zero_le _,by rw [List.diff_nil]; rfl⟩
  | case2 fresh a rest entered ih =>
    obtain ⟨steps,bound,ends⟩ := ih
    -- The links of the value that is entered are paid for by the value itself.
    have links : (fresh.map fun a => (next a).length).sum =
        (next a).length + ((fresh.erase a).map fun a => (next a).length).sum := by
      rw [← List.sum_cons,← List.map_cons (f := fun a => (next a).length)]
      exact ((List.perm_cons_erase entered).map _).sum_eq
    refine ⟨steps+1,?_,?_⟩
    · rw [List.length_append] at bound
      rw [links,List.length_cons]
      omega
    · rw [Function.iterate_succ_apply,List.diff_cons]
      simp only [spreadStep,if_pos entered]
      exact ends
  | case3 fresh a rest absent ih =>
    obtain ⟨steps,bound,ends⟩ := ih
    refine ⟨steps+1,?_,?_⟩
    · rw [List.length_cons]
      omega
    · rw [Function.iterate_succ_apply]
      simp only [spreadStep,if_neg absent]
      exact ends

end TestScout
