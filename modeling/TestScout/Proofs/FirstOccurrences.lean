import Mathlib.Data.List.Induction
import Mathlib.Data.List.Nodup
set_option autoImplicit false

namespace TestScout

variable {α β : Type} [DecidableEq α]

theorem eraseDups_concat (l : List α) (a : α) :
    (l ++ [a]).eraseDups = if a ∈ l then l.eraseDups else l.eraseDups ++ [a] := by
  rw [List.eraseDups_append]
  by_cases h : a ∈ l <;> simp [List.removeAll,List.eraseDups_cons,h]

theorem nodup_eraseDups (l : List α) : l.eraseDups.Nodup := by
  induction l using List.reverseRecOn with
  | nil => exact List.nodup_nil
  | append_singleton l a ih =>
    rw [eraseDups_concat]
    by_cases h : a ∈ l
    · rwa [if_pos h]
    · rw [if_neg h,List.nodup_append]
      refine ⟨ih,List.nodup_singleton a,?_⟩
      intro b hb c hc
      rw [List.mem_singleton] at hc
      subst hc
      rintro rfl
      exact h (List.mem_eraseDups.1 hb)

theorem eraseDups_eq_singleton {l : List α} {a : α} (member : a ∈ l) (all : ∀ b ∈ l, b = a) :
    l.eraseDups = [a] := by
  cases l with
  | nil => cases member
  | cons b rest =>
    obtain ⟨rfl,later⟩ := List.forall_mem_cons.1 all
    have gone : rest.filter (fun c => !c == b) = [] :=
      List.filter_eq_nil_iff.2 fun c inside => by simp [later c inside]
    rw [List.eraseDups_cons,gone,List.eraseDups_nil]

theorem eraseDups_filter (p : α → Bool) (l : List α) :
    (l.filter p).eraseDups = l.eraseDups.filter p := by
  induction l using List.reverseRecOn with
  | nil => rfl
  | append_singleton l a ih =>
    rw [List.filter_append,eraseDups_concat]
    cases hp : p a with
    | false =>
      have dropped : [a].filter p = [] := by simp [hp]
      rw [dropped,List.append_nil,ih]
      split
      · rfl
      · rw [List.filter_append,dropped,List.append_nil]
    | true =>
      have kept : [a].filter p = [a] := by simp [hp]
      rw [kept,eraseDups_concat,ih]
      by_cases h : a ∈ l <;> simp [h,hp]

theorem eraseDups_append_filter (list later : List α) :
    (list ++ later).eraseDups =
      list.eraseDups ++ later.eraseDups.filter fun a => decide (a ∉ list) := by
  rw [List.eraseDups_append,← eraseDups_filter]
  simp [List.removeAll]

@[simp] theorem eraseDups_eraseDups (l : List α) : l.eraseDups.eraseDups = l.eraseDups := by
  induction l using List.reverseRecOn with
  | nil => rfl
  | append_singleton l a ih =>
    rw [eraseDups_concat]
    by_cases h : a ∈ l
    · rw [if_pos h,ih]
    · rw [if_neg h,eraseDups_concat,ih,if_neg (by rwa [List.mem_eraseDups])]

theorem eraseDups_flatMap_eraseDups (f : β → List α) (list : List β) :
    (list.flatMap fun b => (f b).eraseDups).eraseDups = (list.flatMap f).eraseDups := by
  induction list using List.reverseRecOn with
  | nil => rfl
  | append_singleton list b ih =>
    rw [List.flatMap_append,List.flatMap_append,eraseDups_append_filter,eraseDups_append_filter,ih]
    simp

theorem eraseDups_flatMap (f : β → List α) (list : List β) :
    (list.flatMap f).eraseDups =
      list.zipIdx.flatMap fun entry : β × Nat =>
        (f entry.1).eraseDups.filter fun a => decide (∀ b ∈ list.take entry.2, a ∉ f b) := by
  induction list using List.reverseRecOn with
  | nil => rfl
  | append_singleton list b ih =>
    rw [List.flatMap_append,eraseDups_append_filter,ih,List.zipIdx_append,List.flatMap_append]
    congr 1
    · refine List.flatMap_congr fun entry member => ?_
      have inside := List.snd_lt_of_mem_zipIdx member
      rw [List.take_append_of_le_length (by omega)]
    · simp

end TestScout
