import TestScout.Graph.Walk
import Mathlib.Data.List.Chain
import Mathlib.Data.List.Nodup
set_option autoImplicit false

namespace TestScout

variable {α : Type} [DecidableEq α] {next : α → Option α} {fresh : List α} {start : Option α}

@[simp] theorem trail_none (next : α → Option α) (fresh : List α) : trail next fresh none = [] := by
  unfold trail; rfl

theorem trail_of_mem {a : α} (h : a ∈ fresh) :
    trail next fresh (some a) = a :: trail next (fresh.erase a) (next a) := by
  rw [trail]
  simp [h]

theorem trail_of_not_mem {a : α} (h : a ∉ fresh) : trail next fresh (some a) = [] := by
  rw [trail]
  simp [h]

theorem eq_some_of_mem_head?_trail {a : α} (first : a ∈ (trail next fresh start).head?) :
    start = some a := by
  cases start with
  | none => simp at first
  | some b =>
    by_cases entered : b ∈ fresh
    · rw [trail_of_mem entered,List.head?_cons] at first
      exact first
    · simp [trail_of_not_mem entered] at first

theorem isChain_trail : (trail next fresh start).IsChain fun a b => next a = some b := by
  fun_induction trail next fresh start with
  | case1 => exact .nil
  | case2 fresh a entered ih =>
    exact List.isChain_cons.2 ⟨fun b first => eq_some_of_mem_head?_trail first,ih⟩
  | case3 => exact .nil

theorem trail_stops {a : α}
    (ahead : (trail next fresh start).getLast?.elim start next = some a) :
    a ∉ fresh ∨ a ∈ trail next fresh start := by
  fun_induction trail next fresh start with
  | case1 => cases ahead
  | case2 fresh b entered ih =>
    rw [List.getLast?_cons,Option.elim_some] at ahead
    have step : (trail next (fresh.erase b) (next b)).getLast?.elim (next b) next = some a := by
      cases last : (trail next (fresh.erase b) (next b)).getLast? with
      | none => rwa [last] at ahead
      | some c => rwa [last] at ahead
    by_cases same : a = b
    · exact .inr (same ▸ List.mem_cons_self)
    · refine (ih step).imp (fun locked inside => locked ?_) (List.mem_cons_of_mem b)
      exact (List.mem_erase_of_ne same).2 inside
  | case3 fresh b absent => exact .inl (Option.some.inj ahead ▸ absent)

theorem trail_nodup (h : fresh.Nodup) : (trail next fresh start).Nodup := by
  fun_induction trail next fresh start with
  | case1 => exact List.nodup_nil
  | case2 fresh a member ih =>
    refine List.nodup_cons.2 ⟨?_,ih (h.erase a)⟩
    intro again
    exact h.not_mem_erase (mem_of_mem_trail again)
  | case3 => exact List.nodup_nil

theorem trail_erase {b : α} (h : b ∉ trail next fresh start) :
    trail next (fresh.erase b) start = trail next fresh start := by
  fun_induction trail next fresh start with
  | case1 => exact trail_none next _
  | case2 fresh a member ih =>
    rw [List.mem_cons,not_or] at h
    obtain ⟨differs,later⟩ := h
    have kept : a ∈ fresh.erase b := (List.mem_erase_of_ne (Ne.symm differs)).2 member
    rw [trail_of_mem kept,List.erase_comm,ih later]
  | case3 fresh a absent =>
    exact trail_of_not_mem fun member => absent (List.mem_of_mem_erase member)

/-- Behind a value that it meets, a trail goes on from there through values that it has not met. -/
theorem trail_split {b : α} (once : fresh.Nodup) (met : b ∈ trail next fresh start) :
    ∃ rest, trail next fresh start =
        trail next (fresh.erase b) start ++ b :: trail next rest (next b) ∧
      rest ⊆ fresh ∧ b ∉ rest ∧ ∀ a ∈ trail next (fresh.erase b) start, a ∉ rest := by
  fun_induction trail next fresh start with
  | case1 => simp at met
  | case2 fresh a entered ih =>
    by_cases same : a = b
    · subst same
      have given : a ∉ fresh.erase a := once.not_mem_erase
      refine ⟨fresh.erase a,?_,List.erase_subset,given,?_⟩
      · rw [trail_of_not_mem given,List.nil_append]
      · simp [trail_of_not_mem given]
    · have later := (List.mem_cons.1 met).resolve_left (Ne.symm same)
      obtain ⟨rest,split,inside,absent,apart⟩ := ih (once.erase a) later
      have kept : a ∈ fresh.erase b := (List.mem_erase_of_ne same).2 entered
      rw [trail_of_mem kept,List.erase_comm,split]
      refine ⟨rest,rfl,fun c member => List.mem_of_mem_erase (inside member),absent,?_⟩
      rw [List.forall_mem_cons]
      exact ⟨fun member => once.not_mem_erase (inside member),apart⟩
  | case3 => simp at met

theorem trail_next_eq {b : α} (once : fresh.Nodup) :
    trail next fresh (next b) =
      trail next (fresh.erase b) (next b) ++
        if b ∈ trail next fresh (next b) then [b] else [] := by
  split
  · next met =>
    obtain ⟨rest,split,-,absent,apart⟩ := trail_split once met
    cases step : next b with
    | none => simp [step] at met
    | some a =>
      rw [step] at split met apart
      -- The trail would go on where it began, and it has been there.
      have begun : a ∉ rest := by
        by_cases same : a = b
        · exact same ▸ absent
        · have entered : a ∈ fresh := by
            by_contra locked
            simp [trail_of_not_mem locked] at met
          have kept : a ∈ fresh.erase b := (List.mem_erase_of_ne same).2 entered
          exact apart a (trail_of_mem kept ▸ List.mem_cons_self)
      rw [trail_of_not_mem begun] at split
      exact split
  · next unmet => rw [trail_erase unmet,List.append_nil]

/-- A step from the tested front of a trail stays in the front, unless it fails the test or leads to
a value that could not be entered. -/
theorem mem_front_of_step {p : α → Bool} {a b : α}
    (ha : a ∈ (trail next fresh start).takeWhile p) (step : next a = some b) (hb : p b)
    (open_ : b ∈ fresh) : b ∈ (trail next fresh start).takeWhile p := by
  fun_induction trail next fresh start with
  | case1 => simp at ha
  | case2 fresh c member ih =>
    by_cases hc : p c
    · rw [List.takeWhile_cons_of_pos hc] at ha ⊢
      by_cases same : b = c
      · exact same ▸ List.mem_cons_self
      · have kept : b ∈ fresh.erase c := (List.mem_erase_of_ne same).2 open_
        rcases List.mem_cons.1 ha with rfl | later
        · rw [step,trail_of_mem kept,List.takeWhile_cons_of_pos hb]
          exact List.mem_cons_of_mem _ List.mem_cons_self
        · exact List.mem_cons_of_mem _ (ih later kept)
    · rw [List.takeWhile_cons_of_neg hc] at ha
      simp at ha
  | case3 => simp at ha

end TestScout
