set_option autoImplicit false

namespace TestScout

variable {α : Type} [DecidableEq α]

/-- The values met on the way from `start` along `next`, up to the first that may not be entered. -/
def trail (next : α → Option α) (fresh : List α) (start : Option α) : List α :=
  match start with
  | none => []
  | some a =>
    if _entered : a ∈ fresh then
      a :: trail next (fresh.erase a) (next a)
    else []
  termination_by fresh.length
  decreasing_by
    have hp := List.length_pos_of_mem _entered
    rw [List.length_erase_of_mem _entered]
    omega

/-- The values reached from the pending ones along any of their links. -/
def spread (next : α → List α) (fresh pending : List α) : List α :=
  match pending with
  | [] => []
  | a :: rest =>
    if _entered : a ∈ fresh then
      a :: spread next (fresh.erase a) (next a ++ rest)
    else spread next fresh rest
  termination_by (fresh.length, pending.length)
  decreasing_by
    · have hp := List.length_pos_of_mem _entered
      rw [List.length_erase_of_mem _entered]
      apply Prod.Lex.left
      omega
    · apply Prod.Lex.right
      simp

theorem mem_of_mem_trail {next : α → Option α} {fresh : List α} {start : Option α} {b : α}
    (hb : b ∈ trail next fresh start) : b ∈ fresh := by
  fun_induction trail next fresh start with
  | case1 => simp at hb
  | case2 fresh a h ih =>
    rcases List.mem_cons.1 hb with rfl | hb
    · exact h
    · exact List.mem_of_mem_erase (ih hb)
  | case3 => simp at hb

end TestScout
