import TestScout.Graph.Ancestry
import TestScout.Proofs.Trail
set_option autoImplicit false

/-!
What it means that a type is visible outside: the type and every type that it is nested in are
public, where the nesting ends at the first symbol around it that is no type. `Graph.isVisible` gives
an answer for all containing links, since it reads a list that stops at the first repetition. The climb
that finds the answer step by step gives the same one where it ends, and it is bound to end only where
the containing links do.
-/

namespace TestScout.Graph

def isPublic (g : Graph) (id : SymbolId) : Bool :=
  (g.symbol? id).any Symbol.isPublic

/-- The second symbol is the first, a type, or a type around it with nothing but types between. -/
inductive NestedIn (g : Graph) (type : SymbolId) : SymbolId → Prop where
  | itself : g.isType type → NestedIn g type type
  | outer {inner around : SymbolId} : NestedIn g type inner → g.containing? inner = some around →
      g.isType around → NestedIn g type around

theorem mem_ids_of_isType {g : Graph} {id : SymbolId} (h : g.isType id) : id ∈ g.ids := by
  rw [mem_ids]
  unfold isType at h
  cases hs : g.symbol? id with
  | none => simp [hs] at h
  | some s => rfl

theorem nestedIn_of_mem_front {g : Graph} {type around : SymbolId} {fresh : List SymbolId}
    {start : Option SymbolId} (begins : ∀ s, start = some s → g.isType s → g.NestedIn type s)
    (h : around ∈ (trail g.containing? fresh start).takeWhile g.isType) :
    g.NestedIn type around := by
  fun_induction trail g.containing? fresh start with
  | case1 => simp at h
  | case2 fresh a member ih =>
    by_cases ha : g.isType a
    · rw [List.takeWhile_cons_of_pos ha] at h
      have first := begins a rfl ha
      rcases List.mem_cons.1 h with rfl | later
      · exact first
      · exact ih (fun s step hs => .outer first step hs) later
    · rw [List.takeWhile_cons_of_neg ha] at h
      simp at h
  | case3 => simp at h

theorem mem_front_iff_nestedIn (g : Graph) (type around : SymbolId) :
    around ∈ (g.enclosing type).takeWhile g.isType ↔ g.NestedIn type around := by
  constructor
  · refine nestedIn_of_mem_front ?_
    intro s start hs
    obtain rfl := Option.some.inj start
    exact .itself hs
  · intro h
    induction h with
    | itself ht =>
      rw [enclosing,trail_of_mem (mem_ids_of_isType ht),List.takeWhile_cons_of_pos ht]
      exact List.mem_cons_self
    | outer _ step hv ih => exact mem_front_of_step ih step hv (mem_ids_of_isType hv)

theorem all_public_front (g : Graph) (ids : List SymbolId) (exist : ∀ id ∈ ids, id ∈ g.ids) :
    ((ids.filterMap g.symbol?).takeWhile Symbol.isType).all Symbol.isPublic =
      (ids.takeWhile g.isType).all g.isPublic := by
  induction ids with
  | nil => rfl
  | cons id rest ih =>
    have found := (mem_ids g id).1 (exist id List.mem_cons_self)
    obtain ⟨s,hs⟩ := Option.isSome_iff_exists.1 found
    have ht : g.isType id = s.isType := by simp [isType,hs]
    have hp : g.isPublic id = s.isPublic := by simp [isPublic,hs]
    have later := ih fun other h => exist other (List.mem_cons_of_mem _ h)
    rw [List.filterMap_cons_some hs,List.takeWhile_cons,List.takeWhile_cons,ht]
    cases s.isType with
    | false => rfl
    | true => simp [hp,later]

theorem isVisible_iff (g : Graph) (type : SymbolId) :
    g.isVisible type ↔ ∀ around, g.NestedIn type around → g.isPublic around := by
  have exist : ∀ id ∈ g.enclosing type, id ∈ g.ids := fun _ h => mem_of_mem_trail h
  unfold isVisible enclosingSymbols
  rw [all_public_front g _ exist,List.all_eq_true]
  simp only [mem_front_iff_nestedIn]

end TestScout.Graph
