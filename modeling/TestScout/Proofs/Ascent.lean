import TestScout.Proofs.Lineage
import Mathlib.Data.List.Perm.Subperm
import Mathlib.Data.List.TakeWhile
set_option autoImplicit false

namespace TestScout

structure Ascent where
  next : Option SymbolId
  met : List SymbolId := []

namespace Ascent

variable {g : Graph} {id : SymbolId} {first : Option SymbolId} {met fresh : List SymbolId}

/-- One step up. A symbol that is missing or has no base ends the walk, and so does one that was met
before. -/
def step (g : Graph) (a : Ascent) : Ascent :=
  match a.next with
  | none => a
  | some id =>
    match g.baseType? id with
    | none => { a with next := none }
    | some base => if id ∈ a.met then { a with next := none } else ⟨some base,a.met ++ [id]⟩

theorem step_of_open (derived : id ∈ g.derived) (unmet : id ∉ met) :
    step g ⟨some id,met⟩ = ⟨g.baseType? id,met ++ [id]⟩ := by
  obtain ⟨base,link⟩ := Option.isSome_iff_exists.1 (Graph.mem_derived_iff.1 derived)
  simp [step,link,unmet]

theorem step_of_closed (closed : ¬(id ∈ g.derived ∧ id ∉ met)) :
    step g ⟨some id,met⟩ = ⟨none,met⟩ := by
  cases link : g.baseType? id with
  | none => simp [step,link]
  | some base =>
    have derived : id ∈ g.derived := Graph.mem_derived_iff.2 (by rw [link]; rfl)
    have again : id ∈ met := not_not.1 fun unmet => closed ⟨derived,unmet⟩
    simp [step,link,again]

@[simp] theorem iterate_step_over (g : Graph) (met : List SymbolId) (k : Nat) :
    (step g)^[k] ⟨none,met⟩ = ⟨none,met⟩ :=
  Function.iterate_fixed rfl k

theorem iterate_step (once : fresh.Nodup) (rest : ∀ id, id ∈ fresh ↔ id ∈ g.derived ∧ id ∉ met)
    (k : Nat) :
    ((step g)^[k] ⟨first,met⟩).met = met ++ (trail g.baseType? fresh first).take k ∧
      ((trail g.baseType? fresh first).length < k → ((step g)^[k] ⟨first,met⟩).next = none) := by
  -- What may still be entered is what was not met, so the walk and the trail give up the same symbols.
  fun_induction trail g.baseType? fresh first generalizing met k with
  | case1 fresh => simp
  | case2 fresh id entered ih =>
    obtain ⟨derived,unmet⟩ := (rest id).1 entered
    have rest' : ∀ other, other ∈ fresh.erase id ↔ other ∈ g.derived ∧ other ∉ met ++ [id] := by
      intro other
      rw [once.mem_erase_iff,rest other,List.mem_append,List.mem_singleton]
      tauto
    cases k with
    | zero => simp
    | succ k =>
      obtain ⟨levels,ends⟩ := ih (once.erase id) rest' k
      rw [Function.iterate_succ_apply,step_of_open derived unmet]
      refine ⟨by rw [levels,List.append_assoc]; rfl,fun beyond => ends ?_⟩
      exact Nat.lt_of_succ_lt_succ beyond
  | case3 fresh id absent =>
    cases k with
    | zero => simp
    | succ k =>
      have closed := step_of_closed (mt (rest id).2 absent)
      simp [Function.iterate_succ_apply,closed]

theorem iterate_step_start (g : Graph) (first : Option SymbolId) (k : Nat) :
    ((step g)^[k] ⟨first,[]⟩).met = (trail g.baseType? g.derived first).take k ∧
      ((trail g.baseType? g.derived first).length < k → ((step g)^[k] ⟨first,[]⟩).next = none) :=
  iterate_step g.derived_nodup (by simp) k

end Ascent

namespace Graph

variable {g : Graph} {id : SymbolId} {first : Option SymbolId} {levels : List SymbolId}

/-- The symbols that the walk up from `first` meets. Each exists and has a base, which is the next of
them, and none is met twice. Each step meets one, and the step behind the last ends the walk, because
the symbol that is looked at then is missing, has no base or was met before. -/
structure Ascends (g : Graph) (first : Option SymbolId) (levels : List SymbolId) : Prop where
  met : ∀ k, ((Ascent.step g)^[k] ⟨first,[]⟩).met = levels.take k
  ends : ∀ k, levels.length < k → ((Ascent.step g)^[k] ⟨first,[]⟩).next = none
  bounded : levels.length ≤ g.symbols.length
  once : levels.Nodup
  derived : ∀ id ∈ levels, ∃ s, g.symbol? id = some s ∧ s.baseType.isSome
  begins : ∀ id ∈ levels.head?, first = some id
  climbs : levels.IsChain fun id base => g.baseType? id = some base
  stops : ∀ id, levels.getLast?.elim first g.baseType? = some id →
    g.symbol? id = none ∨ (∃ s, g.symbol? id = some s ∧ s.baseType = none) ∨ id ∈ levels

theorem exists_symbol?_of_mem_derived (member : id ∈ g.derived) :
    ∃ s, g.symbol? id = some s ∧ s.baseType.isSome := by
  obtain ⟨base,link⟩ := Option.isSome_iff_exists.1 (mem_derived_iff.1 member)
  obtain ⟨s,found,given⟩ := Option.bind_eq_some_iff.1 link
  exact ⟨s,found,by rw [given]; rfl⟩

theorem ascends_trail (g : Graph) (first : Option SymbolId) :
    g.Ascends first (trail g.baseType? g.derived first) where
  met k := (Ascent.iterate_step_start g first k).1
  ends k := (Ascent.iterate_step_start g first k).2
  bounded := by
    have inside : trail g.baseType? g.derived first ⊆ g.derived := fun _ => mem_of_mem_trail
    have fewer := (List.subperm_of_subset (trail_nodup g.derived_nodup) inside).length_le
    have derived : g.derived.length ≤ g.ids.length := List.length_filter_le ..
    have ids : g.ids.length = g.symbols.length := by simp [Graph.ids]
    omega
  once := trail_nodup g.derived_nodup
  derived id member := exists_symbol?_of_mem_derived (mem_of_mem_trail member)
  begins id := eq_some_of_mem_head?_trail
  climbs := isChain_trail
  stops id ahead := by
    rcases trail_stops ahead with locked | again
    · rw [mem_derived_iff,baseType?] at locked
      cases found : g.symbol? id with
      | none => exact .inl rfl
      | some s => exact .inr (.inl ⟨s,rfl,by simpa [found] using locked⟩)
    · exact .inr (.inr again)

/-- The lineage of a symbol is what the walk up from the symbol meets, and its bases are what the walk
up from its base meets. Both walks end after at most one step more than there are symbols, whatever
cycles the bases form and wherever they lead. The walk from a symbol that has a base goes the way of the
other one as long as this does not come back to the symbol. -/
theorem ascents_exact (g : Graph) (start : SymbolId) :
    g.Ascends (some start) (g.lineage start) ∧ g.Ascends (g.baseType? start) (g.bases start) ∧
    ∀ s, g.symbol? start = some s → s.baseType.isSome →
      g.lineage start = start :: (g.bases start).takeWhile fun id => id ≠ start := by
  refine ⟨g.ascends_trail _,g.ascends_trail _,fun s found hasBase => ?_⟩
  have derives : (g.baseType? start).isSome := by simpa [baseType?,found] using hasBase
  obtain ⟨above,lineage,bases⟩ := exists_lineage_eq derives
  have absent : start ∉ above := by
    have once : (g.lineage start).Nodup := trail_nodup g.derived_nodup
    rw [lineage] at once
    exact (List.nodup_cons.1 once).1
  have front : above.takeWhile (fun id => id ≠ start) = above := by
    refine List.takeWhile_eq_self_iff.2 fun id member => decide_eq_true ?_
    rintro rfl
    exact absent member
  -- The bases end at the start if they come back to it at all.
  rcases bases with bases | bases
  · rw [lineage,bases,front]
  · rw [lineage,bases,List.takeWhile_append,front]
    simp

end Graph

/-- Two classes that are each the base of the other, a class derived from one of them, a class that is
its own base and one whose base is missing. -/
def cyclicGraph : Graph where
  assemblyName := none
  assembly := ⟨0⟩
  symbols :=
    [Symbol.ofName .namedType "Object" .cSharp,
     { Symbol.ofName .namedType "A" .cSharp with baseType := some ⟨2⟩ },
     { Symbol.ofName .namedType "B" .cSharp with baseType := some ⟨1⟩ },
     { Symbol.ofName .namedType "C" .cSharp with baseType := some ⟨1⟩ },
     { Symbol.ofName .namedType "D" .cSharp with baseType := some ⟨4⟩ },
     { Symbol.ofName .namedType "E" .cSharp with baseType := some ⟨9⟩ }]

theorem ascents_exact_cyclic :
    cyclicGraph.Ascends (some ⟨3⟩) [⟨3⟩,⟨1⟩,⟨2⟩] ∧ cyclicGraph.Ascends (some ⟨2⟩) [⟨2⟩,⟨1⟩] ∧
    cyclicGraph.lineage ⟨1⟩ = ⟨1⟩ :: [(⟨2⟩ : SymbolId),⟨1⟩].takeWhile (fun id => id ≠ ⟨1⟩) ∧
    cyclicGraph.Ascends (some ⟨4⟩) [⟨4⟩] ∧ cyclicGraph.Ascends (some ⟨9⟩) [] := by
  have derived : cyclicGraph.lineage ⟨3⟩ = [⟨3⟩,⟨1⟩,⟨2⟩] := by cbv
  have around : cyclicGraph.bases ⟨1⟩ = [⟨2⟩,⟨1⟩] := by cbv
  have itself : cyclicGraph.lineage ⟨4⟩ = [⟨4⟩] := by cbv
  have missing : cyclicGraph.bases ⟨5⟩ = [] := by cbv
  obtain ⟨-,above,ahead⟩ := Graph.ascents_exact cyclicGraph ⟨1⟩
  rw [around] at above ahead
  refine ⟨?_,above,ahead _ rfl rfl,?_,?_⟩
  · rw [← derived]
    exact (Graph.ascents_exact cyclicGraph ⟨3⟩).1
  · rw [← itself]
    exact (Graph.ascents_exact cyclicGraph ⟨4⟩).1
  · rw [← missing]
    exact (Graph.ascents_exact cyclicGraph ⟨5⟩).2.1

end TestScout
