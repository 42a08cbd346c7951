import TestScout.Proofs.GraphOrder
import TestScout.Proofs.Trail
set_option autoImplicit false

namespace TestScout.Graph

variable {g : Graph} {id type base : SymbolId}

@[simp] theorem mem_derived_iff : type ∈ g.derived ↔ (g.baseType? type).isSome := by
  unfold derived
  rw [List.mem_filter,mem_ids]
  refine and_iff_right_of_imp fun hasBase => ?_
  unfold baseType? at hasBase
  cases found : g.symbol? type with
  | none => simp [found] at hasBase
  | some s => rfl

theorem descends_baseType
    (before : ∀ id ∈ g.ids, ∀ base ∈ g.baseType? id, base.index < id.index) :
    Descends g.baseType? := by
  intro id base link
  obtain ⟨s,found,-⟩ := Option.bind_eq_some_iff.1 link
  exact before id (mem_ids_of_symbol? found) base link

theorem derived_nodup (g : Graph) : g.derived.Nodup := by
  refine List.Nodup.filter _ ?_
  exact List.nodup_range.map fun _ _ same => congrArg SymbolId.index same

theorem bases_eq_lineage (link : g.baseType? id = some base) : g.bases id = g.lineage base := by
  rw [bases,lineage,link]

/-- The bases of a type are those behind it in its lineage, and then the type itself if it is among
its own bases. -/
theorem exists_lineage_eq (hasBase : (g.baseType? type).isSome) :
    ∃ above, g.lineage type = type :: above ∧
      (g.bases type = above ∨ g.bases type = above ++ [type]) := by
  refine ⟨trail g.baseType? (g.derived.erase type) (g.baseType? type),?_,?_⟩
  · exact trail_of_mem (mem_derived_iff.2 hasBase)
  · unfold bases
    rw [trail_next_eq g.derived_nodup]
    split
    · exact .inr rfl
    · exact .inl (List.append_nil _)

theorem bases_subset (g : Graph) (id : SymbolId) : g.bases id ⊆ g.ids := fun _ met =>
  (List.mem_filter.1 (mem_of_mem_trail met)).1

end TestScout.Graph
