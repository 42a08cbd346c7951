import TestScout.Proofs.AttributeLevels
set_option autoImplicit false

namespace TestScout

/-- What a usage says of the class that it is written on: that applications of the class flow to derived
symbols, unless it is given a truth value for `Inherited` and this is false. -/
def Attribute.letsInherit (usage : Attribute) : Bool :=
  match usage.named? "Inherited" with
  | some (.literal (.bool inherited)) => inherited
  | _ => true

namespace Applied

variable {seen : List SymbolId} {list : List Applied} {type : SymbolId}

theorem find?_firstOfEachType (unseen : type ∉ seen) :
    (firstOfEachType seen list).find? (·.isOf type) = list.find? (·.isOf type) := by
  induction list generalizing seen with
  | nil => rfl
  | cons a rest ih =>
    rw [List.find?_cons]
    cases here : a.isOf type with
    | true => simp [firstOfEachType,isOf_iff.1 here,unseen,here]
    | false =>
      cases bound : a.data.type with
      | none => simp [firstOfEachType,bound,ih unseen]
      | some other =>
        have differs : type ≠ other := by
          rintro rfl
          simp [isOf,bound] at here
        have unseen' : type ∉ other :: seen := List.not_mem_cons_of_ne_of_not_mem differs unseen
        by_cases before : other ∈ seen
        · simp [firstOfEachType,bound,before,ih unseen]
        · simp [firstOfEachType,bound,before,here,ih unseen']

end Applied

namespace Graph

variable {g : Graph} {id type usageType base : SymbolId} {s : Symbol}

@[simp] theorem map_data_applied (g : Graph) (id : SymbolId) :
    (g.applied id).map Applied.data = g.attributes id := by
  refine List.ext_getElem? fun i => ?_
  simp [applied,Function.comp_def]

theorem isInheritable_some (g : Graph) (usageType type : SymbolId) :
    g.isInheritable (some usageType) type = (g.usage? usageType type).all Attribute.letsInherit := by
  rw [isInheritable]
  cases g.usage? usageType type with
  | none => rfl
  | some usage => rfl

theorem usage?_eq_find? (g : Graph) (usageType type : SymbolId) :
    g.usage? usageType type =
      (((g.lineage type).flatMap g.applied).find? (·.isOf usageType)).map Applied.data := by
  rw [List.find?_flatMap,List.map_findSome?]
  unfold usage?
  congr 1
  funext level
  rw [← map_data_applied,List.find?_map]
  rfl

theorem find?_lineage (hasBase : (g.baseType? type).isSome) (p : Applied → Bool) :
    ((g.lineage type).flatMap g.applied).find? p =
      (g.applied type ++ (g.bases type).flatMap g.applied).find? p := by
  obtain ⟨above,lineage,bases | bases⟩ := exists_lineage_eq hasBase
  · rw [lineage,bases,List.flatMap_cons]
  · rw [lineage,bases,List.flatMap_cons,List.flatMap_append,List.flatMap_singleton]
    simp only [List.find?_append]
    cases (g.applied type).find? p <;> simp

theorem find?_items (found : g.symbol? id = some s) (isType : s.kind = .namedType)
    (flows : g.isInheritable (g.typeNamed? attributeUsageName) type) :
    (g.effective id).items.find? (·.isOf type) =
      (g.applied id ++ (g.bases id).flatMap g.applied).find? (·.isOf type) := by
  rw [effective_items_eq found isType,composed_eq found (g.bases_subset id),List.find?_append,
    List.find?_append]
  cases own : (g.applied id).find? (·.isOf type) with
  | some a => rw [Option.some_or,Option.some_or]
  | none =>
    have unseen : type ∉ g.appliedTypes id := by
      intro listed
      obtain ⟨a,written,bound⟩ := (exists_applied_iff (p := fun a => a.type = some type)).2
        (List.mem_filterMap.1 listed)
      exact List.find?_eq_none.1 own a written (Applied.isOf_iff.2 bound)
    rw [Option.none_or,Option.none_or,Applied.find?_firstOfEachType unseen,flowing,
      find?_inheritable flows]

/-- A class without a usage of its own has the usage of its base. -/
theorem usage?_eq_usage?_base (link : g.baseType? type = some base)
    (plain : ∀ a ∈ g.attributes type, a.type ≠ some usageType) :
    g.usage? usageType type = g.usage? usageType base := by
  have hasBase : (g.baseType? type).isSome := by rw [link]; rfl
  have own : (g.applied type).find? (·.isOf usageType) = none := by
    refine List.find?_eq_none.2 fun a written same => ?_
    have inside := List.mem_of_getElem? (mem_applied_iff.1 written).2
    exact plain a.data inside (Applied.isOf_iff.1 same)
  rw [usage?_eq_find?,usage?_eq_find?,find?_lineage hasBase,List.find?_append,own,Option.none_or,
    bases_eq_lineage link]

end Graph

namespace Query

/-- Where usages flow, the applications of an attribute class flow to derived symbols exactly if the
first usage among the effective attributes of the class says so or there is none; whatever was asked
before. A class without a usage of its own is like its base. Bases may form cycles. -/
theorem isInheritable_of_effective (g : Graph) (m : Memory) (usageType type : SymbolId) (s : Symbol)
    (resolved : g.typeNamed? attributeUsageName = some usageType)
    (flows : g.isInheritable (some usageType) usageType)
    (found : g.symbol? type = some s) (isType : s.kind = .namedType) (hasBase : s.baseType.isSome) :
    g.isInheritable (some usageType) type =
      ((effective g type m).1.items.find? (·.isOf usageType)).all (fun a => a.data.letsInherit) ∧
    ∀ base, s.baseType = some base → (∀ a ∈ s.attributes, a.type ≠ some usageType) →
      g.isInheritable (some usageType) type = g.isInheritable (some usageType) base := by
  have derives : (g.baseType? type).isSome := by simpa [Graph.baseType?,found] using hasBase
  constructor
  · have first : (g.effective type).items.find? (·.isOf usageType) =
        ((g.lineage type).flatMap g.applied).find? (·.isOf usageType) := by
      rw [Graph.find?_lineage derives]
      exact Graph.find?_items found isType (by rwa [resolved])
    rw [effective_eq,first,Graph.isInheritable_some,Graph.usage?_eq_find?,Option.all_map]
  · intro base given plain
    have link : g.baseType? type = some base := by rw [Graph.baseType?,found,Option.bind_some,given]
    rw [Graph.isInheritable_some,Graph.isInheritable_some,
      Graph.usage?_eq_usage?_base link (by rwa [Graph.attributes_eq found])]

end Query

def usageOf (inherited : Bool) : Attribute :=
  { type := some ⟨1⟩, named := [("Inherited",.literal (.bool inherited))] }

def plainAttribute : Symbol :=
  { Symbol.ofName .namedType "AAttribute" .cSharp with
    baseType := some ⟨3⟩, attributes := [{ type := some ⟨4⟩ },{ type := none }] }

/-- Two attribute classes that are each the base of the other. The first has no usage of its own, the
second has two that contradict each other, and both apply another attribute. -/
def usageGraph : Graph where
  assemblyName := none
  assembly := ⟨0⟩
  symbols :=
    [Symbol.ofName .namedType "Object" .cSharp,
     { Symbol.ofName .namedType "AttributeUsageAttribute" .cSharp with baseType := some ⟨0⟩ },
     plainAttribute,
     { Symbol.ofName .namedType "BAttribute" .cSharp with
       baseType := some ⟨2⟩
       attributes := [{ type := some ⟨4⟩ },usageOf false,usageOf true] },
     { Symbol.ofName .namedType "Mark" .cSharp with baseType := some ⟨0⟩ }]
  names := [(⟨1⟩,attributeUsageName)]

theorem isInheritable_of_effective_cyclic :
    (Query.effective usageGraph ⟨2⟩ {}).1.items.find? (·.isOf ⟨1⟩) = some ⟨⟨3⟩,1,usageOf false⟩ ∧
    usageGraph.isInheritable (some ⟨1⟩) ⟨2⟩ = false ∧
    usageGraph.isInheritable (some ⟨1⟩) ⟨3⟩ = false := by
  have items : (Query.effective usageGraph ⟨2⟩ {}).1.items =
      [⟨⟨2⟩,0,{ type := some ⟨4⟩ }⟩,⟨⟨2⟩,1,{ type := none }⟩,⟨⟨3⟩,1,usageOf false⟩] := by
    cbv
  have first : (Query.effective usageGraph ⟨2⟩ {}).1.items.find? (·.isOf ⟨1⟩) =
      some ⟨⟨3⟩,1,usageOf false⟩ := by
    rw [items]
    rfl
  obtain ⟨decided,likeBase⟩ := Query.isInheritable_of_effective usageGraph {} ⟨1⟩ ⟨2⟩ plainAttribute
    rfl (by cbv) rfl rfl rfl
  rw [first] at decided
  exact ⟨first,decided,(likeBase ⟨3⟩ rfl (by decide)).symm.trans decided⟩

end TestScout
