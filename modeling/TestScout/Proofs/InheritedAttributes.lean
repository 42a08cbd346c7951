import Mathlib
import TestScout.Proofs.ContextCalls
import TestScout.Proofs.EffectiveAttributes
import TestScout.Proofs.Positions
set_option autoImplicit false

namespace TestScout

namespace Applied

variable {lets : SymbolId → Prop} {scan rest : List Applied} {a : Applied} {k : Nat}

/-- An application is kept if its class is bound and let through, and is not the class of an
application that was kept before. -/
def IsKept (lets : SymbolId → Prop) (scan : List Applied) (k : Nat) : Prop :=
  ∃ a type, scan[k]? = some a ∧ a.data.type = some type ∧ lets type ∧
    ∀ j, j < k → IsKept lets scan j → ∀ b, scan[j]? = some b → b.data.type ≠ some type
  termination_by k

def IsFirst (lets : SymbolId → Prop) (scan : List Applied) (k : Nat) : Prop :=
  ∃ a ∈ scan[k]?, ∃ type ∈ a.data.type, lets type ∧ ∀ b ∈ scan.take k, b.data.type ≠ some type

theorem isKept_iff_isFirst (k : Nat) : IsKept lets scan k ↔ IsFirst lets scan k := by
  rw [IsKept]
  constructor
  · rintro ⟨a,type,here,bound,passes,fresh⟩
    -- An earlier one of the class cannot be there: the first of them would have been kept.
    have absent : ∀ j, j < k → ∀ b, scan[j]? = some b → b.data.type ≠ some type := by
      intro j
      induction j using Nat.strongRecOn with
      | ind j ih =>
        intro before b there same
        have kept : IsKept lets scan j := by
          rw [IsKept]
          exact ⟨b,type,there,same,passes,fun i earlier _ => ih i earlier (by omega)⟩
        exact fresh j before kept b there same
    refine ⟨a,here,type,bound,passes,fun b member => ?_⟩
    obtain ⟨j,inside,rfl⟩ := List.mem_take_iff_getElem.1 member
    exact absent j (by omega) _ (List.getElem?_eq_getElem _)
  · rintro ⟨a,here,type,bound,passes,absent⟩
    refine ⟨a,type,here,bound,passes,fun j before _ b there => absent b ?_⟩
    exact List.mem_of_getElem? ((List.getElem?_take_of_lt before).trans there)

instance [DecidablePred lets] : DecidablePred (IsFirst lets scan) := fun k =>
  inferInstanceAs (Decidable (∃ a ∈ scan[k]?, ∃ type ∈ a.data.type, lets type ∧
    ∀ b ∈ scan.take k, b.data.type ≠ some type))

instance [DecidablePred lets] : DecidablePred (IsKept lets scan) := fun k =>
  decidable_of_iff (IsFirst lets scan k) (isKept_iff_isFirst k).symm

theorem isFirst_zero : IsFirst lets (a :: rest) 0 ↔ ∃ type ∈ a.data.type, lets type := by
  simp [IsFirst]

theorem isFirst_succ :
    IsFirst lets (a :: rest) (k + 1) ↔
      IsFirst (fun type => lets type ∧ a.data.type ≠ some type) rest k := by
  simp only [IsFirst,List.getElem?_cons_succ,List.take_succ_cons,List.forall_mem_cons,and_assoc]

theorem firstOfEachType_eq_entriesAt [DecidablePred lets] {flows : SymbolId → Bool}
    (seen : List SymbolId) (scan : List Applied)
    (same : ∀ type, lets type ↔ flows type ∧ type ∉ seen) :
    firstOfEachType seen (scan.filter fun a => a.data.type.any flows) =
      entriesAt (IsFirst lets scan) scan := by
  -- What is let through shrinks as the walk sees more classes, so both vary.
  induction scan generalizing seen lets with
  | nil => rfl
  | cons a rest ih =>
    have later : entriesAt (fun k => IsFirst lets (a :: rest) (k + 1)) rest =
        entriesAt (IsFirst (fun type => lets type ∧ a.data.type ≠ some type) rest) rest :=
      entriesAt_congr fun _ _ => isFirst_succ
    rw [entriesAt_cons,later,List.filter_cons]
    simp only [isFirst_zero]
    cases bound : a.data.type with
    | none => simp [ih seen same]
    | some type =>
      by_cases passes : lets type
      · obtain ⟨flowing,unseen⟩ := (same type).1 passes
        have next : ∀ other, lets other ∧ some type ≠ some other ↔
            flows other ∧ other ∉ type :: seen := by
          intro other
          rw [same other,List.mem_cons,not_or,Ne,Option.some.injEq,eq_comm]
          tauto
        simp [firstOfEachType,bound,flowing,unseen,passes,ih (type :: seen) next]
      · have next : ∀ other, lets other ∧ some type ≠ some other ↔
            flows other ∧ other ∉ seen := by
          intro other
          rw [← same other,and_iff_left_iff_imp,Ne,Option.some.injEq]
          rintro passes' rfl
          exact passes passes'
        by_cases flowing : flows type
        · have seenBefore : type ∈ seen := by
            by_contra unseen
            exact passes ((same type).2 ⟨flowing,unseen⟩)
          simp [firstOfEachType,bound,flowing,seenBefore,passes,ih seen next]
        · simp [flowing,passes,ih seen next]

theorem pairwise_firstOfEachType (seen : List SymbolId) (list : List Applied) :
    (firstOfEachType seen list).Pairwise fun a b => a.data.type ≠ b.data.type := by
  fun_induction firstOfEachType seen list with
  | case1 => exact .nil
  | case2 seen a rest unbound ih => exact ih
  | case3 seen a rest type bound known ih => exact ih
  | case4 seen a rest type bound unknown ih =>
    refine .cons (fun b member same => ?_) ih
    have again := exists_firstOfEachType_iff.1 ⟨b,member,same.symm.trans bound⟩
    exact again.1 List.mem_cons_self

end Applied

namespace Graph

variable {g : Graph} {id : SymbolId} {s : Symbol} {a : Applied}

/-- What is written on the levels above a symbol: on the bases of a type, nearest first, or on the
method that a method overrides. -/
def appliedAbove (g : Graph) (id : SymbolId) (s : Symbol) : List Applied :=
  match s.kind with
  | .namedType => (g.bases id).flatMap g.applied
  | .method => s.overriddenMethod.toList.flatMap g.applied
  | _ => []

def inheritable (g : Graph) (list : List Applied) : List Applied :=
  list.filter fun a => a.data.type.any (g.isInheritable (g.typeNamed? attributeUsageName))

def appliedTypes (g : Graph) (id : SymbolId) : List SymbolId :=
  (g.attributes id).filterMap Attribute.type

/-- A class may arrive at a symbol if it is inheritable and not applied on the symbol itself. -/
def MayArrive (g : Graph) (s : Symbol) (type : SymbolId) : Prop :=
  g.isInheritable (g.typeNamed? attributeUsageName) type ∧ ∀ own ∈ s.attributes, own.type ≠ some type

instance (g : Graph) (s : Symbol) : DecidablePred (g.MayArrive s) := fun type =>
  inferInstanceAs (Decidable (g.isInheritable (g.typeNamed? attributeUsageName) type ∧
    ∀ own ∈ s.attributes, own.type ≠ some type))

theorem attributes_eq (found : g.symbol? id = some s) : g.attributes id = s.attributes := by
  simp [attributes,found]

theorem applied_eq_nil (missing : g.symbol? id = none) : g.applied id = [] := by
  simp [applied,attributes,missing]

theorem flatMap_donors (found : g.symbol? id = some s) :
    (g.donors id).flatMap g.applied = g.appliedAbove id s := by
  unfold donors appliedAbove
  simp only [found]
  cases s.kind with
  | method =>
    cases s.overriddenMethod with
    | none => rfl
    | some m =>
      cases there : g.symbol? m with
      | none => simp [there,applied_eq_nil there]
      | some overridden => simp [there]
  | _ => rfl

theorem entriesAt_isKept (found : g.symbol? id = some s) (scan : List Applied) :
    entriesAt (Applied.IsKept (g.MayArrive s) scan) scan =
      Applied.firstOfEachType (g.appliedTypes id) (g.inheritable scan) := by
  have same : ∀ type, g.MayArrive s type ↔
      g.isInheritable (g.typeNamed? attributeUsageName) type ∧ type ∉ g.appliedTypes id := by
    intro type
    simp [MayArrive,appliedTypes,attributes_eq found]
  rw [inheritable,Applied.firstOfEachType_eq_entriesAt _ _ same]
  exact entriesAt_congr fun k _ => Applied.isKept_iff_isFirst k

theorem inherited_eq (found : g.symbol? id = some s) :
    (g.effective id).inherited =
      entriesAt (Applied.IsKept (g.MayArrive s) (g.appliedAbove id s)) (g.appliedAbove id s) := by
  rw [entriesAt_isKept found,← flatMap_donors found]
  rfl

theorem exists_owner_of_attribute? {index : Nat} {data : Attribute}
    (written : g.attribute? id index = some data) :
    ∃ owner, g.symbol? id = some owner ∧ owner.attributes[index]? = some data := by
  unfold attribute? at written
  cases found : g.symbol? id with
  | none => simp [attributes,found] at written
  | some owner => exact ⟨owner,rfl,attributes_eq found ▸ written⟩

theorem owner_ne_of_mem_inherited (member : a ∈ (g.effective id).inherited) : a.owner ≠ id := by
  have flowing := (Applied.firstOfEachType_sublist _ _).mem member
  obtain ⟨given,inheritable⟩ := List.mem_filter.1 flowing
  obtain ⟨level,-,written⟩ := List.mem_flatMap.1 given
  obtain ⟨type,bound,-⟩ := (Option.any_eq_true _ _).1 inheritable
  have unseen := (Applied.exists_firstOfEachType_iff.1 ⟨a,member,bound⟩).1
  rintro rfl
  obtain ⟨same,own⟩ := mem_applied_iff.1 written
  rw [← same] at own
  exact unseen (List.mem_filterMap.2 ⟨a.data,List.mem_of_getElem? own,bound⟩)

end Graph

namespace Query

/-- The effective attributes of a symbol that exists are its own in their order, then those of what is
written above it that are kept; whatever was asked before. Among the inherited ones no class occurs
twice, none is written on the symbol itself, and all say where they are written. -/
theorem effective_exact (g : Graph) (m : Memory) (id : SymbolId) (s : Symbol)
    (found : g.symbol? id = some s) :
    let e := (effective g id m).1
    let scan := g.appliedAbove id s
    let kept := entriesAt (Applied.IsKept (g.MayArrive s) scan) scan
    e.items = s.attributes.mapIdx (fun index a => ⟨id,index,a⟩) ++ kept ∧
    (kept.Pairwise fun a b => a.data.type ≠ b.data.type) ∧
    (∀ a ∈ kept, a.owner ≠ id) ∧
    (∀ a ∈ e.items, ∃ owner, g.symbol? a.owner = some owner ∧
      owner.attributes[a.index]? = some a.data) ∧
    (e.hasInherited ↔ kept ≠ []) ∧
    e.size = e.items.length ∧ (e.isEmpty ↔ e.items = []) := by
  intro e scan kept
  have answer : e = g.effective id := by
    simp only [e,effective_eq]
  have inherited : e.inherited = kept := by
    rw [answer,Graph.inherited_eq found]
  have own : e.own = s.attributes.mapIdx fun index a => ⟨id,index,a⟩ := by
    rw [answer,← Graph.attributes_eq found]
    rfl
  have size : e.size = e.items.length := (List.length_append).symm
  refine ⟨?_,?_,fun a member => ?_,fun a member => ?_,?_,size,?_⟩
  · rw [← own,← inherited]
    rfl
  · rw [← inherited,answer]
    exact Applied.pairwise_firstOfEachType _ _
  · rw [← inherited,answer] at member
    exact Graph.owner_ne_of_mem_inherited member
  · rw [answer] at member
    exact Graph.exists_owner_of_attribute? (Graph.attribute?_of_mem_items member)
  · rw [← inherited]
    simp [EffectiveAttributes.hasInherited]
  · rw [EffectiveAttributes.isEmpty,size]
    simp

end Query

def twiceMarked : Symbol :=
  { Symbol.ofName .namedType "Derived" .cSharp with
    baseType := some ⟨6⟩
    attributes := [{ type := some ⟨2⟩ },{ type := none },{ type := some ⟨2⟩ }] }

/-- A class that is the base of its own base. The base applies a class that the derived class applies
too, one that does not flow, one that flows again because a nearer usage says so, and others. -/
def ownBaseGraph : Graph where
  assemblyName := none
  assembly := ⟨0⟩
  symbols :=
    let flowing := fun inherited : Bool =>
      ({ type := some ⟨1⟩, named := [("Inherited",.literal (.bool inherited))] } : Attribute)
    [Symbol.ofName .namedType "Object" .cSharp,
     { Symbol.ofName .namedType "AttributeUsageAttribute" .cSharp with baseType := some ⟨0⟩ },
     { Symbol.ofName .namedType "X" .cSharp with baseType := some ⟨0⟩ },
     { Symbol.ofName .namedType "Y" .cSharp with
       baseType := some ⟨0⟩, attributes := [flowing false] },
     { Symbol.ofName .namedType "Z" .cSharp with
       baseType := some ⟨3⟩, attributes := [flowing true] },
     twiceMarked,
     { Symbol.ofName .namedType "Base" .cSharp with
       baseType := some ⟨5⟩
       attributes :=
         [{ type := some ⟨2⟩ },{ type := some ⟨3⟩ },{ type := some ⟨4⟩ },{ type := none },
          { type := some ⟨4⟩ },{ type := some ⟨7⟩ }] },
     { Symbol.ofName .namedType "W" .cSharp with baseType := some ⟨0⟩ }]
  names := [(⟨1⟩,attributeUsageName)]

theorem effective_exact_ownBase :
    let scan := ownBaseGraph.appliedAbove ⟨5⟩ twiceMarked
    ownBaseGraph.symbol? ⟨5⟩ = some twiceMarked ∧
    (scan.map fun a => (a.owner,a.index)) =
      [(⟨6⟩,0),(⟨6⟩,1),(⟨6⟩,2),(⟨6⟩,3),(⟨6⟩,4),(⟨6⟩,5),(⟨5⟩,0),(⟨5⟩,1),(⟨5⟩,2)] ∧
    entriesAt (Applied.IsKept (ownBaseGraph.MayArrive twiceMarked) scan) scan =
      [⟨⟨6⟩,2,{ type := some ⟨4⟩ }⟩,⟨⟨6⟩,5,{ type := some ⟨7⟩ }⟩] := by
  have items : (Query.effective ownBaseGraph ⟨5⟩ {}).1.items =
      twiceMarked.attributes.mapIdx (fun index a => ⟨⟨5⟩,index,a⟩) ++
        [⟨⟨6⟩,2,{ type := some ⟨4⟩ }⟩,⟨⟨6⟩,5,{ type := some ⟨7⟩ }⟩] := by
    cbv
  refine ⟨rfl,by cbv,?_⟩
  have whole := (Query.effective_exact ownBaseGraph {} ⟨5⟩ twiceMarked rfl).1
  exact List.append_cancel_left (whole.symm.trans items)

end TestScout
