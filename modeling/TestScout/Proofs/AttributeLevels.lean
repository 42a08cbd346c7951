import Mathlib
import TestScout.Proofs.InheritedAttributes
import TestScout.Proofs.Lineage
set_option autoImplicit false

/-!
Inherited attributes, level by level. The walk over all bases of a type gives what each level would
get from the next one alone. Of the applications of one class on one level only the first flows down,
even if no level further down applies the class.
-/

namespace TestScout

namespace Applied

variable {seen seen' : List SymbolId} {list : List Applied} {a : Applied} {type : SymbolId}

def isOf (a : Applied) (type : SymbolId) : Bool :=
  a.data.type == some type

@[simp] theorem isOf_iff : a.isOf type ↔ a.data.type = some type :=
  beq_iff_eq

def types (list : List Applied) : List SymbolId :=
  list.filterMap fun a => a.data.type

theorem mem_types_iff : type ∈ types list ↔ ∃ a ∈ list, a.data.type = some type :=
  List.mem_filterMap

theorem types_cons_of_none (unbound : a.data.type = none) : types (a :: list) = types list :=
  List.filterMap_cons_none unbound

theorem types_cons_of_some (bound : a.data.type = some type) :
    types (a :: list) = type :: types list :=
  List.filterMap_cons_some bound

theorem firstOfEachType_congr (same : ∀ type, type ∈ seen ↔ type ∈ seen') :
    firstOfEachType seen list = firstOfEachType seen' list := by
  induction list generalizing seen seen' with
  | nil => rfl
  | cons a rest ih =>
    have step (other : SymbolId) : ∀ type, type ∈ other :: seen ↔ type ∈ other :: seen' := by
      simp [same]
    cases bound : a.data.type with
    | none => simp only [firstOfEachType,bound,ih same]
    | some type => simp only [firstOfEachType,bound,same,ih same,ih (step type)]

theorem firstOfEachType_append (seen : List SymbolId) (front list : List Applied) :
    firstOfEachType seen (front ++ list) =
      firstOfEachType seen front ++ firstOfEachType (types front ++ seen) list := by
  induction front generalizing seen with
  | nil => rfl
  | cons b rest ih =>
    cases bound : b.data.type with
    | none => simp [firstOfEachType,types_cons_of_none bound,bound,ih]
    | some type =>
      by_cases before : type ∈ seen
      · have same : ∀ other, other ∈ types rest ++ seen ↔ other ∈ type :: (types rest ++ seen) := by
          intro other
          rw [List.mem_cons,iff_or_self]
          rintro rfl
          exact List.mem_append_right _ before
        simp [firstOfEachType,types_cons_of_some bound,bound,before,ih,firstOfEachType_congr same]
      · have same : ∀ other, other ∈ types rest ++ type :: seen ↔
            other ∈ type :: (types rest ++ seen) := by
          intro other
          simp only [List.mem_append,List.mem_cons]
          tauto
        simp [firstOfEachType,types_cons_of_some bound,bound,before,ih,firstOfEachType_congr same]

theorem firstOfEachType_firstOfEachType (known : ∀ type ∈ types list, type ∈ seen' → type ∈ seen) :
    firstOfEachType seen (firstOfEachType seen' list) = firstOfEachType seen list := by
  induction list generalizing seen seen' with
  | nil => rfl
  | cons a rest ih =>
    cases bound : a.data.type with
    | none =>
      rw [types_cons_of_none bound] at known
      simp only [firstOfEachType,bound,ih known]
    | some type =>
      rw [types_cons_of_some bound,List.forall_mem_cons] at known
      obtain ⟨here,later⟩ := known
      by_cases before : type ∈ seen'
      · simp only [firstOfEachType,bound,if_pos before,if_pos (here before),ih later]
      · have later' {s : List SymbolId} (listed : type ∈ s) (more : seen ⊆ s) :
            ∀ other ∈ types rest, other ∈ type :: seen' → other ∈ s := by
          intro other member again
          rcases List.mem_cons.1 again with rfl | again
          · exact listed
          · exact more (later other member again)
        by_cases again : type ∈ seen
        · have step := ih (later' again (List.Subset.refl seen))
          simp only [firstOfEachType,bound,if_neg before,if_pos again,step]
        · have step := ih (later' List.mem_cons_self (List.subset_cons_self type seen))
          simp only [firstOfEachType,bound,if_neg before,if_neg again,step]

theorem firstOfEachType_eq_nil (known : types list ⊆ seen) : firstOfEachType seen list = [] := by
  induction list with
  | nil => rfl
  | cons a rest ih =>
    cases bound : a.data.type with
    | none =>
      rw [types_cons_of_none bound] at known
      simp only [firstOfEachType,bound,ih known]
    | some type =>
      rw [types_cons_of_some bound] at known
      obtain ⟨here,later⟩ := List.cons_subset.1 known
      simp only [firstOfEachType,bound,if_pos here,ih later]

theorem mem_firstOfEachType_iff (bound : a.data.type = some type) :
    a ∈ firstOfEachType seen list ↔ type ∉ seen ∧ list.find? (·.isOf type) = some a := by
  induction list generalizing seen with
  | nil => simp [firstOfEachType]
  | cons b rest ih =>
    cases here : b.data.type with
    | none => simp [firstOfEachType,isOf,here,ih]
    | some other =>
      by_cases same : other = type
      · subst same
        by_cases before : other ∈ seen
        · simp [firstOfEachType,isOf,here,before,ih]
        · simp [firstOfEachType,isOf,here,before,ih,eq_comm]
      · have differs : a ≠ b := by
          rintro rfl
          exact same (Option.some.inj (here.symm.trans bound))
        by_cases before : other ∈ seen
        · simp [firstOfEachType,isOf,here,before,same,ih]
        · simp [firstOfEachType,isOf,here,before,same,Ne.symm same,differs,ih]

end Applied

namespace Graph

variable {g : Graph} {id type base level : SymbolId} {s : Symbol} {above levels : List SymbolId}

def flowing (g : Graph) (levels : List SymbolId) : List Applied :=
  g.inheritable (levels.flatMap g.applied)

/-- The attributes of the lowest of some levels, put together level by level: to what is written on a
level comes what it keeps of the attributes of the next level. -/
def composed (g : Graph) : List SymbolId → List Applied
  | [] => []
  | level :: above =>
    match g.symbol? level with
    | none => []
    | some s =>
      g.applied level ++
        entriesAt (Applied.IsKept (g.MayArrive s) (g.composed above)) (g.composed above)

@[simp] theorem flowing_append (g : Graph) (front back : List SymbolId) :
    g.flowing (front ++ back) = g.flowing front ++ g.flowing back := by
  simp [flowing,inheritable]

theorem mem_types_flowing_iff :
    type ∈ Applied.types (g.flowing [level]) ↔
      g.isInheritable (g.typeNamed? attributeUsageName) type ∧ type ∈ g.appliedTypes level := by
  have written : (∃ a ∈ g.applied level, a.data.type = some type) ↔ type ∈ g.appliedTypes level :=
    (exists_applied_iff (p := fun a => a.type = some type)).trans List.mem_filterMap.symm
  rw [Applied.mem_types_iff,← written]
  simp only [flowing,inheritable,List.flatMap_singleton,List.mem_filter]
  constructor
  · rintro ⟨a,⟨member,flows⟩,bound⟩
    exact ⟨by simpa [bound] using flows,a,member,bound⟩
  · rintro ⟨flows,a,member,bound⟩
    exact ⟨a,⟨member,by simpa [bound] using flows⟩,bound⟩

theorem isInheritable_of_flowing (member : type ∈ Applied.types (g.flowing levels)) :
    g.isInheritable (g.typeNamed? attributeUsageName) type := by
  obtain ⟨a,flowing,bound⟩ := Applied.mem_types_iff.1 member
  have flows := (List.mem_filter.1 flowing).2
  rwa [bound] at flows

/-- Put together level by level, the lowest level has what is written on it and the first application
of each further class that flows down from any level above it. -/
theorem composed_eq (found : g.symbol? level = some s) (known : above ⊆ g.ids) :
    g.composed (level :: above) =
      g.applied level ++ Applied.firstOfEachType (g.appliedTypes level) (g.flowing above) := by
  induction above generalizing level s with
  | nil => simp [composed,found,entriesAt,flowing,inheritable,Applied.firstOfEachType]
  | cons next rest ih =>
    obtain ⟨exists_,later⟩ := List.cons_subset.1 known
    obtain ⟨s',found'⟩ := Option.isSome_iff_exists.1 ((g.mem_ids next).1 exists_)
    -- The next level passes on the classes that it shadows further up, so nothing is lost with them.
    have again : ∀ type ∈ Applied.types (g.flowing rest), type ∈ g.appliedTypes next →
        type ∈ Applied.types (g.flowing [next]) ++ g.appliedTypes level := by
      intro type member listed
      have flows := isInheritable_of_flowing member
      exact List.mem_append_left _ (mem_types_flowing_iff.2 ⟨flows,listed⟩)
    have passed : g.inheritable (g.composed (next :: rest)) = g.flowing [next] ++
        Applied.firstOfEachType (g.appliedTypes next) (g.flowing rest) := by
      have own : g.inheritable (g.applied next) = g.flowing [next] := by simp [flowing]
      rw [ih found' later,← own,inheritable,List.filter_append]
      congr 1
      refine List.filter_eq_self.2 fun a member => ?_
      exact (List.mem_filter.1 ((Applied.firstOfEachType_sublist _ _).mem member)).2
    have split : g.flowing (next :: rest) = g.flowing [next] ++ g.flowing rest :=
      g.flowing_append [next] rest
    rw [composed,found]
    dsimp only
    rw [entriesAt_isKept found,passed,split,Applied.firstOfEachType_append,
      Applied.firstOfEachType_append,Applied.firstOfEachType_firstOfEachType again]

theorem composed_concat_self (found : g.symbol? level = some s) (known : above ⊆ g.ids) :
    g.composed (level :: (above ++ [level])) = g.composed (level :: above) := by
  have known' : above ++ [level] ⊆ g.ids := by
    refine List.append_subset.2 ⟨known,?_⟩
    simp [found]
  have again : Applied.types (g.flowing [level]) ⊆
      Applied.types (g.flowing above) ++ g.appliedTypes level := fun type member =>
    List.mem_append_right _ (mem_types_flowing_iff.1 member).2
  rw [composed_eq found known',composed_eq found known,flowing_append,
    Applied.firstOfEachType_append,Applied.firstOfEachType_eq_nil again,List.append_nil]

theorem effective_items_eq (found : g.symbol? id = some s) (isType : s.kind = .namedType) :
    (g.effective id).items = g.composed (id :: g.bases id) := by
  have donors : g.donors id = g.bases id := by simp [donors,found,isType]
  rw [composed_eq found (g.bases_subset id),← donors]
  rfl

theorem composed_bases (found : g.symbol? type = some s) (hasBase : s.baseType.isSome) :
    g.composed (type :: g.bases type) = g.composed (g.lineage type) := by
  have hasBase' : (g.baseType? type).isSome := by simpa [baseType?,found] using hasBase
  obtain ⟨above,lineage,bases | bases⟩ := exists_lineage_eq hasBase'
  · rw [bases,lineage]
  · have known : above ⊆ g.ids := fun _ member =>
      g.bases_subset type (bases ▸ List.mem_append_left _ member)
    rw [bases,lineage,composed_concat_self found known]

theorem find?_applied_eq_iff {index : Nat} {data : Attribute}
    (written : g.attribute? level index = some data) (bound : data.type = some type) :
    (g.applied level).find? (·.isOf type) = some ⟨level,index,data⟩ ↔
      ∀ b ∈ (g.attributes level).take index, b.type ≠ some type := by
  obtain ⟨inside,here⟩ := List.getElem?_eq_some_iff.1 written
  rw [List.find?_eq_some_iff_getElem]
  constructor
  · rintro ⟨-,i,inside',same,first⟩ b member
    obtain rfl : i = index := by simpa [applied] using congrArg Applied.index same
    obtain ⟨j,before,rfl⟩ := List.mem_take_iff_getElem.1 member
    simpa [applied,Applied.isOf] using first j (by omega)
  · intro free
    have inside' : index < (g.applied level).length := by simpa [applied] using inside
    refine ⟨Applied.isOf_iff.2 bound,index,inside',by simp [applied,here],fun j before => ?_⟩
    have member : (g.attributes level)[j] ∈ (g.attributes level).take index :=
      List.mem_take_iff_getElem.2 ⟨j,by omega,rfl⟩
    simpa [applied,Applied.isOf] using free _ member

theorem find?_inheritable (flows : g.isInheritable (g.typeNamed? attributeUsageName) type)
    (list : List Applied) :
    (g.inheritable list).find? (·.isOf type) = list.find? (·.isOf type) := by
  rw [inheritable,List.find?_filter]
  congr 1
  funext a
  by_cases bound : a.data.type = some type
  · simp [Applied.isOf,bound,flows]
  · simp [Applied.isOf,bound]

theorem find?_flowing_eq {nearer further : List SymbolId}
    (flows : g.isInheritable (g.typeNamed? attributeUsageName) type)
    (applies : ∃ a ∈ g.attributes level, a.type = some type)
    (unseen : ∀ other ∈ nearer, ∀ b ∈ g.attributes other, b.type ≠ some type) :
    (g.flowing (nearer ++ level :: further)).find? (·.isOf type) =
      (g.applied level).find? (·.isOf type) := by
  have absent : (nearer.flatMap g.applied).find? (·.isOf type) = none := by
    rw [List.find?_eq_none]
    intro a member same
    obtain ⟨other,near,written⟩ := List.mem_flatMap.1 member
    have found := List.mem_of_getElem? (mem_applied_iff.1 written).2
    exact unseen other near a.data found (Applied.isOf_iff.1 same)
  obtain ⟨a,written,bound⟩ :=
    (exists_applied_iff (g := g) (p := fun a => a.type = some type)).2 applies
  have present : ((g.applied level).find? (·.isOf type)).isSome :=
    List.find?_isSome.2 ⟨a,written,Applied.isOf_iff.2 bound⟩
  rw [flowing,find?_inheritable flows,List.flatMap_append,List.flatMap_cons,List.find?_append,
    absent,Option.none_or,List.find?_append]
  exact Option.or_of_isSome present

end Graph

namespace Query

/-- The walk over all bases of a type gives what a recursion gives that looks at one level at a time.
Where the base of a type is a type with a base of its own, the effective attributes are those written
on the type and then those effective attributes of the base, at their places, whose class is bound,
inheritable and not applied on the type, except behind another one of the same class. Bases may form
cycles. -/
theorem effective_by_levels (g : Graph) (m : Memory) (id : SymbolId) (s : Symbol)
    (found : g.symbol? id = some s) (isType : s.kind = .namedType) :
    (effective g id m).1.items = g.composed (id :: g.bases id) ∧
    ∀ (m' : Memory) (base : SymbolId) (b : Symbol), s.baseType = some base →
      g.symbol? base = some b → b.kind = .namedType → b.baseType.isSome →
      let scan := (effective g base m').1.items
      (effective g id m).1.items = s.attributes.mapIdx (fun index a => ⟨id,index,a⟩) ++
        entriesAt (Applied.IsKept (g.MayArrive s) scan) scan := by
  have whole : (effective g id m).1.items = g.composed (id :: g.bases id) := by
    rw [effective_eq]
    exact Graph.effective_items_eq found isType
  refine ⟨whole,?_⟩
  intro m' base b link found' isType' hasBase scan
  have above : scan = g.composed (g.lineage base) := by
    rw [← Graph.composed_bases found' hasBase]
    simp only [scan,effective_eq]
    exact Graph.effective_items_eq found' isType'
  have link' : g.baseType? id = some base := by rw [Graph.baseType?,found,Option.bind_some,link]
  rw [whole,Graph.bases_eq_lineage link',above,Graph.composed,found]
  simp only [Graph.applied,Graph.attributes_eq found]

end Query

def trait (word : String) : Attribute :=
  { type := some ⟨2⟩, arguments := [.literal (.string word)] }

def traitsBase : Symbol :=
  { Symbol.ofName .namedType "Base" .cSharp with
    baseType := some ⟨5⟩
    attributes := [trait "fast",trait "slow",{ type := none },{ type := some ⟨3⟩ }] }

def traitsDerived : Symbol :=
  { Symbol.ofName .namedType "Derived" .cSharp with
    baseType := some ⟨6⟩, attributes := [{ type := some ⟨3⟩ }] }

/-- A class derived from a class that carries two traits, an attribute whose class did not bind and
one that does not flow, derived in turn from a class with a trait and a category. -/
def traitsGraph : Graph where
  assemblyName := none
  assembly := ⟨0⟩
  symbols :=
    [Symbol.ofName .namedType "Object" .cSharp,
     { Symbol.ofName .namedType "AttributeUsageAttribute" .cSharp with baseType := some ⟨0⟩ },
     { Symbol.ofName .namedType "TraitAttribute" .cSharp with baseType := some ⟨0⟩ },
     { Symbol.ofName .namedType "OwnerAttribute" .cSharp with
       baseType := some ⟨0⟩
       attributes := [{ type := some ⟨1⟩, named := [("Inherited",.literal (.bool false))] }] },
     { Symbol.ofName .namedType "CategoryAttribute" .cSharp with baseType := some ⟨0⟩ },
     { Symbol.ofName .namedType "Root" .cSharp with
       baseType := some ⟨0⟩, attributes := [trait "old",{ type := some ⟨4⟩ }] },
     traitsBase,traitsDerived]
  names := [(⟨1⟩,attributeUsageName)]

theorem traitsGraph_items : (Query.effective traitsGraph ⟨7⟩ {}).1.items =
    [⟨⟨7⟩,0,{ type := some ⟨3⟩ }⟩,⟨⟨6⟩,0,trait "fast"⟩,⟨⟨5⟩,1,{ type := some ⟨4⟩ }⟩] := by
  cbv

theorem effective_by_levels_traits :
    let scan := (Query.effective traitsGraph ⟨6⟩ {}).1.items
    (scan.map fun a => (a.owner,a.index)) = [(⟨6⟩,0),(⟨6⟩,1),(⟨6⟩,2),(⟨6⟩,3),(⟨5⟩,1)] ∧
    entriesAt (Applied.IsKept (traitsGraph.MayArrive traitsDerived) scan) scan =
      [⟨⟨6⟩,0,trait "fast"⟩,⟨⟨5⟩,1,{ type := some ⟨4⟩ }⟩] := by
  have places : ((Query.effective traitsGraph ⟨6⟩ {}).1.items.map fun a => (a.owner,a.index)) =
      [(⟨6⟩,0),(⟨6⟩,1),(⟨6⟩,2),(⟨6⟩,3),(⟨5⟩,1)] := by
    cbv
  have step := (Query.effective_by_levels traitsGraph {} ⟨7⟩ traitsDerived rfl rfl).2 {} ⟨6⟩
    traitsBase rfl rfl rfl rfl
  exact ⟨places,List.append_cancel_left (step.symm.trans traitsGraph_items)⟩

namespace Query

/-- An application of an inheritable class on a base of a type, where neither the type nor any nearer
base applies the class, is effective exactly if it is the first application of its class on that
base. Further ones on the same base are dropped. -/
theorem mem_effective_iff_first (g : Graph) (m : Memory) (id level : SymbolId) (s : Symbol)
    (nearer further : List SymbolId) (index : Nat) (data : Attribute) (type : SymbolId)
    (found : g.symbol? id = some s) (isType : s.kind = .namedType)
    (split : g.bases id = nearer ++ level :: further)
    (written : g.attribute? level index = some data) (bound : data.type = some type)
    (flows : g.isInheritable (g.typeNamed? attributeUsageName) type)
    (unseen : ∀ other ∈ id :: nearer, ∀ b ∈ g.attributes other, b.type ≠ some type) :
    ⟨level,index,data⟩ ∈ (effective g id m).1.items ↔
      ∀ b ∈ (g.attributes level).take index, b.type ≠ some type := by
  obtain ⟨unseenHere,unseenBelow⟩ := List.forall_mem_cons.1 unseen
  have inside : data ∈ g.attributes level := List.mem_of_getElem? written
  have notOwn : ⟨level,index,data⟩ ∉ g.applied id := by
    intro own
    obtain ⟨same,-⟩ := Graph.mem_applied_iff.1 own
    exact unseenHere data (same ▸ inside) bound
  have fresh : type ∉ g.appliedTypes id := by
    intro listed
    obtain ⟨b,member,same⟩ := List.mem_filterMap.1 listed
    exact unseenHere b member same
  rw [effective_eq]
  dsimp only
  rw [Graph.effective_items_eq found isType,Graph.composed_eq found (g.bases_subset id),
    List.mem_append,or_iff_right notOwn,Applied.mem_firstOfEachType_iff bound,
    and_iff_right fresh,split,Graph.find?_flowing_eq flows ⟨data,inside,bound⟩ unseenBelow,
    Graph.find?_applied_eq_iff written bound]

end Query

theorem traitsGraph_descends : Descends traitsGraph.baseType? :=
  Graph.descends_baseType (by decide)

/-- A base can apply an inheritable class more than once, and then not every application arrives,
even where no class is its own base and neither the type nor a nearer base applies the class. -/
theorem not_forall_mem_effective :
    ¬∀ (g : Graph) (m : Memory) (id level : SymbolId) (s : Symbol) (nearer further : List SymbolId)
      (index : Nat) (data : Attribute) (type : SymbolId),
      Descends g.baseType? → g.symbol? id = some s → s.kind = .namedType →
      g.bases id = nearer ++ level :: further →
      g.attribute? level index = some data → data.type = some type →
      g.isInheritable (g.typeNamed? attributeUsageName) type →
      (∀ other ∈ id :: nearer, ∀ b ∈ g.attributes other, b.type ≠ some type) →
      ⟨level,index,data⟩ ∈ (Query.effective g id m).1.items := by
  intro all
  have arrives := all traitsGraph {} ⟨7⟩ ⟨6⟩ traitsDerived [] [⟨5⟩] 1 (trait "slow") ⟨2⟩
    traitsGraph_descends rfl rfl (by cbv) rfl rfl (by cbv) (by decide)
  have place := List.mem_map_of_mem (f := fun a => (a.owner,a.index)) arrives
  rw [traitsGraph_items] at place
  exact absurd place (by decide)

theorem mem_effective_iff_first_traits :
    ⟨⟨6⟩,0,trait "fast"⟩ ∈ (Query.effective traitsGraph ⟨7⟩ {}).1.items ∧
    ⟨⟨6⟩,1,trait "slow"⟩ ∉ (Query.effective traitsGraph ⟨7⟩ {}).1.items := by
  have bases : traitsGraph.bases ⟨7⟩ = [] ++ ⟨6⟩ :: [⟨5⟩] := by cbv
  have flows : traitsGraph.isInheritable (traitsGraph.typeNamed? attributeUsageName) ⟨2⟩ := by cbv
  have unseen : ∀ other ∈ [(⟨7⟩ : SymbolId)], ∀ b ∈ traitsGraph.attributes other,
      b.type ≠ some ⟨2⟩ := by
    decide
  constructor
  · exact (Query.mem_effective_iff_first traitsGraph {} ⟨7⟩ ⟨6⟩ traitsDerived [] [⟨5⟩] 0
      (trait "fast") ⟨2⟩ rfl rfl bases rfl rfl flows unseen).2 (by decide)
  · intro arrives
    have first := (Query.mem_effective_iff_first traitsGraph {} ⟨7⟩ ⟨6⟩ traitsDerived [] [⟨5⟩] 1
      (trait "slow") ⟨2⟩ rfl rfl bases rfl rfl flows unseen).1 arrives
    exact first (trait "fast") List.mem_cons_self rfl

end TestScout
