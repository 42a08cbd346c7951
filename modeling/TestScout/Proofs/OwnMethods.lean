import TestScout.Proofs.BuilderRun
import TestScout.Proofs.Lineage
import TestScout.Proofs.MetadataNames
import TestScout.Proofs.Overrides
set_option autoImplicit false

namespace TestScout

namespace Graph

variable {g h k : Graph} {includePrivate : Bool} {type m id : SymbolId}

/-- A method that the type itself has among its members and that the caller wants to see. It overrides
nothing, and no member of the type overrides it. -/
structure IsOwnMethod (g : Graph) (includePrivate : Bool) (type m : SymbolId) : Prop where
  member : m ∈ g.members type
  shown : g.showsMethod includePrivate m
  original : g.overridden? m = none
  current : ∀ y ∈ g.members type, ¬g.Overrides y m

theorem methods_eq_nil (noBase : g.baseType? type = none) (includePrivate : Bool) :
    g.methods includePrivate type = [] := by
  have absent : type ∉ g.derived := by
    rw [mem_derived_iff,noBase]
    exact Bool.false_ne_true
  have alone : g.lineage type = [] := trail_of_not_mem absent
  rw [methods,methodStream,alone]
  rfl

theorem mem_methods_of_isOwnMethod (own : g.IsOwnMethod includePrivate type m)
    (hasBase : (g.baseType? type).isSome) : m ∈ g.methods includePrivate type := by
  obtain ⟨above,lineage,-⟩ := exists_lineage_eq hasBase
  let shown := (g.members type).filter (g.showsMethod includePrivate)
  have split : g.methodStream includePrivate type =
      shown ++ g.shownMethods includePrivate above := by
    rw [methodStream,lineage]
    rfl
  have first : m ∈ shown := List.mem_filter.2 ⟨own.member,own.shown⟩
  have unlinked : ∀ b, g.overridden? m ≠ some b := by simp [own.original]
  rw [methods,mem_mostDerived_iff,split]
  refine ⟨List.mem_append_left _ first,⟨List.not_mem_nil,unlinked m,fun b _ => List.not_mem_nil⟩,?_⟩
  rintro y - ⟨-,link | ⟨b,link,-⟩⟩
  · have higher : y ∉ shown := fun inside => own.current y (List.mem_filter.1 inside).1 link
    rw [List.idxOf_append_of_mem first,List.idxOf_append_of_notMem higher]
    have := List.idxOf_lt_length_of_mem first
    omega
  · exact absurd link (unlinked b)

def KeepsBases (g h : Graph) : Prop :=
  ∀ ⦃id s⦄, g.symbol? id = some s → ∃ t, h.symbol? id = some t ∧ t.baseType = s.baseType

theorem KeepsBases.refl (g : Graph) : g.KeepsBases g := fun _ s found => ⟨s,found,rfl⟩

theorem KeepsBases.trans (first : g.KeepsBases h) (second : h.KeepsBases k) : g.KeepsBases k := by
  intro id s found
  obtain ⟨t,found',same⟩ := first found
  obtain ⟨u,found'',same'⟩ := second found'
  exact ⟨u,found'',same'.trans same⟩

theorem KeepsBases.baseType? (keeps : g.KeepsBases h) {s : Symbol} (found : g.symbol? id = some s) :
    h.baseType? id = s.baseType := by
  obtain ⟨t,found',same⟩ := keeps found
  rw [Graph.baseType?,found',Option.bind_some,same]

theorem keepsBases_modify {change : Symbol → Symbol}
    (settles : ∀ p, (change p).baseType = p.baseType) : g.KeepsBases (g.modify id change) := by
  intro other s found
  rw [symbol?_modify,found]
  refine ⟨_,rfl,?_⟩
  split
  · exact settles s
  · rfl

theorem keepsBases_add (g : Graph) (s : Symbol) : g.KeepsBases (g.add s).2 := by
  intro id t found
  have apart : id ≠ ⟨g.symbols.length⟩ := by
    rintro rfl
    rw [symbol?_fresh] at found
    cases found
  exact ⟨t,by rw [symbol?_add,if_neg apart,found],rfl⟩

theorem keepsBases_addMember (g : Graph) (s : Symbol) : g.KeepsBases (g.addMember s).2 := by
  unfold addMember
  cases s.containing with
  | none => exact g.keepsBases_add s
  | some parent =>
    have listed : g.KeepsBases (g.modify parent fun p =>
        { p with members := p.members ++ [⟨g.symbols.length⟩] }) := keepsBases_modify fun _ => rfl
    exact listed.trans (keepsBases_add _ s)

theorem keepsBases_register (g : Graph) (container type : SymbolId) :
    g.KeepsBases (g.register container type) := by
  intro id s found
  exact ⟨s,by rw [symbol?_register,found],rfl⟩

end Graph

namespace Builder

theorem keepsBases_addMember (b : Builder) (s : Symbol) :
    b.graph.KeepsBases (b.addMember s).2.graph := by
  rw [addMember_eq]
  exact b.graph.keepsBases_addMember s

theorem keepsBases_openNamespace (b : Builder) (parent : SymbolId) (name : String) :
    b.graph.KeepsBases (b.openNamespace parent name).2.graph := by
  cases found : b.graph.childNamespace? parent name with
  | some id =>
    rw [openNamespace_of_some found]
    exact .refl _
  | none =>
    rw [openNamespace_of_none found]
    exact b.graph.keepsBases_addMember _

theorem keepsBases_openNamespaces (b : Builder) (parent : SymbolId) (segments : List String) :
    b.graph.KeepsBases (b.openNamespaces parent segments).2.graph := by
  induction segments generalizing b parent with
  | nil => exact .refl _
  | cons name rest ih => exact (b.keepsBases_openNamespace parent name).trans (ih ..)

theorem keepsBases_addType (b : Builder) (container : SymbolId) (s : Symbol) :
    b.graph.KeepsBases (b.addType container s).2.graph := by
  rw [addType_eq]
  exact (Graph.keepsBases_addMember ..).trans (Graph.keepsBases_register ..)

theorem keepsBases_perform (b : Builder) (call : Call) :
    b.graph.KeepsBases (b.perform call).graph := by
  cases call with
  | setLanguage language => exact .refl _
  | openNamespace parent name => exact b.keepsBases_openNamespace parent name
  | openPath path => exact b.keepsBases_openNamespaces ..
  | addType container s => exact b.keepsBases_addType container s
  | addClass container name base => exact b.keepsBases_addType container _
  | addInterface container name => exact b.keepsBases_addType container _
  | addAttributeClass container name base inherited =>
    cases inherited with
    | none => exact b.keepsBases_addType container _
    | some inherited =>
      exact (b.keepsBases_addType container _).trans (Graph.keepsBases_modify fun _ => rfl)
  | addMethod type s => exact b.keepsBases_addMember _
  | addPublicMethod type name overridden => exact b.keepsBases_addMember _
  | addParameter method name type =>
    exact (Graph.keepsBases_add ..).trans (Graph.keepsBases_modify fun _ => rfl)
  | apply target a => exact Graph.keepsBases_modify fun _ => rfl
  | declare document node s => exact fun _ s found => ⟨s,found,rfl⟩

theorem keepsBases_run (b : Builder) (calls : List Call) :
    b.graph.KeepsBases (b.run calls).graph := by
  induction calls generalizing b with
  | nil => exact .refl _
  | cons call rest ih => exact (b.keepsBases_perform call).trans (ih _)

theorem keepsBases_finish (b : Builder) (anonymous : Bool) :
    b.graph.KeepsBases (b.finish anonymous) := by
  cases anonymous <;> exact fun _ s found => ⟨s,found,rfl⟩

theorem isSome_baseType?_addType (b : Builder) (container : SymbolId) (s : Symbol)
    (calls : List Call) (anonymous : Bool) :
    ((((b.addType container s).2.run calls).finish anonymous).baseType?
        (b.addType container s).1).isSome ↔ s.typeKind.hasImplicitBase ∨ s.baseType.isSome := by
  have added : (b.addType container s).2.graph.symbol? (b.addType container s).1 =
      some (b.newType container s) := by
    rw [addType_eq,Graph.symbol?_register]
    exact Graph.symbol?_addMember_new ..
  have kept := ((b.addType container s).2.keepsBases_run calls).trans
    (((b.addType container s).2.run calls).keepsBases_finish anonymous)
  rw [kept.baseType? added,newType]
  cases s.typeKind.hasImplicitBase <;> cases s.baseType <;> simp

end Builder

/-- A type lists the methods of its own that nothing of it overrides exactly if it has a base. In a
built graph these are the classes and structs and the types that were given a base; interfaces, enums
and delegates without one list none of their methods. -/
theorem Graph.mem_methods_own_iff (g : Graph) (includePrivate : Bool) (type m : SymbolId)
    (own : g.IsOwnMethod includePrivate type m) :
    (m ∈ g.methods includePrivate type ↔ (g.baseType? type).isSome) ∧
    ∀ (b : Builder) (container : SymbolId) (s : Symbol) (calls : List Builder.Call) (anonymous : Bool),
      type = (b.addType container s).1 →
      g = ((b.addType container s).2.run calls).finish anonymous →
      (m ∈ g.methods includePrivate type ↔ s.typeKind.hasImplicitBase ∨ s.baseType.isSome) := by
  have listed : m ∈ g.methods includePrivate type ↔ (g.baseType? type).isSome := by
    refine ⟨fun member => ?_,mem_methods_of_isOwnMethod own⟩
    by_contra missing
    rw [methods_eq_nil (Option.not_isSome_iff_eq_none.1 missing)] at member
    exact List.not_mem_nil member
  refine ⟨listed,?_⟩
  rintro b container s calls anonymous rfl rfl
  rw [listed]
  exact b.isSome_baseType?_addType container s calls anonymous

def interfaceSymbol : Symbol :=
  { Symbol.ofName .namedType "I" .cSharp with
    accessibility := .publicAccess, typeKind := .interfaceType, isAbstract := true }

/-- What is called after the interface was added: it gets a public method, and a class is made that has
one too. -/
def interfaceCalls : List Builder.Call :=
  [.addPublicMethod ⟨6⟩ "M" none,.addClass ⟨1⟩ "C" none,.addPublicMethod ⟨8⟩ "M" none]

def interfaceGraph : Graph :=
  (((Builder.ofAssembly "Tests").addType ⟨1⟩ interfaceSymbol).2.run interfaceCalls).finish false

theorem interfaceGraph_own (includePrivate : Bool) :
    interfaceGraph.IsOwnMethod includePrivate ⟨6⟩ ⟨7⟩ ∧
      interfaceGraph.IsOwnMethod includePrivate ⟨8⟩ ⟨9⟩ := by
  have alone : interfaceGraph.members ⟨6⟩ = [⟨7⟩] ∧ interfaceGraph.members ⟨8⟩ = [⟨9⟩] :=
    ⟨by cbv,by cbv⟩
  have original : interfaceGraph.overridden? ⟨7⟩ = none ∧ interfaceGraph.overridden? ⟨9⟩ = none :=
    ⟨by cbv,by cbv⟩
  have shown (method : SymbolId) (plain : interfaceGraph.showsMethod false method) :
      interfaceGraph.showsMethod includePrivate method := by
    rw [Graph.showsMethod_eq,Bool.and_eq_true] at plain ⊢
    exact ⟨plain.1,Bool.or_eq_true_iff.2 (.inr plain.2)⟩
  refine ⟨⟨?_,shown _ (by cbv),original.1,?_⟩,⟨?_,shown _ (by cbv),original.2,?_⟩⟩
  all_goals simp [alone,original,Graph.Overrides]

/-- An interface does not list its methods, though it is not the root object type. -/
theorem not_forall_mem_methods_own :
    ¬∀ (g : Graph) (includePrivate : Bool) (type m : SymbolId), g.isType type →
      g.typeNamed? "System.Object" ≠ some type → g.IsOwnMethod includePrivate type m →
      m ∈ g.methods includePrivate type := by
  intro all
  have root : interfaceGraph.typeNamed? "System.Object" = some ⟨3⟩ := by cbv
  have other : interfaceGraph.typeNamed? "System.Object" ≠ some ⟨6⟩ := by
    rw [root]
    decide
  have listed := all interfaceGraph false ⟨6⟩ ⟨7⟩ (by cbv) other (interfaceGraph_own false).1
  rw [Graph.methods_eq_nil (by cbv)] at listed
  exact List.not_mem_nil listed

theorem mem_methods_own_iff_interface :
    (interfaceGraph.IsOwnMethod true ⟨6⟩ ⟨7⟩ ∧ ⟨7⟩ ∉ interfaceGraph.methods true ⟨6⟩) ∧
    interfaceGraph.IsOwnMethod false ⟨8⟩ ⟨9⟩ ∧ ⟨9⟩ ∈ interfaceGraph.methods false ⟨8⟩ := by
  obtain ⟨inInterface,-⟩ := interfaceGraph_own true
  obtain ⟨-,inClass⟩ := interfaceGraph_own false
  refine ⟨⟨inInterface,fun member => ?_⟩,inClass,?_⟩
  · obtain ⟨-,built⟩ := Graph.mem_methods_own_iff interfaceGraph true ⟨6⟩ ⟨7⟩ inInterface
    have baseless : ¬(interfaceSymbol.typeKind.hasImplicitBase ∨ interfaceSymbol.baseType.isSome) := by
      decide
    have added : (⟨6⟩ : SymbolId) = ((Builder.ofAssembly "Tests").addType ⟨1⟩ interfaceSymbol).1 := rfl
    exact baseless ((built _ _ _ interfaceCalls false added rfl).1 member)
  · obtain ⟨listed,-⟩ := Graph.mem_methods_own_iff interfaceGraph false ⟨8⟩ ⟨9⟩ inClass
    exact listed.2 (by cbv)

end TestScout
