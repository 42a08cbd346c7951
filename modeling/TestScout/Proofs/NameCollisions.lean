import TestScout.Proofs.MetadataNames
import TestScout.Reflection.Members
set_option autoImplicit false

/-!
Which types are given the same qualified name. Types are registered under their metadata names but
rendered by their plain names. So two types of one container that differ in their metadata names only
are rendered alike, and so are their tests, while nothing else makes two types collide.
-/

namespace TestScout

namespace Graph

variable {g : Graph} {id other : SymbolId} {s t : Symbol}

def withNames (g : Graph) (names : List (SymbolId × String)) : Graph :=
  { g with names }

/-- No two types of one container have the same metadata name. -/
def MetadataNamesDiffer (g : Graph) : Prop :=
  g.symbols.Pairwise fun s t => s.kind = .namedType → t.kind = .namedType →
    s.containing = t.containing → s.metadataName ≠ t.metadataName

def TellsTypesApart (g : Graph) : Prop :=
  ∀ ⦃type other⦄, g.isType type → g.isType other → g.qualifiedName type = g.qualifiedName other →
    type = other

def TellsTestsApart (g : Graph) : Prop :=
  ∀ ⦃type other method method'⦄, g.isType type → g.isType other →
    g.methodName method = g.methodName method' → g.testName type method = g.testName other method' →
    type = other

theorem addMember_withNames (g : Graph) (names : List (SymbolId × String)) (s : Symbol) :
    ((g.withNames names).addMember s).2 = (g.addMember s).2.withNames names := by
  unfold addMember
  cases s.containing <;> rfl

theorem register_eq_withNames (g : Graph) (container type : SymbolId) :
    ∃ names, g.register container type = g.withNames names := by
  unfold register
  cases g.symbol? type with
  | none => exact ⟨g.names,rfl⟩
  | some s => exact ⟨_,rfl⟩

theorem tellsTestsApart_iff (g : Graph) : g.TellsTestsApart ↔ g.TellsTypesApart := by
  constructor
  · intro apart type other isType isType' same
    have tests : g.testName type type = g.testName other type := by rw [testName,testName,same]
    exact apart isType isType' rfl tests
  · intro apart type other method method' isType isType' methods same
    rw [testName,testName,methods] at same
    have chars := congrArg String.toList same
    simp only [String.toList_append,List.append_assoc,List.append_cancel_right_eq] at chars
    exact apart isType isType' (String.toList_inj.1 chars)

theorem Located.qualifiedName_of_siblings {path : List DisplayPart} (located : g.Located id path)
    (hs : g.symbol? id = some s) (ht : g.symbol? other = some t) (kind : s.kind = .namedType)
    (kind' : t.kind = .namedType) (containers : s.containing = t.containing)
    (names : s.name = t.name) : g.qualifiedName id = g.qualifiedName other := by
  cases located with
  | global isGlobal =>
    obtain ⟨r,-,hr,namespace_,-⟩ := isGlobal
    obtain rfl := Option.some.inj (hs.symm.trans hr)
    simp [kind] at namespace_
  | @inner _ container path r part outer hr hc named flat clean =>
    obtain rfl := Option.some.inj (hs.symm.trans hr)
    have self : g.Located id (path ++ [part]) := .inner outer hs hc named flat clean
    have named' : DisplayPart.ofSymbol? t = some part := by
      rw [← named]
      simp [DisplayPart.ofSymbol?,kind,kind',names]
    have again : g.Located other (path ++ [part]) :=
      .inner outer ht (containers.symm.trans hc) named' (by simp [kind']) (names ▸ clean)
    rw [self.qualifiedName,again.qualifiedName]

theorem Tidy.tellsTypesApart_iff {global : SymbolId} (tidy : g.Tidy global) :
    g.TellsTypesApart ↔ g.SiblingsDiffer .namedType := by
  constructor
  · intro apart id other s t hs ht kind kind' containers names
    obtain ⟨path,located⟩ := tidy.located hs (by rw [kind]; rfl)
    exact apart (isType_iff.2 ⟨s,hs,kind⟩) (isType_iff.2 ⟨t,ht,kind'⟩)
      (located.qualifiedName_of_siblings hs ht kind kind' containers names)
  · intro types type other isType isType' same
    exact Tidy.qualifiedName_inj tidy types isType isType' same

end Graph

namespace Builder

variable {b : Builder}

def withNames (b : Builder) (names : List (SymbolId × String)) : Builder :=
  { b with graph := b.graph.withNames names }

theorem addMember_withNames (b : Builder) (names : List (SymbolId × String)) (s : Symbol) :
    (b.withNames names).addMember s = ((b.addMember s).1,(b.addMember s).2.withNames names) := by
  rw [addMember_eq,addMember_eq]
  exact congrArg (fun h => (_,{ b with graph := h })) (b.graph.addMember_withNames names s)

theorem openNamespace_withNames (b : Builder) (names : List (SymbolId × String))
    (parent : SymbolId) (name : String) :
    (b.withNames names).openNamespace parent name =
      ((b.openNamespace parent name).1,(b.openNamespace parent name).2.withNames names) := by
  have same : (b.withNames names).graph.childNamespace? parent name =
      b.graph.childNamespace? parent name := rfl
  cases found : b.graph.childNamespace? parent name with
  | some id => rw [openNamespace_of_some found,openNamespace_of_some (same.trans found)]
  | none =>
    have added := b.addMember_withNames names (b.newNamespace parent name)
    rw [openNamespace_of_none found,openNamespace_of_none (same.trans found),← addMember_eq,
      ← addMember_eq]
    exact added

theorem openNamespaces_withNames (b : Builder) (names : List (SymbolId × String))
    (parent : SymbolId) (segments : List String) :
    (b.withNames names).openNamespaces parent segments =
      ((b.openNamespaces parent segments).1,(b.openNamespaces parent segments).2.withNames names) := by
  induction segments generalizing b parent with
  | nil => rfl
  | cons name rest ih => simp only [openNamespaces,openNamespace_withNames,ih]

theorem addType_eq_withNames (b : Builder) (containing : SymbolId) (s : Symbol) :
    ∃ names, b.addType containing s = ((b.addMember (b.newType containing s)).1,
      (b.addMember (b.newType containing s)).2.withNames names) := by
  obtain ⟨names,same⟩ := (b.graph.addMember (b.newType containing s)).2.register_eq_withNames
    containing ⟨b.graph.symbols.length⟩
  refine ⟨names,?_⟩
  rw [addType_eq,addMember_eq]
  exact congrArg (fun h => ((⟨b.graph.symbols.length⟩ : SymbolId),{ b with graph := h })) same

theorem addType_withNames (b : Builder) (names : List (SymbolId × String)) (containing : SymbolId)
    (s : Symbol) : ∃ others, (b.withNames names).addType containing s =
      ((b.addType containing s).1,(b.addType containing s).2.withNames others) := by
  obtain ⟨others,same⟩ := (b.withNames names).addType_eq_withNames containing s
  obtain ⟨own,same'⟩ := b.addType_eq_withNames containing s
  have added := b.addMember_withNames names (b.newType containing s)
  refine ⟨others,same.trans ?_⟩
  rw [same']
  exact congrArg (fun added => (added.1,added.2.withNames others)) added

theorem perform_withNames (b : Builder) (names : List (SymbolId × String)) (call : Call) :
    ∃ others, (b.withNames names).perform call = (b.perform call).withNames others := by
  cases call with
  | openNamespace parent name =>
    exact ⟨names,congrArg Prod.snd (b.openNamespace_withNames names parent name)⟩
  | openPath path => exact ⟨names,congrArg Prod.snd (b.openNamespaces_withNames names _ _)⟩
  | addType containing s =>
    obtain ⟨others,same⟩ := b.addType_withNames names containing s
    exact ⟨others,congrArg Prod.snd same⟩
  | addClass containing name base =>
    obtain ⟨others,same⟩ := b.addType_withNames names containing _
    exact ⟨others,congrArg Prod.snd same⟩
  | addInterface containing name =>
    obtain ⟨others,same⟩ := b.addType_withNames names containing _
    exact ⟨others,congrArg Prod.snd same⟩
  | addAttributeClass containing name base inherited =>
    obtain ⟨others,same⟩ := b.addType_withNames names containing
      { Symbol.ofName .namedType name b.language with
        accessibility := .publicAccess, baseType := base.or (some b.attributeType) }
    refine ⟨others,?_⟩
    cases inherited with
    | none => exact congrArg Prod.snd same
    | some inherited =>
      exact congrArg (fun added => added.2.apply added.1 (b.usage inherited)) same
  | addMethod type s => exact ⟨names,congrArg Prod.snd (b.addMember_withNames names _)⟩
  | addPublicMethod type name overridden =>
    exact ⟨names,congrArg Prod.snd (b.addMember_withNames names _)⟩
  | setLanguage | addParameter | apply | declare => exact ⟨names,rfl⟩

/-- Namespaces and types are put where they belong, and their names and metadata names are identifiers. -/
def PlacesCleanly (b : Builder) : Call → Prop
  | .addType containing s =>
    (b.graph.isNamespace containing ∨ b.graph.isType containing) ∧ IsIdentifier s.name ∧
      IsIdentifier s.metadataName
  | call => b.PlacesPlainly call

def IsPlaced (b : Builder) : Prop :=
  ∃ names, (b.withNames names).IsTidy

theorem IsTidy.isPlaced (tidy : b.IsTidy) : b.IsPlaced :=
  ⟨b.graph.names,tidy⟩

theorem addMember_eq_modify (b : Builder) (containing : SymbolId) (s : Symbol) :
    (b.addMember (b.newType containing s)).2 =
      (b.addMember (b.newType containing { s with metadataName := s.name })).2.modify
        ⟨b.graph.symbols.length⟩ fun t => { t with metadataName := s.metadataName } := by
  have symbols := modify_concat
    (b.graph.modify containing fun p =>
      { p with members := p.members ++ [⟨b.graph.symbols.length⟩] }).symbols
    (b.newType containing { s with metadataName := s.name })
    fun t => { t with metadataName := s.metadataName }
  rw [Graph.length_modify] at symbols
  rw [addMember_eq,addMember_eq]
  exact congrArg (fun symbols => { b with graph := { b.graph with symbols } }) symbols.symm

theorem IsPlaced.addType {containing : SymbolId} {s : Symbol} (placed : b.IsPlaced)
    (around : b.graph.isNamespace containing ∨ b.graph.isType containing)
    (clean : IsIdentifier s.name) : (b.addType containing s).2.IsPlaced := by
  obtain ⟨names,tidy⟩ := placed
  have plain : ((b.withNames names).addType containing { s with metadataName := s.name }).2.IsTidy :=
    tidy.addType around clean rfl
  obtain ⟨others,same⟩ := b.addType_withNames names containing { s with metadataName := s.name }
  obtain ⟨own,added⟩ := b.addType_eq_withNames containing { s with metadataName := s.name }
  obtain ⟨own',added'⟩ := b.addType_eq_withNames containing s
  rw [same,added] at plain
  refine ⟨others,?_⟩
  -- Its metadata name is written into it last, and nothing that is tidy depends on that.
  rw [added',addMember_eq_modify]
  exact plain.modify fun t => ⟨rfl,rfl,rfl,List.Subset.refl _⟩

theorem IsPlaced.perform {call : Call} (clean : b.PlacesCleanly call) (placed : b.IsPlaced) :
    (b.perform call).IsPlaced := by
  cases call with
  | addType containing s => exact placed.addType clean.1 clean.2.1
  | _ =>
    obtain ⟨names,tidy⟩ := placed
    obtain ⟨others,same⟩ := b.perform_withNames names _
    exact ⟨others,same ▸ tidy.perform clean⟩

/-- A graph that is built cleanly gives different types different names exactly if no two types of
one container have the same plain name, and the same holds for the names of tests. -/
theorem tellsApart_iff {assembly : String} {calls : List Call} {anonymous : Bool} {g : Graph}
    (finished : ((ofAssembly assembly).run calls).finish anonymous = g)
    (clean : RunMeets PlacesCleanly (ofAssembly assembly) calls) :
    (g.TellsTypesApart ↔ g.SiblingsDiffer .namedType) ∧
      (g.TellsTestsApart ↔ g.SiblingsDiffer .namedType) := by
  subst finished
  have built : ((ofAssembly assembly).run calls).IsPlaced :=
    run_keeps (fun _ _ clean placed => placed.perform clean) clean (isTidy_ofAssembly assembly).isPlaced
  obtain ⟨names,tidy⟩ := built
  have types : (((ofAssembly assembly).run calls).finish anonymous).TellsTypesApart ↔
      (((ofAssembly assembly).run calls).finish anonymous).SiblingsDiffer .namedType := by
    -- Neither side looks at the registered names.
    have apart := Graph.Tidy.tellsTypesApart_iff (tidy.finish anonymous)
    cases anonymous <;> exact apart
  exact ⟨types,(Graph.tellsTestsApart_iff _).trans types⟩

end Builder

def listCalls : List Builder.Call :=
  let list := { Symbol.ofName .namedType "List" .cSharp with accessibility := .publicAccess }
  [.openPath "N",.addType ⟨6⟩ list,.addType ⟨6⟩ { list with metadataName := "List\x601" }]

def listGraph : Graph :=
  ((Builder.ofAssembly "Tests").run listCalls).finish false

theorem listCalls_clean : Builder.RunMeets Builder.PlacesCleanly (.ofAssembly "Tests") listCalls := by
  have segments : Builder.pathSegments "N" = ["N"] := by decide
  refine ⟨?_,⟨.inl ?_,?_,?_⟩,⟨.inl ?_,?_,?_⟩,trivial⟩
  · intro segment member
    rw [segments,List.mem_singleton] at member
    exact member ▸ by decide
  all_goals decide

/-- That types differ in their metadata names does not keep their qualified names apart. -/
theorem not_forall_tellsTypesApart :
    ¬∀ (assembly : String) (calls : List Builder.Call) (anonymous : Bool) (g : Graph),
      ((Builder.ofAssembly assembly).run calls).finish anonymous = g →
      Builder.RunMeets Builder.PlacesCleanly (.ofAssembly assembly) calls →
      g.MetadataNamesDiffer → g.TellsTypesApart ∧ g.TellsTestsApart := by
  intro all
  have differ : listGraph.MetadataNamesDiffer := by
    unfold Graph.MetadataNamesDiffer
    decide
  have apart := (all "Tests" listCalls false listGraph rfl listCalls_clean differ).1
  have plain : listGraph.qualifiedName ⟨7⟩ = "N.List" := by cbv
  have generic : listGraph.qualifiedName ⟨8⟩ = "N.List" := by cbv
  have same := apart rfl rfl (plain.trans generic.symm)
  exact absurd same (by decide)

theorem tellsApart_iff_list :
    Builder.RunMeets Builder.PlacesCleanly (.ofAssembly "Tests") listCalls ∧
      ¬listGraph.TellsTypesApart ∧ ¬listGraph.TellsTestsApart := by
  have collide : ¬listGraph.SiblingsDiffer .namedType := by
    intro differ
    have plain : listGraph.symbol? ⟨7⟩ = some _ := rfl
    have generic : listGraph.symbol? ⟨8⟩ = some _ := rfl
    exact absurd (differ plain generic rfl rfl rfl rfl) (by decide)
  have both := Builder.tellsApart_iff (g := listGraph) rfl listCalls_clean
  exact ⟨listCalls_clean,fun apart => collide (both.1.1 apart),fun apart => collide (both.2.1 apart)⟩

end TestScout
