import TestScout.Proofs.ClimbingPass
import TestScout.Proofs.EffectiveAttributes
import TestScout.Proofs.FactPass
set_option autoImplicit false

/-!
Facts on methods that are overridden. A type that lists the overriding method does not list the
overridden one, and the overriding method carries a fact if one is written on it or flows to it; so
the engine sends a finding for the overriding method, or for neither, and never for both.
-/

namespace TestScout

namespace Graph

variable {g : Graph} {type override base : SymbolId}

/-- A public method in the walk of a type that overrides a public method of a level further up. It is
the only one to do so, and nothing in the walk overrides it in turn. -/
structure OverridesAlone (g : Graph) (type override base : SymbolId) : Prop where
  link : g.Overrides override base
  upward : ∃ below level above, g.lineage type = below ++ level :: above ∧
    override ∈ g.levelMethods level ∧ base ∈ above.flatMap g.levelMethods
  isPublic : g.isPublic override ∧ g.isPublic base
  alone : ∀ m ∈ g.methodStream true type, g.Overrides m base → m = override
  last : ∀ m ∈ g.methodStream true type, ¬g.Overrides m override

theorem OverridesAlone.isMethod (h : g.OverridesAlone type override base) :
    g.isMethod override ∧ g.isMethod base := by
  obtain ⟨below,level,above,-,stands,higher⟩ := h.upward
  obtain ⟨level',-,stands'⟩ := List.mem_flatMap.1 higher
  exact ⟨(List.mem_filter.1 stands).2,(List.mem_filter.1 stands').2⟩

theorem OverridesAlone.cut (h : g.OverridesAlone type override base) :
    ∃ levels above, g.methodStream false type = g.shownMethods false levels ++ g.shownMethods false above ∧
      override ∈ g.shownMethods false levels ∧ base ∈ g.shownMethods false above := by
  obtain ⟨below,level,above,split,stands,higher⟩ := h.upward
  refine ⟨below ++ [level],above,?_,?_,?_⟩
  · unfold methodStream
    rw [split,List.append_cons,List.flatMap_append]
    rfl
  · rw [mem_shownMethods_iff,List.flatMap_append,List.flatMap_singleton,List.mem_append]
    exact ⟨.inr stands,by simpa using h.isPublic.1⟩
  · exact mem_shownMethods_iff.2 ⟨higher,by simpa using h.isPublic.2⟩

theorem OverridesAlone.mem_stream (h : g.OverridesAlone type override base) :
    override ∈ g.methodStream false type ∧ base ∈ g.methodStream false type := by
  obtain ⟨levels,above,split,first,second⟩ := h.cut
  rw [split]
  exact ⟨List.mem_append_left _ first,List.mem_append_right _ second⟩

theorem OverridesAlone.idxOf_lt (h : g.OverridesAlone type override base)
    (once : (g.methodStream true type).Nodup) :
    (g.methodStream false type).idxOf override < (g.methodStream false type).idxOf base := by
  obtain ⟨levels,above,split,first,second⟩ := h.cut
  have nodup := (g.methodStream_sublist false type).nodup once
  rw [split] at nodup ⊢
  have absent : base ∉ g.shownMethods false levels := fun other =>
    (List.nodup_append.1 nodup).2.2 base other base second rfl
  rw [List.idxOf_append_of_mem first,List.idxOf_append_of_notMem absent]
  have := List.idxOf_lt_length_of_mem first
  omega

theorem OverridesAlone.override_listed (h : g.OverridesAlone type override base)
    (once : (g.methodStream true type).Nodup) : override ∈ g.methods false type := by
  have proper : override ≠ base := by
    rintro rfl
    exact Nat.lt_irrefl _ (h.idxOf_lt once)
  have free : ∀ m ∈ g.methodStream false type, ¬Hides g.overridden? m override := by
    rintro m member ⟨differs,link | ⟨b,link,link'⟩⟩
    · exact h.last m ((g.methodStream_sublist false type).mem member) link
    · obtain rfl : base = b := Option.some.inj (h.link.symm.trans link)
      exact differs (h.alone m ((g.methodStream_sublist false type).mem member) link')
  have own : g.overridden? override ≠ some override := by
    rw [h.link]
    exact fun same => proper (Option.some.inj same).symm
  refine (mem_mostDerived_iff [] _ override).2 ⟨h.mem_stream.1,⟨?_,own,?_⟩,?_⟩
  · exact List.not_mem_nil
  · intro b _
    exact List.not_mem_nil
  · intro m member hides
    exact absurd hides (free m member)

theorem OverridesAlone.base_not_listed (h : g.OverridesAlone type override base)
    (once : (g.methodStream true type).Nodup) : base ∉ g.methods false type := by
  intro listed
  have before := h.idxOf_lt once
  have hides : Hides g.overridden? override base := by
    refine ⟨?_,.inl h.link⟩
    rintro rfl
    exact Nat.lt_irrefl _ before
  have after := ((mem_mostDerived_iff [] _ base).1 listed).2.2 override h.mem_stream.1 hides
  exact Nat.lt_asymm before after

theorem donors_of_overrides (method : g.isMethod override) (link : g.Overrides override base)
    (method' : g.isMethod base) : g.donors override = [base] := by
  have exists_ : (g.symbol? base).isSome := by
    obtain ⟨s,found,-⟩ := (Option.any_eq_true ..).1 method'
    simp [found]
  unfold isMethod at method
  unfold Overrides overridden? at link
  unfold donors
  cases found : g.symbol? override with
  | none => simp [found] at link
  | some s =>
    rw [found] at method link
    have kind : s.kind = .method := by simpa [Symbol.isMethod] using method
    have overridden : s.overriddenMethod = some base := link
    simp [kind,overridden,exists_]

end Graph

namespace Facts

variable {g : Graph} {type method override base : SymbolId}

def IsFact (g : Graph) (a : Attribute) : Prop :=
  ∃ target, g.typeNamed? factName = some target ∧
    ∃ attributeClass, a.type = some attributeClass ∧ g.isAssignable attributeClass target

def Flows (g : Graph) (a : Attribute) : Prop :=
  ∃ attributeClass, a.type = some attributeClass ∧
    g.isInheritable (g.typeNamed? attributeUsageName) attributeClass

/-- An overriding method carries the facts written on it and the inheritable ones written on the method
that it overrides. -/
theorem facts_override_iff (method : g.isMethod override) (link : g.Overrides override base)
    (method' : g.isMethod base) :
    facts g override ≠ [] ↔
      (∃ a ∈ g.attributes override, IsFact g a) ∨ ∃ a ∈ g.attributes base, IsFact g a ∧ Flows g a := by
  have classes := g.exists_items_iff (g.typeNamed? attributeUsageName) override
  simp only [Graph.donors_of_overrides method link method',List.mem_singleton,exists_eq_left] at classes
  rw [facts_ne_nil_iff]
  constructor
  · rintro ⟨target,found,a,member,attributeClass,bound,assignable⟩
    rcases (classes attributeClass).1 ⟨a,member,bound⟩ with ⟨b,written,same⟩ | ⟨flows,b,written,same⟩
    · exact .inl ⟨b,written,target,found,attributeClass,same,assignable⟩
    · exact .inr ⟨b,written,⟨target,found,attributeClass,same,assignable⟩,attributeClass,same,flows⟩
  · rintro (⟨b,written,target,found,attributeClass,same,assignable⟩ |
      ⟨b,written,⟨target,found,attributeClass,same,assignable⟩,other,same',flows⟩)
    · obtain ⟨a,member,bound⟩ := (classes attributeClass).2 (.inl ⟨b,written,same⟩)
      exact ⟨target,found,a,member,attributeClass,bound,assignable⟩
    · obtain rfl : attributeClass = other := Option.some.inj (same.symm.trans same')
      obtain ⟨a,member,bound⟩ := (classes attributeClass).2 (.inr ⟨flows,b,written,same⟩)
      exact ⟨target,found,a,member,attributeClass,bound,assignable⟩

end Facts

def Finding.isFor (type method : SymbolId) (f : Finding) : Bool :=
  decide (f.type = type ∧ f.method = method)

namespace Facts

variable {g : Graph} {type method override base : SymbolId}

theorem isFor_found? (other m : SymbolId) :
    ((found? g other m).map (Finding.isFor type method)).getD false =
      decide (m = method ∧ other = type ∧ facts g method ≠ []) := by
  unfold found? Finding.isFor
  by_cases same : m = method
  · subst same
    cases facts g m <;> simp [Finding.ofMethod]
  · cases facts g m <;> simp [same,Finding.ofMethod]

theorem countP_found? (other : SymbolId) (methods : List SymbolId) :
    (methods.filterMap (found? g other)).countP (Finding.isFor type method) =
      if other = type ∧ facts g method ≠ [] then methods.count method else 0 := by
  rw [List.countP_filterMap]
  simp only [isFor_found?]
  split
  · next looked => simp [looked,List.count_eq_countP,Bool.beq_eq_decide_eq]
  · next unlooked => simp [unlooked]

theorem countP_findings (types : List SymbolId) :
    (findings g types).countP (Finding.isFor type method) =
      if ¬g.isAbstract type ∧ facts g method ≠ [] then
        types.count type * (g.methods false type).count method
      else 0 := by
  induction types with
  | nil => simp [findings]
  | cons other rest ih =>
    rw [findings_cons,List.countP_append,ih,List.count_cons]
    by_cases same : other = type
    · subst same
      by_cases abstract_ : g.isAbstract other
      · simp [abstract_]
      · by_cases bare : facts g method = []
        · simp [abstract_,bare,countP_found?]
        · simp [abstract_,bare,countP_found?,Nat.add_mul,Nat.add_comm]
    · by_cases abstract_ : g.isAbstract other
      · simp [abstract_,same]
      · simp [abstract_,same,countP_found?]

/-- A concrete type that some trees declare, visible outside, and two methods of its walk of which the
first is the only one to override the second. -/
structure OverridesInScope (g : Graph) (trees : List SyntaxTree) (type override base : SymbolId) :
    Prop where
  declared : ∃ t ∈ trees, ∃ node, t.IsOpen g node ∧ g.declaredType? t.document node = some type
  visible : ∀ around, g.NestedIn type around → g.isPublic around
  concrete : ¬g.isAbstract type
  alone : g.OverridesAlone type override base

open Classical in
/-- Nothing is sent for the overridden method. For the other one a single finding is sent if a fact is
written on it or an inheritable one on the overridden method, and otherwise none. -/
def SendsOverride (g : Graph) (type override base : SymbolId) (sent : List Finding) : Prop :=
  sent.countP (Finding.isFor type base) = 0 ∧
  sent.countP (Finding.isFor type override) =
    if (∃ a ∈ g.attributes override, IsFact g a) ∨ ∃ a ∈ g.attributes base, IsFact g a ∧ Flows g a then 1
    else 0

theorem OverridesInScope.sends {trees : List SyntaxTree} (grown : ∀ t ∈ trees, t.Grown)
    (once : (g.methodStream true type).Nodup) (overrides : OverridesInScope g trees type override base) :
    SendsOverride g type override base (findingsIn g trees) := by
  classical
  have alone := overrides.alone
  -- However many nodes declare the type, it is looked at once.
  have looked : ((g.declaredTypes trees).eraseDups.filter g.isVisible).count type = 1 := by
    refine List.count_eq_one_of_mem ((nodup_eraseDups _).filter _) (List.mem_filter.2 ⟨?_,?_⟩)
    · rw [List.mem_eraseDups,Graph.mem_declaredTypes_iff grown]
      exact overrides.declared
    · exact (g.isVisible_iff type).2 overrides.visible
  unfold SendsOverride
  rw [findingsIn,countP_findings,countP_findings,looked,
    List.count_eq_zero_of_not_mem (alone.base_not_listed once),
    List.count_eq_one_of_mem (Graph.methods_nodup once false) (alone.override_listed once)]
  have carries := facts_override_iff alone.isMethod.1 alone.link alone.isMethod.2
  exact ⟨by simp,by simp [overrides.concrete,carries]⟩

/-- A search that nothing cancels, over a type that meets no method twice in its walk, sends for a
method that is overridden there nothing and for the overriding one at most one finding, if the search
ends. It does so if the containing links of all that it climbs from end: then no climb goes round. -/
theorem run_overridden (scope : Scope) (c : Compilation) (m : Meter) (type override base : SymbolId)
    (compiled : scope.compilation? false = some c) (grown : ∀ t ∈ scope.trees false, t.Grown)
    (quiet : m.IsQuiet) (once : (c.graph.methodStream true type).Nodup)
    (overrides : OverridesInScope c.graph (scope.trees false) type override base) :
    (∀ steps r, runWithin steps {} scope m = some r →
      SendsOverride c.graph type override base r.inbox.queue) ∧
    ((∀ id ∈ climbed c.graph (scope.trees false), c.graph.IsContained id) →
      ∃ enough, ∀ steps ≥ enough, ∃ r, runWithin steps {} scope m = some r) := by
  constructor
  · intro steps r ends
    have sent : r.inbox.queue = findingsIn c.graph (scope.trees false) := by
      rw [← runWithin_eq ends]
      exact congrArg Inbox.queue (run_of_isQuiet compiled grown quiet).1
    rw [sent]
    exact overrides.sends grown once
  · intro contained
    exact ⟨_,fun steps many => ⟨_,runWithin_of_contained compiled grown quiet contained many⟩⟩

end Facts

/-! A class whose test is overridden in a derived class, where it is a test because facts flow. In two
variants the derived class contains itself, or lists the overridden method as well. -/

def overriddenCheckGraph : Graph where
  assemblyName := some "Tests"
  assembly := ⟨0⟩
  symbols :=
    [{ Symbol.ofName .assembly "Tests" .cSharp with members := [⟨1⟩] },
     { Symbol.ofName .namespace "" .cSharp with
       containing := some ⟨0⟩, members := [⟨2⟩,⟨3⟩,⟨4⟩,⟨5⟩] },
     { Symbol.ofName .namedType "Object" .cSharp with
       accessibility := .publicAccess, containing := some ⟨1⟩ },
     { Symbol.ofName .namedType "FactAttribute" .cSharp with
       accessibility := .publicAccess, containing := some ⟨1⟩, baseType := some ⟨2⟩ },
     { Symbol.ofName .namedType "BaseTests" .cSharp with
       accessibility := .publicAccess, containing := some ⟨1⟩, baseType := some ⟨2⟩,
       members := [⟨6⟩] },
     { Symbol.ofName .namedType "DerivedTests" .cSharp with
       accessibility := .publicAccess, containing := some ⟨1⟩, baseType := some ⟨4⟩,
       members := [⟨7⟩] },
     { Symbol.ofName .method "Check" .cSharp with
       accessibility := .publicAccess, containing := some ⟨4⟩,
       attributes := [{ type := some ⟨3⟩ }] },
     { Symbol.ofName .method "Check" .cSharp with
       accessibility := .publicAccess, containing := some ⟨5⟩, overriddenMethod := some ⟨6⟩ }]
  names := [(⟨3⟩,"Xunit.FactAttribute"), (⟨4⟩,"BaseTests"), (⟨5⟩,"DerivedTests")]
  declarations := [((⟨0⟩,⟨1⟩),⟨5⟩)]

def ownContainerGraph : Graph :=
  overriddenCheckGraph.modify ⟨5⟩ fun s => { s with containing := some ⟨5⟩ }

def sharedMemberGraph : Graph :=
  overriddenCheckGraph.modify ⟨5⟩ fun s => { s with members := [⟨6⟩,⟨7⟩] }

def derivedTestsTree : SyntaxTree :=
  (({ document := ⟨0⟩, path := "DerivedTests" } : SyntaxTree).addNode SyntaxTree.root
    .typeDeclaration).2

def derivedTestsScope (g : Graph) : Scope :=
  .project
    { id := ⟨0⟩
      name := "Tests"
      compilation := some ⟨0,g⟩
      documents := [Document.ofTree derivedTestsTree] }

theorem derivedTestsScope_grown (g : Graph) : ∀ t ∈ (derivedTestsScope g).trees false, t.Grown := by
  intro t member
  obtain rfl := List.mem_singleton.1 member
  exact .addNode _ _ (.start ⟨0⟩ "DerivedTests")

theorem variants_override (g : Graph)
    (variant : g = overriddenCheckGraph ∨ g = ownContainerGraph ∨ g = sharedMemberGraph) :
    Facts.OverridesInScope g ((derivedTestsScope g).trees false) ⟨5⟩ ⟨7⟩ ⟨6⟩ := by
  have lineage : g.lineage ⟨5⟩ = [] ++ ⟨5⟩ :: [⟨4⟩] := by rcases variant with rfl | rfl | rfl <;> cbv
  have stands : ⟨7⟩ ∈ g.levelMethods ⟨5⟩ := by rcases variant with rfl | rfl | rfl <;> decide
  have higher : ⟨6⟩ ∈ [(⟨4⟩ : SymbolId)].flatMap g.levelMethods := by
    rcases variant with rfl | rfl | rfl <;> decide
  have stream : ∀ m ∈ g.methodStream true ⟨5⟩, m = ⟨6⟩ ∨ m = ⟨7⟩ := by
    unfold Graph.methodStream
    rw [lineage]
    rcases variant with rfl | rfl | rfl <;> decide
  have links : g.overridden? ⟨6⟩ = none ∧ g.overridden? ⟨7⟩ = some ⟨6⟩ := by
    rcases variant with rfl | rfl | rfl <;> exact ⟨rfl,rfl⟩
  have public_ : g.isPublic ⟨7⟩ ∧ g.isPublic ⟨6⟩ := by
    rcases variant with rfl | rfl | rfl <;> exact ⟨rfl,rfl⟩
  refine ⟨⟨derivedTestsTree,List.mem_singleton_self _,⟨1⟩,.top (by decide),?_⟩,?_,?_,
    ⟨links.2,⟨_,_,_,lineage,stands,higher⟩,public_,?_,?_⟩⟩
  · rcases variant with rfl | rfl | rfl <;> decide
  · exact (g.isVisible_iff ⟨5⟩).1 (by rcases variant with rfl | rfl | rfl <;> cbv)
  · rcases variant with rfl | rfl | rfl <;> decide
  · intro m member link
    rcases stream m member with rfl | rfl
    · cases links.1.symm.trans link
    · rfl
  · intro m member link
    rcases stream m member with rfl | rfl
    · cases links.1.symm.trans link
    · cases links.2.symm.trans link

theorem variants_contained (g : Graph) (variant : g = overriddenCheckGraph ∨ g = sharedMemberGraph)
    (id : SymbolId) : g.IsContained id := by
  refine g.isContained_of_forall_ids (n := 4) ?_ id
  rcases variant with rfl | rfl <;> decide

theorem variants_once (g : Graph) (variant : g = overriddenCheckGraph ∨ g = ownContainerGraph) :
    (g.methodStream true ⟨5⟩).Nodup := by
  have stream : g.methodStream true ⟨5⟩ = [⟨7⟩,⟨6⟩] := by rcases variant with rfl | rfl <;> cbv
  rw [stream]
  decide

theorem ownContainerGraph_endless (steps : Nat) :
    Facts.runWithin steps {} (derivedTestsScope ownContainerGraph) {} = none := by
  have round : ownContainerGraph.isVisibleWithin steps ⟨5⟩ = none :=
    congrArg (Option.map _) (Graph.climbWithin_eq_none rfl rfl rfl steps)
  have declares : ownContainerGraph.declaredType? ⟨0⟩ ⟨1⟩ = some ⟨5⟩ := by decide
  have walk : TypeWalk.visit? ownContainerGraph (ownContainerGraph.isVisibleWithin steps) ⟨0⟩
      derivedTestsTree.top { meter := {} } = none := TypeWalk.visit?_eq_none rfl declares round
  exact Facts.runWithin_eq_none rfl rfl (congrArg (Option.bind · _) walk)

/-- Without the two conditions a search may send nothing, since it never ends, or send a finding for the
overridden method too. -/
theorem not_forall_sendsOverride :
    (¬∀ (scope : Scope) (c : Compilation) (type override base : SymbolId),
      scope.compilation? false = some c → (∀ t ∈ scope.trees false, t.Grown) →
      (c.graph.methodStream true type).Nodup →
      Facts.OverridesInScope c.graph (scope.trees false) type override base →
      ∃ steps r, Facts.runWithin steps {} scope {} = some r ∧
        Facts.SendsOverride c.graph type override base r.inbox.queue) ∧
    ¬∀ (scope : Scope) (c : Compilation) (type override base : SymbolId),
      scope.compilation? false = some c → (∀ t ∈ scope.trees false, t.Grown) →
      (∀ level ∈ c.graph.lineage type, (c.graph.levelMethods level).Nodup) →
      (∀ id, c.graph.IsContained id) →
      Facts.OverridesInScope c.graph (scope.trees false) type override base →
      ∃ steps r, Facts.runWithin steps {} scope {} = some r ∧
        Facts.SendsOverride c.graph type override base r.inbox.queue := by
  constructor
  · intro all
    have overrides := variants_override ownContainerGraph (.inr (.inl rfl))
    obtain ⟨steps,r,ends,-⟩ := all (derivedTestsScope ownContainerGraph) ⟨0,ownContainerGraph⟩ ⟨5⟩ ⟨7⟩ ⟨6⟩
      rfl (derivedTestsScope_grown _) (variants_once _ (.inr rfl)) overrides
    rw [ownContainerGraph_endless] at ends
    cases ends
  · intro all
    have overrides := variants_override sharedMemberGraph (.inr (.inr rfl))
    have lineage : sharedMemberGraph.lineage ⟨5⟩ = [⟨5⟩,⟨4⟩] := by cbv
    have once : ∀ level ∈ sharedMemberGraph.lineage ⟨5⟩, (sharedMemberGraph.levelMethods level).Nodup := by
      rw [lineage]
      decide
    obtain ⟨steps,r,ends,none_,-⟩ := all (derivedTestsScope sharedMemberGraph) ⟨0,sharedMemberGraph⟩
      ⟨5⟩ ⟨7⟩ ⟨6⟩ rfl (derivedTestsScope_grown _) once (variants_contained _ (.inr rfl)) overrides
    have sent : ((Facts.run {} (derivedTestsScope sharedMemberGraph) {} {}).inbox.queue.countP
        (Finding.isFor ⟨5⟩ ⟨6⟩)) = 1 := by
      cbv
    rw [← Facts.runWithin_eq ends,sent] at none_
    cases none_

theorem run_overridden_derivedTests :
    (overriddenCheckGraph.methodStream true ⟨5⟩).Nodup ∧
    Facts.OverridesInScope overriddenCheckGraph
      ((derivedTestsScope overriddenCheckGraph).trees false) ⟨5⟩ ⟨7⟩ ⟨6⟩ ∧
    (∀ id, overriddenCheckGraph.IsContained id) ∧
    ∃ steps r, Facts.runWithin steps {} (derivedTestsScope overriddenCheckGraph) {} = some r ∧
      r.inbox.queue.countP (Finding.isFor ⟨5⟩ ⟨6⟩) = 0 ∧
      r.inbox.queue.countP (Finding.isFor ⟨5⟩ ⟨7⟩) = 1 := by
  have overrides := variants_override overriddenCheckGraph (.inl rfl)
  have once := variants_once overriddenCheckGraph (.inl rfl)
  have contained := variants_contained overriddenCheckGraph (.inl rfl)
  obtain ⟨sends,ends⟩ := Facts.run_overridden (derivedTestsScope overriddenCheckGraph)
    ⟨0,overriddenCheckGraph⟩ {} ⟨5⟩ ⟨7⟩ ⟨6⟩ rfl (derivedTestsScope_grown _) Meter.isQuiet_start once overrides
  obtain ⟨steps,enough⟩ := ends fun id _ => contained id
  obtain ⟨r,ended⟩ := enough steps (Nat.le_refl _)
  obtain ⟨overridden,found⟩ := sends steps r ended
  have fact : Facts.IsFact overriddenCheckGraph { type := some ⟨3⟩ } := ⟨⟨3⟩,by decide,⟨3⟩,rfl,by cbv⟩
  have flows : Facts.Flows overriddenCheckGraph { type := some ⟨3⟩ } := ⟨⟨3⟩,rfl,by cbv⟩
  rw [if_pos (.inr ⟨_,List.mem_singleton_self _,fact,flows⟩)] at found
  exact ⟨once,overrides,contained,steps,r,ended,overridden,found⟩

end TestScout
