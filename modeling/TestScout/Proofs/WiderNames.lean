import Mathlib
import TestScout.Proofs.AttributesByName
set_option autoImplicit false

namespace TestScout

namespace Graph

variable {g : Graph} {id type target wider : SymbolId} {name name' : String} {a : Applied}

/-- The type that is meant by the name of an attribute type. -/
def meant? (g : Graph) (name : String) : Option SymbolId :=
  (AttributeTypeName.parse? name).bind fun parsed => g.typeNamed? parsed.typeName

/-- A type that can stand where a second one is expected can stand where a wider one is. Only the
language of the first type is looked at, and it stays the same. -/
theorem isAssignable_trans (assignable : g.isAssignable type target) (up : g.widens target wider) :
    g.isAssignable type wider := by
  obtain ⟨converts,up'⟩ := isAssignable_iff.1 assignable
  exact isAssignable_iff.2 ⟨converts,widens_trans up' up⟩

theorem matching_eq (meant : g.meant? name = some target) (id : SymbolId) :
    g.matching id name =
      (g.effective id).items.filter fun a =>
        a.data.type.any fun type => g.isAssignable type target := by
  unfold matching
  rw [← meant?,meant]

theorem matching_sublist (meant : g.meant? name = some target) (meant' : g.meant? name' = some wider)
    (up : g.widens target wider) (id : SymbolId) :
    (g.matching id name).Sublist (g.matching id name') := by
  rw [matching_eq meant,matching_eq meant']
  refine List.monotone_filter_right _ fun a passes => ?_
  obtain ⟨type,bound,assignable⟩ := (Option.any_eq_true ..).1 passes
  exact (Option.any_eq_true ..).2 ⟨type,bound,isAssignable_trans assignable up⟩

theorem exists_attributeType?_of_mem_matching (meant : g.meant? name = some target)
    (member : a ∈ g.matching id name) :
    ∃ type, g.attributeType? a.owner a.index = some type ∧ g.isAssignable type target := by
  rw [matching_eq meant] at member
  obtain ⟨effective,passes⟩ := List.mem_filter.1 member
  obtain ⟨type,bound,assignable⟩ := (Option.any_eq_true ..).1 passes
  have written := attribute?_of_mem_items effective
  exact ⟨type,by rw [attributeType?,written,Option.bind_some,bound],assignable⟩

end Graph

/-- Whatever two contexts over one compilation were asked before, every attribute that one finds by
a name has a class that can stand for the type that is meant; and if this type converts to the one
meant by a second name, by the rules of either language, the other context finds by the second name
the same attributes in the same order, and perhaps others between them. -/
theorem Context.matching_widening (c : Compilation) (calls calls' : List ContextCall) (id : SymbolId)
    (name name' : String) (target wider : SymbolId) (meant : c.graph.meant? name = some target)
    (meant' : c.graph.meant? name' = some wider) :
    let g := c.graph
    let found := (((⟨c,[]⟩ : Context).serve calls).2.run (Query.matching g id name)).1
    let found' := (((⟨c,[]⟩ : Context).serve calls').2.run (Query.matching g id name')).1
    (∀ a ∈ found, ∃ type, g.attributeType? a.owner a.index = some type ∧
      g.isAssignable type target) ∧
    ((g.csharpConversion target wider).isImplicit ∨
      (g.visualBasicConversion target wider).isWidening → found.Sublist found') := by
  intro g found found'
  have answer : found = g.matching id name := run_matching_served c calls id name
  have answer' : found' = g.matching id name' := run_matching_served c calls' id name'
  rw [answer,answer']
  refine ⟨fun a => Graph.exists_attributeType?_of_mem_matching meant,fun converts => ?_⟩
  exact Graph.matching_sublist meant meant' (converts.elim (fun up => up) fun up => up) id

/-- A class with a fact on itself and a table of theories on its base. The classes of both are of
different languages; between and above them stand types of a language without conversions. -/
def mixedGraph : Graph where
  assemblyName := none
  assembly := ⟨0⟩
  symbols :=
    [Symbol.ofName .namedType "Object" .cSharp,
     Symbol.ofName .namedType "IFact" (.other "F#"),
     { Symbol.ofName .namedType "FactAttribute" .visualBasic with
       baseType := some ⟨0⟩, interfaces := [⟨1⟩] },
     { Symbol.ofName .namedType "TheoryAttribute" (.other "F#") with baseType := some ⟨2⟩ },
     { Symbol.ofName .namedType "TableAttribute" .cSharp with baseType := some ⟨3⟩ },
     { Symbol.ofName .namedType "Base" .cSharp with
       baseType := some ⟨0⟩, attributes := [{ type := some ⟨4⟩ }] },
     { Symbol.ofName .namedType "Derived" .cSharp with
       baseType := some ⟨5⟩
       attributes := [{ type := some ⟨2⟩ },{ type := none },{ type := some ⟨3⟩ }] }]
  names := [(⟨1⟩,"Xunit.IFact"),(⟨3⟩,"Xunit.TheoryAttribute")]

theorem matching_widening_mixed :
    let calls : List ContextCall := [.matching ⟨6⟩ "Xunit.IFact"]
    let fresh : Context := ⟨⟨0,mixedGraph⟩,[]⟩
    let theories := (fresh.run (Query.matching mixedGraph ⟨6⟩ "Xunit.TheoryAttribute, xunit.core")).1
    let facts := ((fresh.serve calls).2.run (Query.matching mixedGraph ⟨6⟩ " Xunit.IFact ")).1
    theories.Sublist facts ∧
    (theories.map fun a => (a.owner,a.index)) = [(⟨5⟩,0)] ∧
    (facts.map fun a => (a.owner,a.index)) = [(⟨6⟩,0),(⟨5⟩,0)] := by
  have meant : mixedGraph.meant? "Xunit.TheoryAttribute, xunit.core" = some ⟨3⟩ := by cbv
  have meant' : mixedGraph.meant? " Xunit.IFact " = some ⟨1⟩ := by cbv
  have converts : (mixedGraph.csharpConversion ⟨3⟩ ⟨1⟩).isImplicit := by cbv
  have grows := (Context.matching_widening ⟨0,mixedGraph⟩ [] [.matching ⟨6⟩ "Xunit.IFact"] ⟨6⟩ _ _
    ⟨3⟩ ⟨1⟩ meant meant').2 (.inl converts)
  exact ⟨grows,by cbv,by cbv⟩

end TestScout
