import Mathlib
import TestScout.Graph.QualifiedName
import TestScout.Proofs.ContextCalls
import TestScout.Proofs.Conversions
import TestScout.Proofs.EffectiveAttributes
import TestScout.Proofs.TypeNameParsing
set_option autoImplicit false

namespace TestScout

namespace Graph

variable {g : Graph} {type target : SymbolId}

def HasConversions (g : Graph) (id : SymbolId) : Prop :=
  ∃ s, g.symbol? id = some s ∧ (s.language = .cSharp ∨ s.language = .visualBasic)

theorem isAssignable_iff :
    g.isAssignable type target ↔ g.HasConversions type ∧ g.widens type target := by
  unfold isAssignable HasConversions
  cases g.symbol? type with
  | none => simp
  | some s =>
    cases language : s.language <;>
      simp [language,csharpConversion,visualBasicConversion]

theorem isAssignable_self (isType : g.isType type) (converts : g.HasConversions type) :
    g.isAssignable type type :=
  isAssignable_iff.2 ⟨converts,widens_self isType⟩

theorem hasConversions_of_isAssignable (assignable : g.isAssignable type target) :
    g.HasConversions type :=
  (isAssignable_iff.1 assignable).1

theorem mem_matching_qualifiedName {id : SymbolId} {a : Applied} {suffix : String}
    (member : a ∈ (g.effective id).items) (bound : a.data.type = some type)
    (isType : g.isType type) (converts : g.HasConversions type)
    (found : g.typeNamed? (g.qualifiedName type) = some type)
    (plain : AttributeTypeName.IsPlain (g.qualifiedName type))
    (behind : AttributeTypeName.IsSuffix suffix) :
    a ∈ g.matching id (g.qualifiedName type ++ suffix) := by
  obtain ⟨assemblyName,parsed⟩ := plain.parse?_append behind
  unfold matching
  rw [parsed,Option.bind_some,found]
  refine List.mem_filter.2 ⟨member,?_⟩
  rw [bound]
  exact isAssignable_self isType converts

theorem hasConversions_of_mem_matching {id : SymbolId} {name : String} {a : Applied}
    (member : a ∈ g.matching id name) : ∃ type, a.data.type = some type ∧ g.HasConversions type := by
  unfold matching at member
  split at member
  · simp at member
  · obtain ⟨type,bound,assignable⟩ := (Option.any_eq_true ..).1 (List.mem_filter.1 member).2
    exact ⟨type,bound,hasConversions_of_isAssignable assignable⟩

end Graph

namespace Context

theorem Remembers.matching {c : Context} {earlier : List ContextCall} (h : c.Remembers earlier)
    (id : SymbolId) (name : String) :
    (c.run (Query.matching c.graph id name)).1 = c.graph.matching id name :=
  (Query.answers_matching id name _ h.isTrue).1

theorem run_matching_served (c : Compilation) (calls : List ContextCall) (id : SymbolId)
    (name : String) :
    (((⟨c,[]⟩ : Context).serve calls).2.run (Query.matching c.graph id name)).1 =
      c.graph.matching id name := by
  obtain ⟨-,same,remembers⟩ := (remembers_fresh c).serve calls
  have graph : ((⟨c,[]⟩ : Context).serve calls).2.graph = c.graph := congrArg Compilation.graph same
  rw [← graph]
  exact remembers.matching id name

/-- Whatever a context was asked before, it finds an effective attribute, at the place where it is
written, by the qualified name of its class and any assembly behind it, provided that the name
leads to the class and can be written plainly. By no name it finds an attribute whose class did not bind
or is of a language without conversions. -/
theorem matching_qualifiedName (c : Compilation) (calls : List ContextCall) (id : SymbolId) :
    let g := c.graph
    let context := ((⟨c,[]⟩ : Context).serve calls).2
    (∀ a ∈ (g.effective id).items, ∀ type, a.data.type = some type → g.isType type →
      g.HasConversions type → g.typeNamed? (g.qualifiedName type) = some type →
      AttributeTypeName.IsPlain (g.qualifiedName type) →
      ∀ suffix, AttributeTypeName.IsSuffix suffix →
        a ∈ (context.run (Query.matching g id (g.qualifiedName type ++ suffix))).1 ∧
          g.attribute? a.owner a.index = some a.data) ∧
    ∀ name, ∀ a ∈ (context.run (Query.matching g id name)).1,
      ∃ type, a.data.type = some type ∧ g.HasConversions type := by
  intro g context
  obtain ⟨-,same,remembers⟩ := (remembers_fresh c).serve calls
  have graph : context.graph = g := congrArg Compilation.graph same
  have answer (name : String) :
      (context.run (Query.matching g id name)).1 = g.matching id name := by
    rw [← graph]
    exact remembers.matching id name
  refine ⟨?_,?_⟩
  · intro a member type bound isType converts found plain suffix behind
    rw [answer]
    exact ⟨Graph.mem_matching_qualifiedName member bound isType converts found plain behind,
      Graph.attribute?_of_mem_items member⟩
  · intro name a member
    rw [answer] at member
    exact Graph.hasConversions_of_mem_matching member

end Context

def markedGraph : Graph where
  assemblyName := none
  assembly := ⟨0⟩
  symbols :=
    [{ Symbol.ofName .assembly "Tests" .cSharp with members := [⟨1⟩] },
     { Symbol.ofName .namespace "" .cSharp with
       containing := some ⟨0⟩, members := [⟨2⟩,⟨3⟩,⟨5⟩,⟨6⟩] },
     { Symbol.ofName .namedType "Object" .cSharp with containing := some ⟨1⟩ },
     { Symbol.ofName .namespace "Marks" .visualBasic with
       containing := some ⟨1⟩, members := [⟨4⟩] },
     { Symbol.ofName .namedType "MarkAttribute" .visualBasic with
       containing := some ⟨3⟩, baseType := some ⟨2⟩ },
     { Symbol.ofName .namedType "Base" .cSharp with
       containing := some ⟨1⟩, baseType := some ⟨2⟩, attributes := [{ type := some ⟨4⟩ }] },
     { Symbol.ofName .namedType "Derived" .cSharp with
       containing := some ⟨1⟩, baseType := some ⟨5⟩ }]
  names := [(⟨4⟩,"Marks.MarkAttribute")]

theorem matching_qualifiedName_marked :
    let calls : List ContextCall := [.matching ⟨6⟩ "Mark",.typeNamed "Marks.MarkAttribute"]
    let context := ((⟨⟨0,markedGraph⟩,[]⟩ : Context).serve calls).2
    (⟨⟨5⟩,0,{ type := some ⟨4⟩ }⟩ : Applied) ∈
      (context.run (Query.matching markedGraph ⟨6⟩ ("Marks.MarkAttribute" ++ ", Marks"))).1 := by
  intro calls context
  have name : markedGraph.qualifiedName ⟨4⟩ = "Marks.MarkAttribute" := by cbv
  have items : (markedGraph.effective ⟨6⟩).items = [⟨⟨5⟩,0,{ type := some ⟨4⟩ }⟩] := by cbv
  have plain : AttributeTypeName.IsPlain "Marks.MarkAttribute" := by decide
  have found := (Context.matching_qualifiedName ⟨0,markedGraph⟩ calls ⟨6⟩).1
    ⟨⟨5⟩,0,{ type := some ⟨4⟩ }⟩ (items ▸ List.mem_singleton_self _) ⟨4⟩ rfl rfl ⟨_,rfl,.inr rfl⟩
    (by rw [name]; decide) (by rw [name]; exact plain) ", Marks" (.inr ⟨" Marks",by decide⟩)
  rw [name] at found
  exact found.1

end TestScout
