import TestScout.Graph.Builder
import Mathlib.Data.List.Basic
set_option autoImplicit false

namespace TestScout

namespace Builder

/-- What can be asked of a builder. A class is asked for with or without a base, a public method
with or without one that it overrides. -/
inductive Call where
  | setLanguage (language : Language)
  | openNamespace (parent : SymbolId) (name : String)
  | openPath (path : String)
  | addType (containing : SymbolId) (s : Symbol)
  | addClass (containing : SymbolId) (name : String) (base : Option SymbolId)
  | addInterface (containing : SymbolId) (name : String)
  | addAttributeClass (containing : SymbolId) (name : String) (base : Option SymbolId)
      (inherited : Option Bool)
  | addMethod (type : SymbolId) (s : Symbol)
  | addPublicMethod (type : SymbolId) (name : String) (overridden : Option SymbolId)
  | addParameter (method : SymbolId) (name : String) (type : Option SymbolId)
  | apply (target : SymbolId) (a : Attribute)
  | declare (document : DocumentId) (node : NodeId) (s : SymbolId)

def perform (b : Builder) : Call → Builder
  | .setLanguage language => { b with language }
  | .openNamespace parent name => (b.openNamespace parent name).2
  | .openPath path => (b.openPath path).2
  | .addType containing s => (b.addType containing s).2
  | .addClass containing name base => (b.addClass containing name base).2
  | .addInterface containing name => (b.addInterface containing name).2
  | .addAttributeClass containing name base inherited =>
    (b.addAttributeClass containing name base inherited).2
  | .addMethod type s => (b.addMethod type s).2
  | .addPublicMethod type name overridden => (b.addPublicMethod type name overridden).2
  | .addParameter method name type => (b.addParameter method name type).2
  | .apply target a => b.apply target a
  | .declare document node s => b.declare document node s

def run (b : Builder) : List Call → Builder
  | [] => b
  | call :: rest => (b.perform call).run rest

/-- Each call of a run meets the condition on the builder that it is made on. -/
def RunMeets (condition : Builder → Call → Prop) (b : Builder) : List Call → Prop
  | [] => True
  | call :: rest => condition b call ∧ RunMeets condition (b.perform call) rest

theorem run_keeps {condition : Builder → Call → Prop} {invariant : Builder → Prop}
    (step : ∀ b call, condition b call → invariant b → invariant (b.perform call))
    {b : Builder} {calls : List Call} (meets : RunMeets condition b calls) (start : invariant b) :
    invariant (b.run calls) := by
  induction calls generalizing b with
  | nil => exact start
  | cons call rest ih =>
    obtain ⟨now,later⟩ := meets
    exact ih later (step b call now start)

theorem runMeets_append {condition : Builder → Call → Prop} {b : Builder} {before after : List Call} :
    RunMeets condition b (before ++ after) ↔
      RunMeets condition b before ∧ RunMeets condition (b.run before) after := by
  induction before generalizing b with
  | nil => exact iff_of_eq (true_and _).symm
  | cons call rest ih => exact (and_congr_right' ih).trans and_assoc.symm

theorem modify_concat {α : Type} (l : List α) (a : α) (change : α → α) :
    (l ++ [a]).modify l.length change = l ++ [change a] := by
  rw [List.modify_eq_take_cons_drop (by simp)]
  simp

end Builder

namespace Graph

variable {g : Graph} {s : Symbol} {id : SymbolId}

@[simp] theorem symbol?_add (g : Graph) (s : Symbol) (id : SymbolId) :
    (g.add s).2.symbol? id = if id = ⟨g.symbols.length⟩ then some s else g.symbol? id := by
  unfold add symbol?
  dsimp only
  split
  · next h => simp [h]
  · next h =>
    have apart : id.index ≠ g.symbols.length := fun same => h (congrArg SymbolId.mk same)
    rcases Nat.lt_or_gt_of_ne apart with inside | beyond
    · exact List.getElem?_append_left inside
    · rw [List.getElem?_eq_none (by simp; omega),List.getElem?_eq_none (by omega)]

@[simp] theorem length_modify (g : Graph) (id : SymbolId) (change : Symbol → Symbol) :
    (g.modify id change).symbols.length = g.symbols.length := by
  simp [modify]

@[simp] theorem addMember_fst (g : Graph) (s : Symbol) : (g.addMember s).1 = ⟨g.symbols.length⟩ := by
  unfold addMember
  cases s.containing with
  | none => rfl
  | some parent => simp [add]

theorem symbol?_addMember (g : Graph) (s : Symbol) (id : SymbolId) :
    (g.addMember s).2.symbol? id =
      if id = ⟨g.symbols.length⟩ then some s
      else (g.symbol? id).map fun p =>
        if s.containing = some id then { p with members := p.members ++ [⟨g.symbols.length⟩] }
        else p := by
  unfold addMember
  cases s.containing with
  | none => simp
  | some parent => simp

@[simp] theorem names_addMember (g : Graph) (s : Symbol) : (g.addMember s).2.names = g.names := by
  unfold addMember
  cases s.containing <;> rfl

end Graph

namespace Builder

theorem addMember_eq (b : Builder) (s : Symbol) :
    b.addMember s =
      (⟨b.graph.symbols.length⟩,{ b with graph := (b.graph.addMember s).2 }) := by
  rw [← Graph.addMember_fst]
  rfl

def newNamespace (b : Builder) (parent : SymbolId) (name : String) : Symbol :=
  { Symbol.ofName .namespace name b.language with containing := some parent }

theorem openNamespace_of_some {b : Builder} {parent id : SymbolId} {name : String}
    (found : b.graph.childNamespace? parent name = some id) :
    b.openNamespace parent name = (id,b) := by
  simp [openNamespace,found]

theorem openNamespace_of_none {b : Builder} {parent : SymbolId} {name : String}
    (missing : b.graph.childNamespace? parent name = none) :
    b.openNamespace parent name =
      (⟨b.graph.symbols.length⟩,
        { b with graph := (b.graph.addMember (b.newNamespace parent name)).2 }) := by
  rw [← addMember_eq,newNamespace]
  simp [openNamespace,missing]

def newType (b : Builder) (containing : SymbolId) (s : Symbol) : Symbol :=
  { s with
    kind := .namedType
    containing := some containing
    baseType := if s.typeKind.hasImplicitBase then s.baseType.or (some b.objectType) else s.baseType }

theorem addType_eq (b : Builder) (containing : SymbolId) (s : Symbol) :
    b.addType containing s =
      (⟨b.graph.symbols.length⟩,
        { b with graph :=
            ((b.graph.addMember (b.newType containing s)).2.register containing
              ⟨b.graph.symbols.length⟩) }) := by
  have added := addMember_eq b (b.newType containing s)
  unfold newType at added ⊢
  rw [addType,added]

def rootObject (system : SymbolId) : Symbol :=
  { Symbol.ofName .namedType "Object" .cSharp with
    accessibility := .publicAccess, containing := some system }

def withObject (b : Builder) (system : SymbolId) : Builder :=
  let (objectType,b) := b.addMember (rootObject system)
  { b with objectType, graph := b.graph.register system objectType }

def withAttribute (b : Builder) (system : SymbolId) : Builder :=
  let (attributeType,b) := b.addClass system "Attribute" none
  { b.modify attributeType fun s => { s with isAbstract := true } with attributeType }

def withAttributeUsage (b : Builder) (system : SymbolId) : Builder :=
  let (attributeUsageType,b) := b.addClass system "AttributeUsageAttribute" (some b.attributeType)
  { b with attributeUsageType }

theorem ofAssembly_eq (assembly : String) :
    ofAssembly assembly =
      ((((empty assembly).openPath "System").2.withObject ((empty assembly).openPath "System").1
        ).withAttribute ((empty assembly).openPath "System").1
        ).withAttributeUsage ((empty assembly).openPath "System").1 :=
  rfl

end Builder

end TestScout
