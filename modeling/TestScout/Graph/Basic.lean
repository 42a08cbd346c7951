import TestScout.Symbol.Basic
set_option autoImplicit false

namespace TestScout

/-- Names and declarations are kept newest first, so that a later entry hides an earlier one. -/
structure Graph where
  assemblyName : Option String
  assembly : SymbolId
  symbols : List Symbol
  names : List (SymbolId × String) := []
  declarations : List ((DocumentId × NodeId) × SymbolId) := []
  deriving Repr

namespace Graph

def symbol? (g : Graph) (id : SymbolId) : Option Symbol :=
  g.symbols[id.index]?

def ids (g : Graph) : List SymbolId :=
  (List.range g.symbols.length).map SymbolId.mk

@[simp] theorem mem_ids (g : Graph) (id : SymbolId) : id ∈ g.ids ↔ (g.symbol? id).isSome := by
  simp only [ids,List.mem_map,List.mem_range,symbol?]
  constructor
  · rintro ⟨i,hi,rfl⟩
    simpa using hi
  · intro h
    exact ⟨id.index,by simpa using h,rfl⟩

def isType (g : Graph) (id : SymbolId) : Bool :=
  (g.symbol? id).any Symbol.isType

def baseType? (g : Graph) (id : SymbolId) : Option SymbolId :=
  (g.symbol? id).bind Symbol.baseType

def containing? (g : Graph) (id : SymbolId) : Option SymbolId :=
  (g.symbol? id).bind Symbol.containing

def attributes (g : Graph) (id : SymbolId) : List Attribute :=
  ((g.symbol? id).map Symbol.attributes).getD []

def attribute? (g : Graph) (owner : SymbolId) (index : Nat) : Option Attribute :=
  (g.attributes owner)[index]?

def attributeType? (g : Graph) (owner : SymbolId) (index : Nat) : Option SymbolId :=
  (g.attribute? owner index).bind Attribute.type

def typeNamed? (g : Graph) (name : String) : Option SymbolId :=
  (g.names.find? fun entry => entry.2 == name).map (·.1)

def registeredName? (g : Graph) (id : SymbolId) : Option String :=
  (g.names.find? fun entry => entry.1 == id).map (·.2)

def declared? (g : Graph) (document : DocumentId) (node : NodeId) : Option SymbolId :=
  (g.declarations.find? fun entry => entry.1 == (document,node)).map (·.2)

def modify (g : Graph) (id : SymbolId) (change : Symbol → Symbol) : Graph :=
  { g with symbols := g.symbols.modify id.index change }

@[simp] theorem symbol?_modify (g : Graph) (id other : SymbolId) (change : Symbol → Symbol) :
    (g.modify id change).symbol? other =
      (g.symbol? other).map fun s => if id = other then change s else s := by
  have h : (id.index = other.index) = (id = other) := by
    cases id; cases other; simp
  simp only [symbol?,modify,List.getElem?_modify,h]
  rfl

end Graph

end TestScout
