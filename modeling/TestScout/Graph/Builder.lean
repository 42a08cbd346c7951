import TestScout.Graph.Ancestry
set_option autoImplicit false

namespace TestScout

def attributeUsageName : String :=
  "System.AttributeUsageAttribute"

/-- `language` is given to the symbols that the steps below make on their own. -/
structure Builder where
  graph : Graph
  globalNamespace : SymbolId
  objectType : SymbolId
  attributeType : SymbolId
  attributeUsageType : SymbolId
  language : Language
  deriving Repr

namespace Graph

def add (g : Graph) (s : Symbol) : SymbolId × Graph :=
  (⟨g.symbols.length⟩,{ g with symbols := g.symbols ++ [s] })

def addMember (g : Graph) (s : Symbol) : SymbolId × Graph :=
  let id : SymbolId := ⟨g.symbols.length⟩
  match s.containing with
  | none => g.add s
  | some parent =>
    (g.modify parent fun p => { p with members := p.members ++ [id] }).add s

/-- What precedes a type's own name in its full name: the full name of the containing type and `+`,
or the names of the containing namespaces, each followed by a dot. -/
def fullNamePrefix (g : Graph) (containing : SymbolId) : String :=
  match (g.symbol? containing).map Symbol.kind with
  | some .namedType =>
    match g.registeredName? containing with
    | some name => name ++ "+"
    | none => ""
  | some .namespace =>
    let around := (g.enclosingSymbols containing).takeWhile Symbol.isNamespace
    let names := (around.map Symbol.name).filter fun name => name ≠ ""
    String.join (names.reverse.map fun name => name ++ ".")
  | _ => ""

/-- Enters a type under its full name. A type that had this name is no longer found by it. -/
def register (g : Graph) (containing type : SymbolId) : Graph :=
  match g.symbol? type with
  | none => g
  | some s =>
    { g with names := (type,g.fullNamePrefix containing ++ s.metadataName) :: g.names }

def childNamespace? (g : Graph) (parent : SymbolId) (name : String) : Option SymbolId :=
  match g.symbol? parent with
  | none => none
  | some p => p.members.find? fun id => (g.symbol? id).any fun s => s.isNamespace && s.name == name

end Graph

namespace Builder

def addMember (b : Builder) (s : Symbol) : SymbolId × Builder :=
  let (id,g) := b.graph.addMember s
  (id,{ b with graph := g })

def openNamespace (b : Builder) (parent : SymbolId) (name : String) : SymbolId × Builder :=
  match b.graph.childNamespace? parent name with
  | some id => (id,b)
  | none =>
    b.addMember { Symbol.ofName .namespace name b.language with containing := some parent }

def openNamespaces (b : Builder) (parent : SymbolId) : List String → SymbolId × Builder
  | [] => (parent,b)
  | name :: rest =>
    let (id,b) := b.openNamespace parent name
    b.openNamespaces id rest

/-- The segments of a dotted path. Empty segments are left out. -/
def pathSegments (path : String) : List String :=
  ((path.toList.splitOn '.').filter fun segment => !segment.isEmpty).map String.ofList

def openPath (b : Builder) (path : String) : SymbolId × Builder :=
  b.openNamespaces b.globalNamespace (pathSegments path)

/-- Adds a type to a namespace or to another type and registers its full name. A class or struct
without a base derives from the root object type. -/
def addType (b : Builder) (containing : SymbolId) (s : Symbol) : SymbolId × Builder :=
  let base := if s.typeKind.hasImplicitBase then s.baseType.or (some b.objectType) else s.baseType
  let (id,b) := b.addMember
    { s with kind := .namedType, containing := some containing, baseType := base }
  (id,{ b with graph := b.graph.register containing id })

def addClass (b : Builder) (containing : SymbolId) (name : String) (base : Option SymbolId) :
    SymbolId × Builder :=
  b.addType containing
    { Symbol.ofName .namedType name b.language with accessibility := .publicAccess, baseType := base }

def addInterface (b : Builder) (containing : SymbolId) (name : String) : SymbolId × Builder :=
  b.addType containing
    { Symbol.ofName .namedType name b.language with
      accessibility := .publicAccess, typeKind := .interfaceType, isAbstract := true }

def apply (b : Builder) (target : SymbolId) (a : Attribute) : Builder :=
  { b with graph := b.graph.modify target fun s => { s with attributes := s.attributes ++ [a] } }

def usage (b : Builder) (inherited : Bool) : Attribute :=
  { type := some b.attributeUsageType
    arguments := [.literal (.int 32767)]
    named := [("Inherited",.literal (.bool inherited))] }

/-- A public attribute class. Without `inherited` it carries no usage of its own. -/
def addAttributeClass (b : Builder) (containing : SymbolId) (name : String)
    (base : Option SymbolId) (inherited : Option Bool) : SymbolId × Builder :=
  let (id,b) := b.addClass containing name (base.or (some b.attributeType))
  match inherited with
  | none => (id,b)
  | some inherited => (id,b.apply id (b.usage inherited))

def addMethod (b : Builder) (type : SymbolId) (s : Symbol) : SymbolId × Builder :=
  b.addMember { s with kind := .method, containing := some type }

def addPublicMethod (b : Builder) (type : SymbolId) (name : String)
    (overridden : Option SymbolId) : SymbolId × Builder :=
  b.addMethod type
    { Symbol.ofName .method name b.language with
      accessibility := .publicAccess, overriddenMethod := overridden }

/-- Adds a parameter to a method. It is listed among the parameters and is no member. -/
def addParameter (b : Builder) (method : SymbolId) (name : String)
    (type : Option SymbolId) : SymbolId × Builder :=
  let s := { Symbol.ofName .parameter name b.language with
    containing := some method, parameterType := type }
  let (id,g) := b.graph.add s
  (id,{ b with graph := g.modify method fun m => { m with parameters := m.parameters ++ [id] } })

def declare (b : Builder) (document : DocumentId) (node : NodeId) (s : SymbolId) : Builder :=
  { b with graph := { b.graph with
      declarations := ((document,node),s) :: b.graph.declarations } }

def modify (b : Builder) (id : SymbolId) (change : Symbol → Symbol) : Builder :=
  { b with graph := b.graph.modify id change }

def empty (assembly : String) : Builder :=
  let root := Symbol.ofName .assembly assembly .cSharp
  let global := { Symbol.ofName .namespace "" .cSharp with containing := some ⟨0⟩ }
  { graph :=
      { assemblyName := some assembly
        assembly := ⟨0⟩
        symbols := [{ root with members := [⟨1⟩] },global] }
    globalNamespace := ⟨1⟩
    objectType := ⟨0⟩
    attributeType := ⟨0⟩
    attributeUsageType := ⟨0⟩
    language := .cSharp }

def ofAssembly (assembly : String) : Builder :=
  let b := empty assembly
  let (system,b) := b.openPath "System"
  let object := { Symbol.ofName .namedType "Object" .cSharp with
    accessibility := .publicAccess, containing := some system }
  let (objectType,b) := b.addMember object
  let b := { b with objectType, graph := b.graph.register system objectType }
  let (attributeType,b) := b.addClass system "Attribute" none
  let b := { b.modify attributeType fun s => { s with isAbstract := true } with attributeType }
  let (attributeUsageType,b) := b.addClass system "AttributeUsageAttribute" (some attributeType)
  { b with attributeUsageType }

def finish (b : Builder) (anonymous : Bool) : Graph :=
  if anonymous then { b.graph with assemblyName := none } else b.graph

end Builder

end TestScout
