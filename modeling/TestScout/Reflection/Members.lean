import TestScout.Graph.QualifiedName
import TestScout.Reflection.Unsupported
set_option autoImplicit false

namespace TestScout

/-- Walks over methods from the most derived level up and keeps those that no earlier one overrides.
Of several methods that override one and the same method only the first is kept. -/
def mostDerived (overrides : SymbolId → Option SymbolId) (hidden : List SymbolId) :
    List SymbolId → List SymbolId
  | [] => []
  | m :: rest =>
    match overrides m with
    | none =>
      if m ∈ hidden then mostDerived overrides hidden rest
      else m :: mostDerived overrides hidden rest
    | some overridden =>
      if overridden ∈ hidden then mostDerived overrides hidden rest
      else if m ∈ overridden :: hidden then mostDerived overrides (overridden :: hidden) rest
      else m :: mostDerived overrides (overridden :: hidden) rest

namespace Graph

def members (g : Graph) (id : SymbolId) : List SymbolId :=
  ((g.symbol? id).map Symbol.members).getD []

def overridden? (g : Graph) (id : SymbolId) : Option SymbolId :=
  (g.symbol? id).bind Symbol.overriddenMethod

def showsMethod (g : Graph) (includePrivate : Bool) (id : SymbolId) : Bool :=
  (g.symbol? id).any fun s => s.isMethod && (includePrivate || s.isPublic)

def methodStream (g : Graph) (includePrivate : Bool) (type : SymbolId) : List SymbolId :=
  (g.lineage type).flatMap fun level => (g.members level).filter (g.showsMethod includePrivate)

/-- The methods visible through a type, each chain of overrides once. -/
def methods (g : Graph) (includePrivate : Bool) (type : SymbolId) : List SymbolId :=
  mostDerived g.overridden? [] (g.methodStream includePrivate type)

def isAbstract (g : Graph) (id : SymbolId) : Bool :=
  (g.symbol? id).any Symbol.isAbstract

def isSealed (g : Graph) (id : SymbolId) : Bool :=
  (g.symbol? id).any Symbol.isSealed

def isGenericMethod (g : Graph) (id : SymbolId) : Bool :=
  (g.symbol? id).any Symbol.isGenericMethod

def parameters (g : Graph) (id : SymbolId) : List SymbolId :=
  ((g.symbol? id).map Symbol.parameters).getD []

def methodName (g : Graph) (id : SymbolId) : String :=
  ((g.symbol? id).map Symbol.metadataName).getD ""

def parameterName (g : Graph) (id : SymbolId) : String :=
  ((g.symbol? id).map Symbol.name).getD ""

/-- Only named types can be answered; arrays, type parameters and unbound types cannot. -/
def parameterType (g : Graph) (id : SymbolId) : Except UnsupportedMember SymbolId :=
  match ((g.symbol? id).bind Symbol.parameterType).filter g.isType with
  | some type => .ok type
  | none => .error .parameterType

def testName (g : Graph) (type method : SymbolId) : String :=
  g.qualifiedName type ++ "." ++ g.methodName method

def describeType (g : Graph) (id : SymbolId) : String :=
  Text.record "SourceTypeInfo"
    [("symbol",id.describe), ("name",Text.quoted (g.qualifiedName id))] false

def describeMethod (g : Graph) (id : SymbolId) : String :=
  Text.record "SourceMethodInfo"
    [("symbol",id.describe), ("name",Text.quoted (g.methodName id))] false

end Graph

def describeAttribute (owner : SymbolId) (index : Nat) : String :=
  Text.record "SourceAttributeInfo"
    [("owner",owner.describe), ("index",toString index)] false

end TestScout
