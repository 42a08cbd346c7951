import TestScout.Attribute.Matching
import TestScout.Reflection.Argument
import TestScout.Reflection.Members
set_option autoImplicit false

namespace TestScout

/-- The attribute types to look for on types and methods, the argument names to read from each
attribute found, and the attribute types to look for on the class of each attribute. -/
structure Survey where
  attributes : List String := []
  named : List String := []
  nested : List String := []
  includePrivate : Bool := false
  deriving DecidableEq, Repr

structure ArgumentSheet where
  arguments : List Argument
  named : List (Option Argument)
  deriving Repr

structure AttributeSheet where
  own : ArgumentSheet
  nested : List (List ArgumentSheet)
  deriving Repr

structure ParameterSheet where
  name : String
  typeName : Except UnsupportedMember String

structure MethodSheet where
  name : String
  isGeneric : Bool
  parameters : List ParameterSheet
  attributes : List (List AttributeSheet)

structure TypeSheet where
  name : String
  isAbstract : Bool
  isSealed : Bool
  attributes : List (List AttributeSheet)
  methods : List MethodSheet

namespace Query

def argumentSheet (g : Graph) (survey : Survey) (owner : SymbolId) (index : Nat) :
    ArgumentSheet :=
  { arguments := g.argumentsAt owner index
    named := survey.named.map (g.namedArgumentAt? owner index) }

def attributeSheet (g : Graph) (survey : Survey) (owner : SymbolId) (index : Nat) :
    Query AttributeSheet := do
  let nested ← survey.nested.mapM (matchingOnType g owner index)
  return { own := argumentSheet g survey owner index
           nested := nested.map fun found =>
             found.map fun a => argumentSheet g survey a.owner a.index }

def sheetsOf (g : Graph) (survey : Survey) (found : List Applied) : Query (List AttributeSheet) :=
  found.mapM fun a => attributeSheet g survey a.owner a.index

def attributeSheets (g : Graph) (survey : Survey) (id : SymbolId) :
    Query (List (List AttributeSheet)) :=
  survey.attributes.mapM fun name => do
    let found ← matching g id name
    sheetsOf g survey found

def parameterSheet (g : Graph) (id : SymbolId) : ParameterSheet :=
  { name := g.parameterName id
    typeName := (g.parameterType id).map g.qualifiedName }

def methodSheet (g : Graph) (survey : Survey) (id : SymbolId) : Query MethodSheet := do
  let attributes ← attributeSheets g survey id
  return { name := g.methodName id
           isGeneric := g.isGenericMethod id
           parameters := (g.parameters id).map (parameterSheet g)
           attributes }

def typeSheet (g : Graph) (survey : Survey) (id : SymbolId) : Query TypeSheet := do
  let attributes ← attributeSheets g survey id
  let methods ← (g.methods survey.includePrivate id).mapM (methodSheet g survey)
  return { name := g.qualifiedName id
           isAbstract := g.isAbstract id
           isSealed := g.isSealed id
           attributes
           methods }

end Query

end TestScout
