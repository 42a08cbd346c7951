import TestScout.Symbol.Constant
set_option autoImplicit false

namespace TestScout

inductive SymbolKind where
  | assembly
  | namespace
  | namedType
  | method
  | parameter
  deriving DecidableEq, Repr

namespace SymbolKind

def all : List SymbolKind :=
  [.assembly,.namespace,.namedType,.method,.parameter]

def name : SymbolKind → String
  | .assembly => "Assembly"
  | .namespace => "Namespace"
  | .namedType => "NamedType"
  | .method => "Method"
  | .parameter => "Parameter"

def isNamespaceOrType : SymbolKind → Bool
  | .namespace => true
  | .namedType => true
  | _ => false

def display : SymbolKind → String
  | .assembly => "assembly"
  | .namespace => "namespace"
  | .namedType => "type"
  | .method => "method"
  | .parameter => "parameter"

end SymbolKind

inductive TypeKind where
  | classType
  | structType
  | interfaceType
  | enumType
  | delegateType
  deriving DecidableEq, Repr

namespace TypeKind

def all : List TypeKind :=
  [.classType,.structType,.interfaceType,.enumType,.delegateType]

def name : TypeKind → String
  | .classType => "Class"
  | .structType => "Struct"
  | .interfaceType => "Interface"
  | .enumType => "Enum"
  | .delegateType => "Delegate"

def hasImplicitBase : TypeKind → Bool
  | .classType => true
  | .structType => true
  | _ => false

end TypeKind

inductive Accessibility where
  | notApplicable
  | privateAccess
  | protectedAndInternal
  | protectedAccess
  | internal
  | protectedOrInternal
  | publicAccess
  deriving DecidableEq, Repr

namespace Accessibility

def all : List Accessibility :=
  [.notApplicable,.privateAccess,.protectedAndInternal,.protectedAccess,.internal,
   .protectedOrInternal,.publicAccess]

def name : Accessibility → String
  | .notApplicable => "NotApplicable"
  | .privateAccess => "Private"
  | .protectedAndInternal => "ProtectedAndInternal"
  | .protectedAccess => "Protected"
  | .internal => "Internal"
  | .protectedOrInternal => "ProtectedOrInternal"
  | .publicAccess => "Public"

end Accessibility

/-- The source language of a symbol. Only the two named languages have conversion rules. -/
inductive Language where
  | cSharp
  | visualBasic
  | other (name : String)
  deriving DecidableEq, Repr

def Language.ofName (name : String) : Language :=
  if name = "C#" then .cSharp
  else if name = "Visual Basic" then .visualBasic
  else .other name

def Language.name : Language → String
  | .cSharp => "C#"
  | .visualBasic => "Visual Basic"
  | .other name => name

@[simp] theorem Language.name_ofName (name : String) : (Language.ofName name).name = name := by
  unfold Language.ofName
  split
  · next h => exact h.symm
  · split
    · next h => exact h.symm
    · rfl

/-- A declared element. `metadataName` differs from `name` for generic types only. -/
structure Symbol where
  kind : SymbolKind
  name : String
  metadataName : String
  language : Language
  accessibility : Accessibility := .notApplicable
  typeKind : TypeKind := .classType
  containing : Option SymbolId := none
  isAbstract : Bool := false
  isSealed : Bool := false
  isGenericMethod : Bool := false
  baseType : Option SymbolId := none
  interfaces : List SymbolId := []
  overriddenMethod : Option SymbolId := none
  members : List SymbolId := []
  parameters : List SymbolId := []
  parameterType : Option SymbolId := none
  attributes : List Attribute := []
  deriving Repr

def Symbol.ofName (kind : SymbolKind) (name : String) (language : Language) : Symbol :=
  { kind, name, metadataName := name, language }

def Symbol.isNamespace (s : Symbol) : Bool :=
  s.kind == .namespace

def Symbol.isType (s : Symbol) : Bool :=
  s.kind == .namedType

def Symbol.isMethod (s : Symbol) : Bool :=
  s.kind == .method

def Symbol.isPublic (s : Symbol) : Bool :=
  s.accessibility == .publicAccess

end TestScout
