import TestScout.Graph.Basic
import TestScout.Graph.Walk
set_option autoImplicit false

/-!
Conversions between named types. Both languages share one rule here: a type converts to itself, to
each of its bases and to each interface that any of them implements, and the opposite direction
exists as an explicit conversion.
-/

namespace TestScout

structure CSharpConversion where
  possible : Bool
  isIdentity : Bool
  isImplicit : Bool
  deriving DecidableEq, Repr

structure VisualBasicConversion where
  possible : Bool
  isIdentity : Bool
  isWidening : Bool
  isNarrowing : Bool
  deriving DecidableEq, Repr

namespace Graph

def supertypes (g : Graph) (id : SymbolId) : List SymbolId :=
  match g.symbol? id with
  | none => []
  | some s => s.baseType.toList ++ s.interfaces

def above (g : Graph) (id : SymbolId) : List SymbolId :=
  spread g.supertypes g.ids [id]

def widens (g : Graph) (source target : SymbolId) : Bool :=
  g.isType source && g.isType target && (g.above source).contains target

def csharpConversion (g : Graph) (source target : SymbolId) : CSharpConversion :=
  { possible := g.widens source target || g.widens target source
    isIdentity := g.widens source target && source == target
    isImplicit := g.widens source target }

def visualBasicConversion (g : Graph) (source target : SymbolId) : VisualBasicConversion :=
  { possible := g.widens source target || g.widens target source
    isIdentity := g.widens source target && source == target
    isWidening := g.widens source target
    isNarrowing := !g.widens source target && g.widens target source }

/-- Whether a value of the first type can stand where the second is expected, by the rules of the
language that the first was declared in. -/
def isAssignable (g : Graph) (source target : SymbolId) : Bool :=
  match (g.symbol? source).map Symbol.language with
  | some .cSharp => (g.csharpConversion source target).isImplicit
  | some .visualBasic => (g.visualBasicConversion source target).isWidening
  | _ => false

end Graph

end TestScout
