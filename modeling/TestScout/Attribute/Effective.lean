import TestScout.Graph.Builder
set_option autoImplicit false

/-!
The attributes that a symbol carries: those written on it and those that flow to it. A type receives
from its bases, nearest first, and a method from the one method that it overrides. An application
flows only if its class lets it, and only the first one of each class arrives.
-/

namespace TestScout

structure Applied where
  owner : SymbolId
  index : Nat
  data : Attribute
  deriving Repr

structure EffectiveAttributes where
  own : List Applied
  inherited : List Applied
  deriving Repr

def EffectiveAttributes.items (e : EffectiveAttributes) : List Applied :=
  e.own ++ e.inherited

def EffectiveAttributes.size (e : EffectiveAttributes) : Nat :=
  e.own.length + e.inherited.length

def EffectiveAttributes.isEmpty (e : EffectiveAttributes) : Bool :=
  e.size == 0

def EffectiveAttributes.hasInherited (e : EffectiveAttributes) : Bool :=
  !e.inherited.isEmpty

/-- Keeps of each class the first application, and none of a class in `seen`. Applications whose
class did not bind are dropped. -/
def Applied.firstOfEachType (seen : List SymbolId) : List Applied → List Applied
  | [] => []
  | a :: rest =>
    match a.data.type with
    | none => firstOfEachType seen rest
    | some type =>
      if type ∈ seen then firstOfEachType seen rest
      else a :: firstOfEachType (type :: seen) rest

namespace Graph

def applied (g : Graph) (owner : SymbolId) : List Applied :=
  (g.attributes owner).mapIdx fun index a => ⟨owner,index,a⟩

/-- The existing symbols whose attributes may flow to this one, nearest first. -/
def donors (g : Graph) (id : SymbolId) : List SymbolId :=
  match g.symbol? id with
  | none => []
  | some s =>
    match s.kind with
    | .namedType => g.bases id
    | .method => s.overriddenMethod.toList.filter fun m => (g.symbol? m).isSome
    | _ => []

def usage? (g : Graph) (usageType type : SymbolId) : Option Attribute :=
  (g.lineage type).findSome? fun level =>
    (g.attributes level).find? fun a => a.type == some usageType

/-- Whether applications of an attribute class flow to derived symbols. They do unless the nearest
usage says otherwise. -/
def isInheritable (g : Graph) (usageType : Option SymbolId) (type : SymbolId) : Bool :=
  match usageType with
  | none => true
  | some usageType =>
    match (g.usage? usageType type).bind (·.named? "Inherited") with
    | some (.literal (.bool inherited)) => inherited
    | _ => true

def effectiveUnder (g : Graph) (usageType : Option SymbolId) (id : SymbolId) :
    EffectiveAttributes :=
  let flowing := ((g.donors id).flatMap g.applied).filter fun a =>
    a.data.type.any (g.isInheritable usageType)
  { own := g.applied id
    inherited :=
      Applied.firstOfEachType ((g.attributes id).filterMap Attribute.type) flowing }

def effective (g : Graph) (id : SymbolId) : EffectiveAttributes :=
  g.effectiveUnder (g.typeNamed? attributeUsageName) id

end Graph

end TestScout
