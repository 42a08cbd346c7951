import TestScout.Attribute.Effective
import TestScout.Attribute.TypeName
import TestScout.Graph.Conversion
import TestScout.Lookup
set_option autoImplicit false

namespace TestScout.Query

/-- The usage class is asked for, past the memory, only if some symbol could pass attributes on. -/
def effective (g : Graph) (id : SymbolId) : Query EffectiveAttributes := do
  if (g.donors id).isEmpty then
    return g.effectiveUnder none id
  else
    let usageType ← ask g attributeUsageName
    return g.effectiveUnder usageType id

/-- A symbol without attributes is answered before the name is looked at. -/
def matching (g : Graph) (id : SymbolId) (name : String) : Query (List Applied) := do
  let e ← effective g id
  if e.items.isEmpty then
    return []
  else
    match AttributeTypeName.parse? name with
    | none => return []
    | some parsed =>
      match ← resolve g parsed.typeName with
      | none => return []
      | some target =>
        return e.items.filter fun a => a.data.type.any fun type => g.isAssignable type target

def matchingOnType (g : Graph) (owner : SymbolId) (index : Nat) (name : String) :
    Query (List Applied) :=
  match g.attributeType? owner index with
  | none => return []
  | some type => matching g type name

end TestScout.Query
