import TestScout.Text.Blank
set_option autoImplicit false

namespace TestScout

/-- The assembly part is kept for information; no search looks at it. -/
structure AttributeTypeName where
  typeName : String
  assemblyName : Option String
  deriving DecidableEq, Repr

namespace AttributeTypeName

/-- Brackets enclose generic arguments, whose commas would make the split ambiguous. -/
def isBracket (c : Char) : Bool :=
  c == '[' || c == ']'

def nonblank? (cs : List Char) : Option String :=
  let trimmed := Text.trimChars cs
  if trimmed.isEmpty then none else some (String.ofList trimmed)

/-- Refuses a blank type name and one with brackets. -/
def parse? (text : String) : Option AttributeTypeName :=
  match text.toList.splitOn ',' with
  | [] => none
  | type :: rest =>
    if type.any isBracket then none
    else
      (nonblank? type).map fun typeName =>
        { typeName, assemblyName := rest.head?.bind nonblank? }

end AttributeTypeName

end TestScout
