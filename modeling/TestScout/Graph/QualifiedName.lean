import TestScout.Graph.Ancestry
set_option autoImplicit false

/-!
Qualified names. A type is first laid out as display parts, from the outermost namespace inward and
with a dot between neighbours; rendering then writes a `+` for every separator that follows a type,
as in `N.Outer+Inner`. Unnamed namespaces are left out.
-/

namespace TestScout

inductive PartKind where
  | namespaceName
  | typeName
  | punctuation
  | operator
  deriving DecidableEq, Repr

namespace PartKind

def all : List PartKind :=
  [.namespaceName,.typeName,.punctuation,.operator]

def name : PartKind → String
  | .namespaceName => "NamespaceName"
  | .typeName => "TypeName"
  | .punctuation => "Punctuation"
  | .operator => "Operator"

def isSeparator : PartKind → Bool
  | .punctuation => true
  | .operator => true
  | _ => false

end PartKind

structure DisplayPart where
  kind : PartKind
  text : String
  deriving DecidableEq, Repr

namespace DisplayPart

def dot : DisplayPart :=
  ⟨.punctuation,"."⟩

def ofSymbol? (s : Symbol) : Option DisplayPart :=
  match s.kind with
  | .namedType => some ⟨.typeName,s.name⟩
  | .namespace => if s.name = "" then none else some ⟨.namespaceName,s.name⟩
  | _ => none

/-- The text of the parts when `inType` says whether a type came before them. -/
def renderFrom (inType : Bool) : List DisplayPart → String
  | [] => ""
  | part :: rest =>
    let within := inType || part.kind == .typeName
    let text := if within && part.kind.isSeparator then "+" else part.text
    text ++ renderFrom within rest

def render (parts : List DisplayPart) : String :=
  renderFrom false parts

end DisplayPart

namespace Graph

def displayParts (g : Graph) (id : SymbolId) : List DisplayPart :=
  ((g.enclosingSymbols id).filterMap DisplayPart.ofSymbol?).reverse.intersperse .dot

def qualifiedName (g : Graph) (id : SymbolId) : String :=
  DisplayPart.render (g.displayParts id)

end Graph

end TestScout
