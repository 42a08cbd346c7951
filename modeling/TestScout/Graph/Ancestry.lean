import TestScout.Graph.Basic
import TestScout.Graph.Walk
set_option autoImplicit false

/-!
Upward views of a symbol: the chain of base types and the chain of containing symbols. Both lists stop
at the first repetition. For the base types this is how the walk goes in a cyclic hierarchy; it leaves
out the root object type, the one class without a base. A climb along the containing symbols has no
such guard, and only where it ends is the list what it passes.
-/

namespace TestScout.Graph

def derived (g : Graph) : List SymbolId :=
  g.ids.filter fun id => (g.baseType? id).isSome

/-- The type itself and its bases, nearest first, as far as each has a base of its own. -/
def lineage (g : Graph) (type : SymbolId) : List SymbolId :=
  trail g.baseType? g.derived (some type)

def bases (g : Graph) (type : SymbolId) : List SymbolId :=
  trail g.baseType? g.derived (g.baseType? type)

/-- The symbol itself and the symbols around it, innermost first, up to the first that comes again. A climb
that passes every symbol gives this list if it ends. -/
def enclosing (g : Graph) (id : SymbolId) : List SymbolId :=
  trail g.containing? g.ids (some id)

def enclosingSymbols (g : Graph) (id : SymbolId) : List Symbol :=
  (g.enclosing id).filterMap g.symbol?

/-- A type is visible outside when it and every type around it, up to the first symbol that is no
type, is public. -/
def isVisible (g : Graph) (type : SymbolId) : Bool :=
  ((g.enclosingSymbols type).takeWhile Symbol.isType).all Symbol.isPublic

end TestScout.Graph
