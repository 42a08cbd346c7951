import TestScout.Attribute.Matching
import TestScout.Project.Basic
set_option autoImplicit false

namespace TestScout

structure Context where
  compilation : Compilation
  resolved : List (String × Option SymbolId) := []
  deriving Repr

namespace Context

def graph (c : Context) : Graph :=
  c.compilation.graph

/-- The answer of a query, the context after it, and the names that the graph was asked for. -/
def run {α : Type} (c : Context) (q : Query α) : α × Context × List String :=
  let (answer,m) := q { resolved := c.resolved }
  (answer,{ c with resolved := m.resolved },m.asked)

def describe (c : Context) : String :=
  Text.record "CompilationContext"
    [("assembly_name",Text.optional (c.graph.assemblyName.map Text.quoted)),
     ("cached_types",toString c.resolved.length)] false

end Context

end TestScout
