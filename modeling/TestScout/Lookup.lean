import TestScout.Graph.Basic
set_option autoImplicit false

namespace TestScout

/-- `resolved` holds the remembered answers and `asked` the questions put to the graph. -/
structure Memory where
  resolved : List (String × Option SymbolId) := []
  asked : List String := []
  deriving DecidableEq, Repr

abbrev Query := StateM Memory

namespace Memory

def known? (m : Memory) (name : String) : Option (Option SymbolId) :=
  (m.resolved.find? fun entry => entry.1 == name).map (·.2)

end Memory

namespace Query

/-- Puts the question to the graph and remembers no answer. -/
def ask (g : Graph) (name : String) : Query (Option SymbolId) := fun m =>
  (g.typeNamed? name,{ m with asked := m.asked ++ [name] })

def resolve (g : Graph) (name : String) : Query (Option SymbolId) := fun m =>
  match m.known? name with
  | some answer => (answer,m)
  | none =>
    let (answer,m) := ask g name m
    (answer,{ m with resolved := m.resolved ++ [(name,answer)] })

end Query

end TestScout
