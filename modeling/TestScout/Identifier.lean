import TestScout.Text.Description
set_option autoImplicit false

namespace TestScout

/-- A symbol of one graph, by its position there. It need not exist in the graph. -/
structure SymbolId where
  index : Nat
  deriving DecidableEq, Repr

structure NodeId where
  index : Nat
  deriving DecidableEq, Repr

structure DocumentId where
  number : Nat
  deriving DecidableEq, Repr

structure ProjectId where
  number : Nat
  deriving DecidableEq, Repr

def SymbolId.describe (id : SymbolId) : String :=
  Text.wrapped "SymbolId" (toString id.index)

def NodeId.describe (id : NodeId) : String :=
  Text.wrapped "NodeId" (toString id.index)

def DocumentId.describe (id : DocumentId) : String :=
  Text.wrapped "DocumentId" (toString id.number)

def DocumentId.label (id : DocumentId) : String :=
  "document#" ++ toString id.number

def ProjectId.describe (id : ProjectId) : String :=
  Text.wrapped "ProjectId" (toString id.number)

def ProjectId.label (id : ProjectId) : String :=
  "project#" ++ toString id.number

end TestScout
