import TestScout.Graph.Ancestry
import TestScout.SyntaxTree
set_option autoImplicit false

namespace TestScout

/-- Counts how often a graph was asked what a node declares. The question whose number is `alarm`
cancels the pass before it is answered. -/
structure Meter where
  visits : Nat := 0
  alarm : Option Nat := none
  cancelled : Bool := false
  deriving DecidableEq, Repr

namespace Meter

def tick (m : Meter) : Meter :=
  { m with
    visits := m.visits + 1
    cancelled := m.cancelled || m.alarm == some (m.visits + 1) }

/-- Asks what a node declares. A cancelled pass gets no answer, but the question counts. -/
def declared? (m : Meter) (g : Graph) (document : DocumentId) (node : NodeId) :
    Option SymbolId × Meter :=
  (if m.tick.cancelled then none else g.declared? document node,m.tick)

end Meter

structure TypeWalk where
  meter : Meter
  found : List SymbolId := []
  deriving DecidableEq, Repr

namespace TypeWalk

def enter (w : TypeWalk) (type : SymbolId) : TypeWalk :=
  if type ∈ w.found then w else { w with found := w.found ++ [type] }

def visit (g : Graph) (admits : SymbolId → Bool) (document : DocumentId) :
    Forest → TypeWalk → TypeWalk
  | .nil, w => w
  | .cons node _ children rest, w =>
    if w.meter.cancelled then w
    else
      let (declared,meter) := w.meter.declared? g document node
      let w := { w with meter }
      match declared with
      | none => visit g admits document rest w
      | some id =>
        match g.symbol? id with
        | none => visit g admits document rest w
        | some s =>
          let w := if s.isType && admits id then w.enter id else w
          let w := if s.kind.isNamespaceOrType then visit g admits document children w else w
          visit g admits document rest w

def visitTrees (g : Graph) (admits : SymbolId → Bool) (trees : List SyntaxTree) (w : TypeWalk) :
    TypeWalk :=
  trees.foldl (fun w t => visit g admits t.document t.top w) w

end TypeWalk

def Graph.admits (g : Graph) (includePrivate : Bool) (type : SymbolId) : Bool :=
  includePrivate || g.isVisible type

end TestScout
