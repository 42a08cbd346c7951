import TestScout.Proofs.TreeShape
import Mathlib.Logic.Relation
set_option autoImplicit false

namespace TestScout

namespace Forest

variable {f : Forest} {parent id p : NodeId} {kind : NodeKind}

end Forest

namespace SyntaxTree

variable {t : SyntaxTree} {p n parent : NodeId} {kind : NodeKind}

def nodes (t : SyntaxTree) : List NodeId :=
  (List.range t.size).map NodeId.mk

theorem mem_nodes_iff : n ∈ t.nodes ↔ n.index < t.size := by
  cases n
  simp [nodes]

theorem WellFormed.mem_ids_iff (h : t.WellFormed) : n ∈ t.top.ids ↔ n ∈ t.nodes ∧ n ≠ root := by
  cases n with
  | mk index => simp [h.mem_ids,mem_nodes_iff,root,and_comm,Nat.pos_iff_ne_zero]

def grow (t : SyntaxTree) (calls : List (NodeId × NodeKind)) : SyntaxTree :=
  calls.foldl (fun t call => (t.addNode call.1 call.2).2) t

end SyntaxTree

end TestScout
