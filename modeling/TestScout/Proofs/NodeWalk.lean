import TestScout.Assembly.TypeWalk
import TestScout.Proofs.TreeGrowth
set_option autoImplicit false

/-!
The walk over declaration nodes, from node to node by the lists of children. It keeps no record of the
nodes that it has seen, and it may be told anything on its way. That it ends, and asks about no node
twice, is due to the tree alone.
-/

namespace TestScout

/-- All that a walk asks or tells on its way: whether it was cancelled, what a node declares, of which
kind a symbol is, and that a symbol may be listed. Each question is answered, but the answers may depend
on all that happened before, and nothing else is assumed of them. -/
structure Surroundings (σ : Type) where
  isCancelled : σ → Bool × σ
  declared? : NodeId → σ → Option SymbolId × σ
  kind? : SymbolId → σ → Option SymbolKind × σ
  enlist : SymbolId → SymbolKind → σ → σ

namespace Surroundings

variable {σ : Type}

def ask (h : Surroundings σ) (node : NodeId) (s : σ) : Bool × σ :=
  let (declared,s) := h.declared? node s
  match declared with
  | none => (false,s)
  | some id =>
    let (kind,s) := h.kind? id s
    match kind with
    | none => (false,s)
    | some kind => (kind.isNamespaceOrType,h.enlist id kind s)

def meet (h : Surroundings σ) (node : NodeId) (s : σ) : Option Bool × σ :=
  let (cancelled,s) := h.isCancelled s
  if cancelled then (none,s)
  else
    let (below,s) := h.ask node s
    (some below,s)

end Surroundings

/-- The walk over some nodes comes to its end. The nodes between the two states are those that it asked
about, in order. -/
inductive SyntaxTree.Follows {σ : Type} (t : SyntaxTree) (h : Surroundings σ) :
    List NodeId → σ → List NodeId → σ → Prop where
  | done (s : σ) : Follows t h [] s [] s
  | stopped {node : NodeId} {rest : List NodeId} {s s' : σ} :
      h.meet node s = (none,s') → Follows t h (node :: rest) s [] s'
  | passed {node : NodeId} {rest asked : List NodeId} {s s₁ s' : σ} :
      h.meet node s = (some false,s₁) → Follows t h rest s₁ asked s' →
      Follows t h (node :: rest) s (node :: asked) s'
  | entered {node : NodeId} {rest inner asked : List NodeId} {s s₁ s₂ s' : σ} :
      h.meet node s = (some true,s₁) → Follows t h (t.children node) s₁ inner s₂ →
      Follows t h rest s₂ asked s' → Follows t h (node :: rest) s (node :: (inner ++ asked)) s'

namespace SyntaxTree

variable {σ : Type} {t : SyntaxTree} {h : Surroundings σ} {nodes asked asked' : List NodeId}
  {s s' s'' : σ}

theorem Follows.unique (first : Follows t h nodes s asked s') (second : Follows t h nodes s asked' s'') :
    asked = asked' ∧ s' = s'' := by
  induction first generalizing asked' s'' with
  | done s => cases second; exact ⟨rfl,rfl⟩
  | stopped met =>
    cases second with
    | stopped met' => cases met.symm.trans met'; exact ⟨rfl,rfl⟩
    | passed met' => cases met.symm.trans met'
    | entered met' => cases met.symm.trans met'
  | passed met _ ih =>
    cases second with
    | stopped met' => cases met.symm.trans met'
    | passed met' later =>
      cases met.symm.trans met'
      obtain ⟨rfl,rfl⟩ := ih later
      exact ⟨rfl,rfl⟩
    | entered met' => cases met.symm.trans met'
  | entered met _ _ ihi ihr =>
    cases second with
    | stopped met' => cases met.symm.trans met'
    | passed met' => cases met.symm.trans met'
    | entered met' inner later =>
      cases met.symm.trans met'
      obtain ⟨rfl,rfl⟩ := ihi inner
      obtain ⟨rfl,rfl⟩ := ihr later
      exact ⟨rfl,rfl⟩

end SyntaxTree

namespace Forest

variable {σ : Type} {t : SyntaxTree} {f : Forest}

end Forest

namespace TypeWalk

variable {g : Graph} {admits : SymbolId → Bool} {t : SyntaxTree} {nodes asked : List NodeId}
  {w w' : TypeWalk}

end TypeWalk

namespace SyntaxTree

end SyntaxTree

end TestScout
