import TestScout.Identifier
set_option autoImplicit false

/-!
The declaration skeleton of a document. Tokens are of no interest here; a tree only says which nodes
there are and how they nest, so that it can be asked which symbol each node declares.
-/

namespace TestScout

inductive NodeKind where
  | compilationUnit
  | namespaceDeclaration
  | typeDeclaration
  | memberDeclaration
  | other
  deriving DecidableEq, Repr

namespace NodeKind

def all : List NodeKind :=
  [.compilationUnit,.namespaceDeclaration,.typeDeclaration,.memberDeclaration,.other]

def name : NodeKind → String
  | .compilationUnit => "CompilationUnit"
  | .namespaceDeclaration => "NamespaceDeclaration"
  | .typeDeclaration => "TypeDeclaration"
  | .memberDeclaration => "MemberDeclaration"
  | .other => "Other"

end NodeKind

inductive Forest where
  | nil
  | cons (id : NodeId) (kind : NodeKind) (children rest : Forest)
  deriving DecidableEq, Repr

namespace Forest

def heads : Forest → List NodeId
  | nil => []
  | cons id _ _ rest => id :: rest.heads

/-- All ids, each node before its children and these before its right neighbours. -/
def ids : Forest → List NodeId
  | nil => []
  | cons id _ children rest => id :: (children.ids ++ rest.ids)

def snoc (id : NodeId) (kind : NodeKind) : Forest → Forest
  | nil => cons id kind nil nil
  | cons i k children rest => cons i k children (rest.snoc id kind)

def graft (parent id : NodeId) (kind : NodeKind) : Forest → Forest
  | nil => nil
  | cons i k children rest =>
    if i = parent then cons i k (children.snoc id kind) rest
    else cons i k (children.graft parent id kind) (rest.graft parent id kind)

def find? (id : NodeId) : Forest → Option (NodeKind × Forest)
  | nil => none
  | cons i k children rest =>
    if i = id then some (k,children) else (children.find? id).or (rest.find? id)

@[simp] theorem ids_snoc (id : NodeId) (kind : NodeKind) (f : Forest) :
    (f.snoc id kind).ids = f.ids ++ [id] := by
  induction f with
  | nil => rfl
  | cons i k children rest _ ih => simp [snoc,ids,ih]

end Forest

/-- The root is node 0, a compilation unit; `top` holds its children. `size` counts all nodes. -/
structure SyntaxTree where
  document : DocumentId
  path : String
  size : Nat := 1
  top : Forest := .nil
  deriving DecidableEq, Repr

namespace SyntaxTree

def root : NodeId :=
  ⟨0⟩

/-- Adds a node under a node of the tree. Refuses a parent that the tree does not have. -/
def addNode (t : SyntaxTree) (parent : NodeId) (kind : NodeKind) : Option NodeId × SyntaxTree :=
  if parent.index < t.size then
    let id : NodeId := ⟨t.size⟩
    let top := if parent = root then t.top.snoc id kind else t.top.graft parent id kind
    (some id,{ t with size := t.size + 1, top })
  else (none,t)

def node? (t : SyntaxTree) (id : NodeId) : Option (NodeKind × Forest) :=
  if id = root then some (.compilationUnit,t.top) else t.top.find? id

def kind? (t : SyntaxTree) (id : NodeId) : Option NodeKind :=
  (t.node? id).map (·.1)

def children (t : SyntaxTree) (id : NodeId) : List NodeId :=
  match t.node? id with
  | none => []
  | some (_,children) => children.heads

end SyntaxTree

end TestScout
