import TestScout.Project.Basic
set_option autoImplicit false

namespace TestScout

/-- A document may have outlived its project. -/
inductive Scope where
  | document (document : Document) (home : Option Project)
  | project (project : Project)
  deriving Repr

namespace Scope

def compilation? (cancelled : Bool) : Scope → Option Compilation
  | document _ home => home.bind (·.compilation? cancelled)
  | project p => p.compilation? cancelled

def trees (cancelled : Bool) : Scope → List SyntaxTree
  | document d _ => (d.tree? cancelled).toList
  | project p => p.documents.filterMap (·.tree? cancelled)

def describe : Scope → String
  | document d _ => Text.wrapped "Document" d.id.describe
  | project p => Text.wrapped "Project" p.id.describe

end Scope

end TestScout
