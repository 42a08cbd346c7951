import TestScout.Assembly.Context
import TestScout.Assembly.TypeWalk
import TestScout.Project.Scope
set_option autoImplicit false

namespace TestScout

/-- `frozen` is empty before the first question; then it holds the context, if there is one. -/
structure Assembly where
  frozen : Option (Option Context) := none
  publicTypes : Option (List SymbolId) := none
  deriving Repr

namespace Assembly

def acquire (a : Assembly) (scope : Scope) (cancelled : Bool) : Assembly :=
  match a.frozen with
  | some _ => a
  | none => { a with frozen := some ((scope.compilation? cancelled).map fun c => ⟨c,[]⟩) }

def context? (a : Assembly) : Option Context :=
  a.frozen.join

def name? (a : Assembly) : Option String :=
  a.context?.bind fun c => c.graph.assemblyName

/-- Walks over the trees that the scope has now, against the compilation taken before. -/
def collect (a : Assembly) (scope : Scope) (includePrivate : Bool) (m : Meter) :
    List SymbolId × Meter :=
  match a.context? with
  | none => ([],m)
  | some c =>
    let w := TypeWalk.visitTrees c.graph (c.graph.admits includePrivate) (scope.trees m.cancelled)
      { meter := m }
    (w.found,w.meter)

def types (a : Assembly) (scope : Scope) (includePrivate : Bool) (m : Meter) :
    List SymbolId × Assembly × Meter :=
  let a := a.acquire scope m.cancelled
  if includePrivate then
    let (types,m) := a.collect scope true m
    (types,a,m)
  else
    match a.publicTypes with
    | some types => (types,a,m)
    | none =>
      let (types,m) := a.collect scope false m
      (types,if m.cancelled then a else { a with publicTypes := some types },m)

def query {α : Type} (a : Assembly) (q : Graph → Query α) (otherwise : α) :
    α × Assembly × List String :=
  match a.context? with
  | none => (otherwise,a,[])
  | some c =>
    let (answer,c,asked) := c.run (q c.graph)
    (answer,{ a with frozen := some (some c) },asked)

def attributesNamed (a : Assembly) (name : String) : List Applied × Assembly × List String :=
  a.query (fun g => Query.matching g g.assembly name) []

def describe (scope : Scope) (cancelled : Bool) : String :=
  Text.record "SourceAssemblyInfo"
    [("scope",scope.describe), ("cancelled",toString cancelled)] true

end Assembly

end TestScout
