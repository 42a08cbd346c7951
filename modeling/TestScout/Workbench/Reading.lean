import TestScout.Workbench.Basic
import TestScout.Reflection.Survey
set_option autoImplicit false

namespace TestScout.Bench

def newAssembly (scope : ScopeKey) (token : TokenKey) : Bench AssemblyKey := do
  let w ← get
  let entry : AssemblyEntry := { scope, token }
  set { w with assemblies := w.assemblies ++ [entry] }
  return ⟨w.assemblies.length⟩

def assembly? (a : AssemblyKey) : Bench (Option AssemblyEntry) := do
  let w ← get
  return w.assemblies[a.index]?

def setAssembly (a : AssemblyKey) (assembly : Assembly) : Bench Unit :=
  modify fun w => { w with
    assemblies := w.assemblies.modify a.index fun e => { e with assembly } }

def closeAssembly (a : AssemblyKey) : Bench Unit :=
  modify fun w => { w with
    assemblies := w.assemblies.modify a.index fun e => { e with isOpen := false } }

def acquire? (a : AssemblyKey) : Bench (Option (Assembly × Scope × TokenKey)) := do
  match ← assembly? a with
  | none => return none
  | some e =>
    match ← scope? e.scope with
    | none => return none
    | some scope =>
      let cancelled ← isCancelled e.token
      let assembly := e.assembly.acquire scope cancelled
      setAssembly a assembly
      return some (assembly,scope,e.token)

/-- Runs a walk over an assembly that has taken its compilation. -/
def walk? {α : Type} (a : AssemblyKey) (walk : Assembly → Scope → Meter → α × Meter) :
    Bench (Option α) := do
  match ← acquire? a with
  | none => return none
  | some (assembly,scope,token) =>
    match assembly.context? with
    | none =>
      let cancelled ← isCancelled token
      return some (walk assembly scope { cancelled }).1
    | some c => return some (← metered c.compilation.serial token (walk assembly scope))

def types (a : AssemblyKey) (includePrivate : Bool) : Bench (List SymbolId) := do
  let walked ← walk? a fun assembly scope m =>
    let (types,assembly,m) := assembly.types scope includePrivate m
    ((types,assembly),m)
  match walked with
  | none => return []
  | some (types,assembly) =>
    setAssembly a assembly
    return types

def queryAssembly {α : Type} (a : AssemblyKey) (q : Graph → Query α) (otherwise : α) :
    Bench α := do
  match ← acquire? a with
  | none => return otherwise
  | some (assembly,_,_) =>
    let (answer,after,asked) := assembly.query q otherwise
    setAssembly a after
    match assembly.context? with
    | none => return answer
    | some c =>
      note c.compilation.serial asked
      return answer

def graphOf? (a : AssemblyKey) : Bench (Option Graph) := do
  match ← acquire? a with
  | none => return none
  | some (assembly,_,_) => return assembly.context?.map Context.graph

def assemblyName? (a : AssemblyKey) : Bench (Option String) := do
  let g ← graphOf? a
  return g.bind Graph.assemblyName

def typeNames (a : AssemblyKey) (includePrivate : Bool) : Bench (List String) := do
  let found ← types a includePrivate
  match ← graphOf? a with
  | none => return []
  | some g => return found.map g.qualifiedName

def surveyTypes (a : AssemblyKey) (survey : Survey) : Bench (List TypeSheet) := do
  let found ← types a survey.includePrivate
  queryAssembly a (fun g => found.mapM (Query.typeSheet g survey)) []

def surveyAttributes (a : AssemblyKey) (name : String) (survey : Survey) :
    Bench (List AttributeSheet) :=
  queryAssembly a
    (fun g => do Query.sheetsOf g survey (← Query.matching g g.assembly name)) []

def newContext? (serial : Nat) : Bench (Option ContextKey) := do
  match ← journal? serial with
  | none => return none
  | some j =>
    let w ← get
    let context : Context := { compilation := j.compilation }
    set { w with contexts := w.contexts ++ [context] }
    return some (.detached w.contexts.length)

def contextOf? (a : AssemblyKey) : Bench (Option ContextKey) := do
  match ← acquire? a with
  | none => return none
  | some (assembly,_,_) =>
    return assembly.context?.map fun _ => .ofAssembly a

def context? : ContextKey → Bench (Option Context)
  | .detached index => do
    let w ← get
    return w.contexts[index]?
  | .ofAssembly a => do
    let e ← assembly? a
    return e.bind fun e => e.assembly.context?

def owner? : ContextKey → Bench (Option (Option String))
  | .detached _ => return none
  | .ofAssembly a => do
    match ← assembly? a with
    | none => return none
    | some e => return if e.isOpen then some e.assembly.name? else none

def setContext (key : ContextKey) (c : Context) : Bench Unit :=
  match key with
  | .detached index =>
    modify fun w => { w with contexts := w.contexts.set index c }
  | .ofAssembly a =>
    modify fun w => { w with
      assemblies := w.assemblies.modify a.index fun e =>
        { e with assembly := { e.assembly with frozen := some (some c) } } }

def query? {α : Type} (key : ContextKey) (q : Graph → Query α) : Bench (Option α) := do
  match ← context? key with
  | none => return none
  | some c =>
    let (answer,after,asked) := c.run (q c.graph)
    setContext key after
    note c.compilation.serial asked
    return some answer

end TestScout.Bench
