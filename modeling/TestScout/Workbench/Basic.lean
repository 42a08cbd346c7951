import TestScout.Assembly.Snapshot
set_option autoImplicit false

/-!
The workbench: everything that several parties share while tests are being looked for. Tokens,
compilations, projects and assemblies are entered once and named by key from then on, so that a
change to an entry holds for all who know its key. Each compilation has a journal of what it was
asked.
-/

namespace TestScout

structure TokenKey where
  index : Nat
  deriving DecidableEq, Repr

structure ProjectKey where
  index : Nat
  deriving DecidableEq, Repr

structure AssemblyKey where
  index : Nat
  deriving DecidableEq, Repr

inductive ContextKey where
  | detached (index : Nat)
  | ofAssembly (assembly : AssemblyKey)
  deriving DecidableEq, Repr

/-- A scope, with its project by key. A document does not keep its project open. -/
inductive ScopeKey where
  | document (document : Document) (home : ProjectKey)
  | project (project : ProjectKey)
  deriving DecidableEq, Repr

/-- The names that a compilation was asked for, how often it was asked what a node declares, and
the number of the question before which it cancels a token. -/
structure Journal where
  compilation : Compilation
  asked : List String := []
  visits : Nat := 0
  alarm : Option (Nat × TokenKey) := none
  deriving Repr

structure ProjectEntry where
  project : Project
  isOpen : Bool := true
  deriving Repr

structure AssemblyEntry where
  scope : ScopeKey
  token : TokenKey
  assembly : Assembly := {}
  isOpen : Bool := true
  deriving Repr

structure Workbench where
  tokens : List Bool := []
  journals : List Journal := []
  projects : List ProjectEntry := []
  assemblies : List AssemblyEntry := []
  contexts : List Context := []
  deriving Repr

abbrev Bench := StateM Workbench

namespace Bench

def newToken : Bench TokenKey := do
  let w ← get
  set { w with tokens := w.tokens ++ [false] }
  return ⟨w.tokens.length⟩

def cancel (t : TokenKey) : Bench Unit :=
  modify fun w => { w with tokens := w.tokens.set t.index true }

def isCancelled (t : TokenKey) : Bench Bool := do
  let w ← get
  return (w.tokens[t.index]?).getD false

def newCompilation (g : Graph) : Bench Nat := do
  let w ← get
  let serial := w.journals.length
  let journal : Journal := { compilation := { serial, graph := g } }
  set { w with journals := w.journals ++ [journal] }
  return serial

def journal? (serial : Nat) : Bench (Option Journal) := do
  let w ← get
  return w.journals[serial]?

def modifyJournal (serial : Nat) (change : Journal → Journal) : Bench Unit :=
  modify fun w => { w with journals := w.journals.modify serial change }

def note (serial : Nat) (asked : List String) : Bench Unit :=
  modifyJournal serial fun j => { j with asked := j.asked ++ asked }

def setAlarm (serial visit : Nat) (t : TokenKey) : Bench Unit :=
  modifyJournal serial fun j => { j with alarm := some (visit,t) }

/-- Runs a walk under a token and against a compilation, and enters its visits. An alarm that was
passed on the way cancels its token, which need not be the token of the walk. -/
def metered {α : Type} (serial : Nat) (t : TokenKey) (walk : Meter → α × Meter) : Bench α := do
  let cancelled ← isCancelled t
  match ← journal? serial with
  | none => return (walk { cancelled }).1
  | some j =>
    let own := j.alarm.bind fun (visit,token) => if token = t then some visit else none
    let (answer,m) := walk { visits := j.visits, alarm := own, cancelled }
    modifyJournal serial fun j => { j with visits := m.visits }
    match j.alarm with
    | none => return answer
    | some (visit,token) =>
      if j.visits < visit && visit ≤ m.visits then
        cancel token
      return answer

def declared? (serial : Nat) (document : DocumentId) (node : NodeId) (t : TokenKey) :
    Bench (Option SymbolId) := do
  match ← journal? serial with
  | none => return none
  | some j => metered serial t fun m => m.declared? j.compilation.graph document node

def newProject (id : ProjectId) (name : String) : Bench ProjectKey := do
  let w ← get
  let entry : ProjectEntry := { project := { id, name } }
  set { w with projects := w.projects ++ [entry] }
  return ⟨w.projects.length⟩

def modifyProject (p : ProjectKey) (change : Project → Project) : Bench Unit :=
  modify fun w => { w with
    projects := w.projects.modify p.index fun e => { e with project := change e.project } }

def closeProject (p : ProjectKey) : Bench Unit :=
  modify fun w => { w with
    projects := w.projects.modify p.index fun e => { e with isOpen := false } }

/-- A project can be reached while it is open or while an assembly over all of it is. -/
def liveProject? (p : ProjectKey) : Bench (Option Project) := do
  let w ← get
  match w.projects[p.index]? with
  | none => return none
  | some e =>
    let isKept := w.assemblies.any fun a => a.isOpen && a.scope == .project p
    return if e.isOpen || isKept then some e.project else none

def scope? : ScopeKey → Bench (Option Scope)
  | .document d home => do
    let project ← liveProject? home
    return some (.document d project)
  | .project p => do
    let project ← liveProject? p
    return project.map .project

end Bench

end TestScout
