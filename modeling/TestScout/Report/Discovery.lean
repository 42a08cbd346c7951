import TestScout.Report.Pass
set_option autoImplicit false

namespace TestScout

/-- Without a path for the execution assembly the file `Options.executionAssemblyFileName` next to
the running program is meant. -/
structure Options where
  pollMilliseconds : Nat := 50
  executorUri : String := "executor://xunit/VsTestRunner2"
  executionAssemblyPath : Option String := none
  deriving DecidableEq, Repr

namespace Options

def executionAssemblyFileName : String :=
  "xunit.execution.desktop.dll"

def isDefault (o : Options) : Bool :=
  o == {}

end Options

inductive EngineError where
  | spawn (reason : String)
  | refused (reason : String)
  deriving DecidableEq, Repr

def EngineError.message : EngineError → String
  | .spawn reason => "could not start discovery thread: " ++ reason
  | .refused reason => reason

inductive ScopeKind where
  | document
  | project
  deriving DecidableEq, Repr

def ScopeKind.name : ScopeKind → String
  | .document => "document"
  | .project => "project"

def Scope.kind : Scope → ScopeKind
  | .document _ _ => .document
  | .project _ => .project

inductive DiscoveryError where
  | engine (error : EngineError)
  | scopeMismatch (expected : ScopeKind)
  deriving DecidableEq, Repr

def DiscoveryError.name : DiscoveryError → String
  | .engine _ => "Engine"
  | .scopeMismatch _ => "ScopeMismatch"

def DiscoveryError.message : DiscoveryError → String
  | .engine error => "discovery engine failed to start: " ++ error.message
  | .scopeMismatch expected => "expected a " ++ expected.name ++ "-scoped discovery context"

def Scope.check (scope : Scope) (expected : Option ScopeKind) : Except DiscoveryError Unit :=
  match expected with
  | none => .ok ()
  | some kind => if scope.kind = kind then .ok () else .error (.scopeMismatch kind)

inductive EngineAction where
  | send (message : Message)
  | cancel
  | fail (error : EngineError)
  deriving DecidableEq, Repr

structure Played where
  pass : Pass
  accepted : List Bool := []
  error : Option EngineError := none
  deriving DecidableEq, Repr

/-- Plays a script up to its first failure. A failure closes the inbox. -/
def Played.play (p : Played) : List EngineAction → Played
  | [] => p
  | .send m :: rest =>
    let (accepted,pass) := p.pass.receive m
    play { p with pass, accepted := p.accepted ++ [accepted] } rest
  | .cancel :: rest => play { p with pass := p.pass.cancel } rest
  | .fail error :: _ => { p with pass := p.pass.close, error := some error }

def describePass (scope : Scope) (source : String) (cancelled : Bool) : String :=
  Text.record "DiscoveryContext"
    [("scope",scope.describe), ("source",Text.quoted source), ("cancelled",toString cancelled)] true

def describeRequest (assemblyName : Option String) (executionAssemblyPath : String) : String :=
  Text.record "FindRequest"
    [("assembly",Text.optional (assemblyName.map Text.quoted)),
     ("execution_assembly_path",Text.quoted executionAssemblyPath)] false

end TestScout
