import TestScout.Workbench.Reading
import TestScout.Report.Discovery
set_option autoImplicit false

namespace TestScout.Bench

def runFacts (a : AssemblyKey) (inbox : Inbox) : Bench Inbox := do
  let walked ← walk? a fun assembly scope m =>
    let r := Facts.run assembly scope m inbox
    (r,r.meter)
  match walked with
  | none => return inbox
  | some r =>
    setAssembly a r.assembly
    match r.assembly.context? with
    | none => return r.inbox
    | some c =>
      note c.compilation.serial r.asked
      return r.inbox

/-- Runs the fact engine over the fresh assembly of a scope, which is given up afterwards. -/
def searchFacts (scope : Scope) (token : TokenKey) : Bench Facts.Run := do
  let cancelled ← isCancelled token
  match scope.compilation? cancelled with
  | none => return Facts.run {} scope { cancelled } {}
  | some c =>
    let r ← metered c.serial token fun m =>
      let r := Facts.run {} scope m {}
      (r,r.meter)
    note c.serial r.asked
    return r

/-- What a pass answers: how it ended and what it reported. A scripted engine adds the answers to
its messages, if it was started. -/
structure PassResult where
  outcome : Except DiscoveryError Outcome
  reported : List TestCase := []
  accepted : List Bool := []
  isStarted : Bool := false

/-- How a pass is to be run. Without a script the fact engine does the work. `limit` is the number
of reports after which the caller cancels. -/
structure PassPlan where
  scope : ScopeKey
  token : TokenKey
  expected : Option ScopeKind
  stamp : Stamp
  script : Option (List EngineAction)
  limit : Option Nat

def playEngine (plan : PassPlan) (scope : Scope) : Bench Played := do
  match plan.script with
  | some actions => return Played.play { pass := {} } actions
  | none =>
    let r ← searchFacts scope plan.token
    return { pass := { inbox := r.inbox, cancelled := r.meter.cancelled } }

/-- Runs a pass. There is no answer if the pass would wait for ever. -/
def runPass? (plan : PassPlan) : Bench (Option PassResult) := do
  match ← scope? plan.scope with
  | none => return none
  | some scope =>
    match scope.check plan.expected with
    | .error e => return some { outcome := .error e }
    | .ok _ =>
      if ← isCancelled plan.token then
        return some { outcome := .ok .cancelled }
      else
        let played ← playEngine plan scope
        let start : PassResult :=
          { outcome := .ok .cancelled, accepted := played.accepted, isStarted := true }
        match played.error with
        | some e =>
          if played.pass.cancelled then
            cancel plan.token
          return some { start with outcome := .error (.engine e) }
        | none =>
          match played.pass.settle? plan.stamp plan.limit with
          | none => return none
          | some p =>
            if p.cancelled then
              cancel plan.token
            return some { start with outcome := .ok p.outcome, reported := p.reported }

end TestScout.Bench
