import TestScout.Finding.Facts
import TestScout.Report.TestCase
set_option autoImplicit false

/-!
One discovery pass. While an engine fills the inbox, the pass wakes from time to time and reports
what has arrived; once the engine is done or the pass is cancelled it wakes a last time and closes
the inbox. A cancelled pass reports nothing more.
-/

namespace TestScout

inductive Outcome where
  | completed
  | cancelled
  deriving DecidableEq, Repr

def Outcome.name : Outcome → String
  | .completed => "Completed"
  | .cancelled => "Cancelled"

structure Pass where
  inbox : Inbox := {}
  reported : List TestCase := []
  cancelled : Bool := false
  deriving DecidableEq, Repr

inductive PassEvent where
  | message (message : Message)
  | wake
  | cancel
  deriving DecidableEq, Repr

namespace Pass

/-- Reports all that waits in the inbox. Tests with a blank field are left out and do not stand in
the way of those behind them. -/
def wake (stamp : Stamp) (p : Pass) : Pass :=
  if p.cancelled then p
  else
    let (findings,inbox) := p.inbox.drain
    let tests := (findings.map (TestCase.ofFinding stamp)).filter TestCase.isReportable
    { p with inbox, reported := p.reported ++ tests }

def cancel (p : Pass) : Pass :=
  { p with cancelled := true }

def receive (p : Pass) (m : Message) : Bool × Pass :=
  let (accepted,inbox) := p.inbox.receive m
  (accepted,{ p with inbox })

def step (stamp : Stamp) (p : Pass) : PassEvent → Pass
  | .message m => (p.receive m).2
  | .wake => p.wake stamp
  | .cancel => p.cancel

def run (stamp : Stamp) (p : Pass) (events : List PassEvent) : Pass :=
  events.foldl (step stamp) p

def isDue (p : Pass) : Bool :=
  p.inbox.isFinished || p.cancelled

def close (p : Pass) : Pass :=
  { p with inbox := p.inbox.close }

def conclude (stamp : Stamp) (p : Pass) : Pass :=
  (p.wake stamp).close

def outcome (p : Pass) : Outcome :=
  if p.cancelled then .cancelled else .completed

/-- The caller's reaction to reports: it cancels when the number of tests that it was handed comes
to its limit. -/
def react (limit : Option Nat) (before after : Pass) : Pass :=
  match limit with
  | none => after
  | some n =>
    if before.reported.length < n && n ≤ after.reported.length then after.cancel else after

/-- Ends a pass whose engine sends nothing more. An engine that neither finished nor was cancelled
leaves the pass waiting for ever, and then there is no answer. -/
def settle? (stamp : Stamp) (limit : Option Nat) (p : Pass) : Option Pass :=
  let p := if p.isDue then p else react limit p (p.wake stamp)
  if p.isDue then some (react limit p (p.conclude stamp)) else none

end Pass

end TestScout
