import TestScout.Report.Pass
set_option autoImplicit false

namespace TestScout

namespace Pass

variable {stamp : Stamp}

def tests (stamp : Stamp) (found : List Finding) : List TestCase :=
  (found.map (TestCase.ofFinding stamp)).filter TestCase.isReportable

@[simp] theorem tests_append (found later : List Finding) :
    tests stamp (found ++ later) = tests stamp found ++ tests stamp later := by
  simp [tests]

def messages (events : List PassEvent) : List Message :=
  events.filterMap fun
    | .message m => some m
    | _ => none

def foundIn (ms : List Message) : List Finding :=
  ms.filterMap fun
    | .found f => some f
    | _ => none

@[simp] theorem foundIn_complete (found : List Finding) :
    foundIn (found.map .found ++ [.complete]) = found := by
  have all : foundIn (found.map .found) = found := by
    induction found with
    | nil => rfl
    | cons f rest ih => exact congrArg (f :: ·) ih
  have last : foundIn [.complete] = [] := rfl
  rw [foundIn,List.filterMap_append,← foundIn,← foundIn,all,last,List.append_nil]

structure IsRunning (p : Pass) : Prop where
  uncancelled : p.cancelled = false
  opened : p.inbox.isClosed = false

theorem IsRunning.wake {p : Pass} (running : p.IsRunning) :
    p.wake stamp =
      { p with
        inbox := { p.inbox with queue := [] }
        reported := p.reported ++ tests stamp p.inbox.queue } := by
  simp [Pass.wake,running.uncancelled,Inbox.drain,tests]

theorem IsRunning.receive {p : Pass} (running : p.IsRunning) (m : Message) :
    (p.receive m).2.IsRunning ∧ (p.receive m).2.reported = p.reported ∧
      (p.receive m).2.inbox.queue = p.inbox.queue ++ foundIn [m] := by
  refine ⟨⟨running.uncancelled,?_⟩,rfl,?_⟩
  · cases m <;> simp [Pass.receive,Inbox.receive,running.opened]
  · cases m <;> simp [Pass.receive,Inbox.receive,running.opened,foundIn]

/-- Whatever the order of messages and wakes, nothing that arrives is lost or moved. -/
theorem IsRunning.run {p : Pass} (running : p.IsRunning) (events : List PassEvent)
    (calm : PassEvent.cancel ∉ events) :
    (p.run stamp events).IsRunning ∧
    (p.run stamp events).reported ++ tests stamp (p.run stamp events).inbox.queue =
      p.reported ++ tests stamp (p.inbox.queue ++ foundIn (messages events)) := by
  induction events generalizing p with
  | nil => exact ⟨running,by simp [Pass.run,messages,foundIn]⟩
  | cons event rest ih =>
    have calm' : PassEvent.cancel ∉ rest := fun member => calm (List.mem_cons_of_mem _ member)
    have step : p.run stamp (event :: rest) = (p.step stamp event).run stamp rest := rfl
    rw [step]
    cases event with
    | message m =>
      obtain ⟨running',reported,queue⟩ := running.receive m
      obtain ⟨after,later⟩ := ih running' calm'
      refine ⟨after,later.trans ?_⟩
      have split : foundIn (messages (.message m :: rest)) = foundIn [m] ++ foundIn (messages rest) := by
        simp [messages,foundIn,List.filterMap_cons]
        cases m <;> rfl
      rw [reported,queue,split,List.append_assoc]
    | wake =>
      -- A wake moves what waits behind what was reported and takes nothing away.
      have woken : p.step stamp .wake = _ := running.wake
      have running' : (p.step stamp .wake).IsRunning := by
        rw [woken]
        exact ⟨running.uncancelled,running.opened⟩
      obtain ⟨after,later⟩ := ih running' calm'
      refine ⟨after,later.trans ?_⟩
      have same : messages (.wake :: rest) = messages rest := rfl
      rw [woken,same,tests_append,tests_append,List.append_assoc]
      rfl
    | cancel => exact absurd List.mem_cons_self calm

theorem IsRunning.conclude {p : Pass} (running : p.IsRunning) :
    (p.conclude stamp).reported = p.reported ++ tests stamp p.inbox.queue ∧
      (p.conclude stamp).outcome = .completed := by
  rw [Pass.conclude,running.wake]
  exact ⟨rfl,by simp [outcome,close,running.uncancelled]⟩

theorem conclude_run (events : List PassEvent) (calm : PassEvent.cancel ∉ events) :
    ((run stamp {} events).conclude stamp).reported = tests stamp (foundIn (messages events)) ∧
      ((run stamp {} events).conclude stamp).outcome = .completed := by
  have start : ({} : Pass).IsRunning := ⟨rfl,rfl⟩
  obtain ⟨running,all⟩ := start.run events calm
  obtain ⟨reported,completed⟩ := @IsRunning.conclude stamp _ running
  refine ⟨?_,completed⟩
  rw [reported,all]
  rfl

theorem settle?_of_finished {p : Pass} (finished : p.inbox.isFinished) :
    p.settle? stamp none = some (p.conclude stamp) := by
  simp [settle?,isDue,finished,react]

end Pass

end TestScout
