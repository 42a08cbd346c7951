import Mathlib
import TestScout.Proofs.PassReports
set_option autoImplicit false

/-!
Passes whose messages, wakes and cancellations fall in any order. A cancelled pass keeps what it has
reported and adds nothing, so its reports are the first ones of the script that the engine plays; and
what comes after the last wake changes no report.
-/

namespace TestScout

theorem TestCase.isReportable_eq (t : TestCase) :
    t.isReportable = (!Text.isBlankText t.fullyQualifiedName && !Text.isBlankText t.displayName &&
      !Text.isBlankText t.source && !Text.isBlankText t.executorUri) := by
  simp only [isReportable,blank?,RequiredField.all,RequiredField.of,List.find?]
  cases Text.isBlankText t.fullyQualifiedName <;> cases Text.isBlankText t.displayName <;>
    cases Text.isBlankText t.source <;> cases Text.isBlankText t.executorUri <;> rfl

namespace Pass

variable {stamp : Stamp}

theorem run_append (p : Pass) (events later : List PassEvent) :
    p.run stamp (events ++ later) = (p.run stamp events).run stamp later :=
  List.foldl_append

@[simp] theorem messages_append (events later : List PassEvent) :
    messages (events ++ later) = messages events ++ messages later :=
  List.filterMap_append

@[simp] theorem foundIn_append (ms later : List Message) :
    foundIn (ms ++ later) = foundIn ms ++ foundIn later :=
  List.filterMap_append

theorem tests_mono {ms script : List Message} (part : ms <+: script) :
    tests stamp (foundIn ms) <+: tests stamp (foundIn script) := by
  obtain ⟨later,rfl⟩ := part
  rw [foundIn_append,tests_append]
  exact List.prefix_append _ _

@[simp] theorem step_cancelled (p : Pass) (event : PassEvent) :
    (p.step stamp event).cancelled = (p.cancelled || event == .cancel) := by
  cases event with
  | message m => simp [step,receive]
  | wake =>
    simp only [step,wake]
    split <;> simp
  | cancel => simp [step,cancel]

@[simp] theorem run_cancelled (p : Pass) (events : List PassEvent) :
    (p.run stamp events).cancelled = (p.cancelled || events.contains .cancel) := by
  induction events generalizing p with
  | nil => simp [run]
  | cons event rest ih =>
    have step : p.run stamp (event :: rest) = (p.step stamp event).run stamp rest := rfl
    rw [step,ih,step_cancelled,List.contains_cons,Bool.or_assoc]
    cases event <;> rfl

theorem run_reported {p : Pass} {events : List PassEvent}
    (still : p.cancelled ∨ PassEvent.wake ∉ events) :
    (p.run stamp events).reported = p.reported := by
  induction events generalizing p with
  | nil => rfl
  | cons event rest ih =>
    have step : p.run stamp (event :: rest) = (p.step stamp event).run stamp rest := rfl
    have later : (p.step stamp event).cancelled ∨ PassEvent.wake ∉ rest := by
      rcases still with cancelled | none
      · exact .inl (by rw [step_cancelled,cancelled]; rfl)
      · exact .inr fun member => none (List.mem_cons_of_mem _ member)
    rw [step,ih later]
    cases event with
    | message m => rfl
    | cancel => rfl
    | wake =>
      rcases still with cancelled | none
      · simp [Pass.step,wake,cancelled]
      · exact absurd List.mem_cons_self none

theorem conclude_of_cancelled {p : Pass} (cancelled : p.cancelled) :
    (p.conclude stamp).reported = p.reported := by
  simp [conclude,wake,cancelled,close]

@[simp] theorem conclude_cancelled (p : Pass) : (p.conclude stamp).cancelled = p.cancelled := by
  simp only [conclude,wake,close]
  split <;> rfl

/-- Nothing waits in the inbox and nothing can come in any more. -/
structure IsOver (p : Pass) : Prop where
  empty : p.inbox.queue = []
  closed : p.inbox.isClosed

theorem isOver_conclude (p : Pass) : (p.conclude stamp).IsOver :=
  ⟨rfl,rfl⟩

theorem IsOver.step {p : Pass} (ended : p.IsOver) (event : PassEvent) :
    (p.step stamp event).IsOver ∧ (p.step stamp event).reported = p.reported := by
  cases event with
  | message m =>
    have refused : (p.step stamp (.message m)) = p := by
      simp [Pass.step,receive,Inbox.receive,ended.closed]
    rw [refused]
    exact ⟨ended,rfl⟩
  | wake =>
    simp only [Pass.step,wake]
    split
    · exact ⟨ended,rfl⟩
    · exact ⟨⟨rfl,ended.closed⟩,by simp [Inbox.drain,ended.empty]⟩
  | cancel => exact ⟨⟨ended.empty,ended.closed⟩,rfl⟩

theorem IsOver.run {p : Pass} (ended : p.IsOver) (events : List PassEvent) :
    (p.run stamp events).reported = p.reported := by
  induction events generalizing p with
  | nil => rfl
  | cons event rest ih =>
    obtain ⟨ended',same⟩ := @IsOver.step stamp p ended event
    exact (ih ended').trans same

theorem IsRunning.isFinished {p : Pass} (running : p.IsRunning) {events : List PassEvent}
    (calm : PassEvent.cancel ∉ events) :
    (p.run stamp events).inbox.isFinished =
      (p.inbox.isFinished || (messages events).contains .complete) := by
  induction events generalizing p with
  | nil => simp [Pass.run,messages]
  | cons event rest ih =>
    have calm' : PassEvent.cancel ∉ rest := fun member => calm (List.mem_cons_of_mem _ member)
    have step : p.run stamp (event :: rest) = (p.step stamp event).run stamp rest := rfl
    rw [step]
    cases event with
    | message m =>
      have first : messages (.message m :: rest) = m :: messages rest := rfl
      have received : (p.step stamp (.message m)).inbox.isFinished =
          (p.inbox.isFinished || m == .complete) := by
        cases m <;> simp [Pass.step,Pass.receive,Inbox.receive,running.opened]
      have later : ((p.step stamp (.message m)).run stamp rest).inbox.isFinished =
          ((p.step stamp (.message m)).inbox.isFinished || (messages rest).contains .complete) :=
        ih (running.receive m).1 calm'
      rw [later,received,first,List.contains_cons,Bool.or_assoc]
      cases m <;> rfl
    | wake =>
      have woken : p.step stamp .wake = _ := running.wake
      have running' : (p.step stamp .wake).IsRunning := by
        rw [woken]
        exact ⟨running.uncancelled,running.opened⟩
      rw [ih running' calm',woken]
      rfl
    | cancel => exact absurd List.mem_cons_self calm

theorem reported_of_cancel {events : List PassEvent} (member : PassEvent.cancel ∈ events) :
    ((run stamp {} events).conclude stamp).reported <+: tests stamp (foundIn (messages events)) := by
  obtain ⟨calm,rest,rfl,uncancelled⟩ := List.eq_append_cons_of_mem member
  have start : ({} : Pass).IsRunning := ⟨rfl,rfl⟩
  obtain ⟨-,all⟩ := @IsRunning.run stamp {} start calm uncancelled
  have cancelled : (run stamp {} (calm ++ .cancel :: rest)).cancelled := by
    simp
  have kept : (run stamp {} (calm ++ .cancel :: rest)).reported =
      (run stamp {} calm).reported := by
    rw [run_append]
    exact run_reported (p := (run stamp {} calm).cancel) (.inl rfl)
  have early : tests stamp (foundIn (messages calm)) <+:
      tests stamp (foundIn (messages (calm ++ .cancel :: rest))) := by
    rw [messages_append]
    exact tests_mono (List.prefix_append _ _)
  rw [conclude_of_cancelled cancelled,kept]
  exact List.IsPrefix.trans ⟨_,all⟩ early

/-- A pass that nothing cancels waits until the whole script was sent. -/
theorem messages_eq_of_isDue {stamp : Stamp} {body : List Message} {events : List PassEvent}
    (unfinished : Message.complete ∉ body) (sent : messages events <+: body ++ [.complete])
    (due : (run stamp {} events).isDue) (calm : PassEvent.cancel ∉ events) :
    messages events = body ++ [.complete] := by
  have start : ({} : Pass).IsRunning := ⟨rfl,rfl⟩
  have uncancelled : (run stamp {} events).cancelled = false := by
    simpa using calm
  have finished : Message.complete ∈ messages events := by
    rw [isDue,uncancelled,Bool.or_false,start.isFinished calm] at due
    simpa using due
  -- The end of the work stands only at the end of the script.
  rcases List.prefix_concat_iff.1 sent with whole | part
  · exact whole
  · exact absurd (part.subset finished) unfinished

/-- An engine plays a script of findings and diagnostics that ends with the end of its work. However
its messages, the wakes and cancellations fall, the pass reports the first tests that the script is
worth, tests with a blank field left out, and all of them unless it is cancelled. -/
theorem reports_of_script (stamp : Stamp) (body : List Message) (events late : List PassEvent)
    (unfinished : Message.complete ∉ body) (sent : messages events <+: body ++ [.complete])
    (due : (run stamp {} events).isDue) :
    let worth := ((foundIn body).map (TestCase.ofFinding stamp)).filter fun t =>
      !Text.isBlankText t.fullyQualifiedName && !Text.isBlankText t.displayName &&
        !Text.isBlankText t.source && !Text.isBlankText t.executorUri
    let final := ((run stamp {} events).conclude stamp).run stamp late
    final.reported <+: worth ∧
    (PassEvent.cancel ∉ events → final.reported = worth) ∧
    final.outcome = (if PassEvent.cancel ∈ events ++ late then .cancelled else .completed) ∧
    ∀ before after, events = before ++ .cancel :: after → PassEvent.wake ∉ before →
      final.reported = [] := by
  intro worth final
  have value : tests stamp (foundIn (body ++ [.complete])) = worth := by
    have filled : TestCase.isReportable = fun t =>
        !Text.isBlankText t.fullyQualifiedName && !Text.isBlankText t.displayName &&
          !Text.isBlankText t.source && !Text.isBlankText t.executorUri :=
      funext TestCase.isReportable_eq
    have last : foundIn (body ++ [.complete]) = foundIn body := by
      rw [foundIn_append]
      exact List.append_nil _
    rw [last,tests,filled]
  have settled : final.reported = ((run stamp {} events).conclude stamp).reported :=
    (isOver_conclude _).run late
  have all : PassEvent.cancel ∉ events → final.reported = worth := by
    intro calm
    have whole := messages_eq_of_isDue unfinished sent due calm
    rw [settled,(conclude_run events calm).1,whole,value]
  refine ⟨?_,all,?_,?_⟩
  · by_cases member : PassEvent.cancel ∈ events
    · rw [settled,← value]
      exact (reported_of_cancel member).trans (tests_mono sent)
    · exact ⟨[],by rw [List.append_nil,all member]⟩
  · have cancelled : final.cancelled = (events ++ late).contains .cancel := by
      simp only [final,run_cancelled,conclude_cancelled,List.contains_append,Bool.false_or]
    simp [outcome,cancelled]
  · intro before after split silent
    have cancelled : (run stamp {} events).cancelled := by simp [split]
    -- Nothing was reported before the cancellation, for want of a wake, and nothing is after it.
    have woken : (run stamp {} events).reported = (run stamp {} before).reported := by
      rw [split,run_append]
      exact run_reported (p := (run stamp {} before).cancel) (.inl rfl)
    rw [settled,conclude_of_cancelled cancelled,woken,run_reported (.inr silent)]

end Pass

/-! A script whose second finding has no display name, and a cancellation behind its last message. -/

def namelessScript : List Message :=
  [.found { type := ⟨4⟩, method := ⟨5⟩, typeName := "T", methodName := "First", displayName := "first" },
   .found { type := ⟨4⟩, method := ⟨6⟩, typeName := "T", methodName := "Second", displayName := " " },
   .diagnostic "loading",
   .found { type := ⟨4⟩, method := ⟨7⟩, typeName := "T", methodName := "Third", displayName := "third" }]

def lateCancel : List PassEvent :=
  (namelessScript.take 1).map .message ++ [.wake] ++ (namelessScript.drop 1).map .message ++
    [.message .complete,.cancel]

theorem Pass.reports_of_script_late_cancel :
    let stamp : Stamp := ⟨"executor","Tests"⟩
    let final := (Pass.run stamp {} lateCancel).conclude stamp
    Message.complete ∉ namelessScript ∧
    Pass.messages lateCancel <+: namelessScript ++ [.complete] ∧
    (Pass.run stamp {} lateCancel).isDue ∧
    final.reported.map TestCase.displayName = ["first"] ∧
    final.reported <+: Pass.tests stamp (Pass.foundIn namelessScript) ∧
    (Pass.tests stamp (Pass.foundIn namelessScript)).map TestCase.displayName = ["first","third"] ∧
    final.outcome = .cancelled := by
  intro stamp final
  have unfinished : Message.complete ∉ namelessScript := by decide
  have sent : Pass.messages lateCancel <+: namelessScript ++ [.complete] := List.prefix_refl _
  have due : (Pass.run stamp {} lateCancel).isDue := by decide
  obtain ⟨first,-,ended,-⟩ := Pass.reports_of_script stamp namelessScript lateCancel [] unfinished sent due
  have worth : (Pass.tests stamp (Pass.foundIn namelessScript)).map TestCase.displayName =
      ["first","third"] := by
    cbv
  refine ⟨unfinished,sent,due,?_,?_,worth,ended⟩
  · cbv
  · have filled := funext TestCase.isReportable_eq
    rw [Pass.tests,filled]
    exact first

end TestScout
