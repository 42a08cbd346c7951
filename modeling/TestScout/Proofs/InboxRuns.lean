import TestScout.Finding.Inbox
import Mathlib.Data.List.TakeWhile
set_option autoImplicit false

namespace TestScout

inductive InboxCall where
  | receive (message : Message)
  | drain
  | close
  deriving DecidableEq, Repr

inductive InboxAnswer where
  | accepted (taken : Bool)
  | drained (findings : List Finding)
  | closed
  deriving DecidableEq, Repr

abbrev InboxLog :=
  List (InboxCall × InboxAnswer)

namespace InboxLog

def accepted (log : InboxLog) : List Finding :=
  log.filterMap fun
    | (.receive (.found finding),.accepted true) => some finding
    | _ => none

def drained (log : InboxLog) : List Finding :=
  log.flatMap fun entry =>
    match entry.2 with
    | .drained findings => findings
    | _ => []

@[simp] theorem accepted_append (log later : InboxLog) :
    accepted (log ++ later) = accepted log ++ accepted later :=
  List.filterMap_append

@[simp] theorem drained_append (log later : InboxLog) :
    drained (log ++ later) = drained log ++ drained later :=
  List.flatMap_append

end InboxLog

def InboxCall.refusal : InboxCall → InboxAnswer
  | receive _ => .accepted false
  | drain => .drained []
  | close => .closed

/-- The calls before the inbox is closed for the first time. -/
def InboxCall.untilClose (calls : List InboxCall) : List InboxCall :=
  calls.takeWhile (· ≠ close)

namespace Inbox

open InboxLog InboxCall

variable {i : Inbox} {calls : List InboxCall}

def perform (i : Inbox) : InboxCall → InboxAnswer × Inbox
  | .receive m => (.accepted (i.receive m).1,(i.receive m).2)
  | .drain => (.drained i.drain.1,i.drain.2)
  | .close => (.closed,i.close)

def serve (i : Inbox) : List InboxCall → InboxLog × Inbox
  | [] => ([],i)
  | call :: rest =>
    let (answer,next) := i.perform call
    let (log,last) := next.serve rest
    ((call,answer) :: log,last)

theorem serve_cons (i : Inbox) (call : InboxCall) (rest : List InboxCall) :
    i.serve (call :: rest) = ((call,(i.perform call).1) :: ((i.perform call).2.serve rest).1,
      ((i.perform call).2.serve rest).2) :=
  rfl

theorem serve_append (i : Inbox) (calls later : List InboxCall) :
    i.serve (calls ++ later) = ((i.serve calls).1 ++ ((i.serve calls).2.serve later).1,
      ((i.serve calls).2.serve later).2) := by
  induction calls generalizing i with
  | nil => rfl
  | cons call rest ih => rw [List.cons_append,serve_cons,ih,serve_cons]; rfl

@[simp] theorem length_serve (i : Inbox) (calls : List InboxCall) : (i.serve calls).1.length = calls.length := by
  induction calls generalizing i with
  | nil => rfl
  | cons call rest ih => exact congrArg Nat.succ (ih _)

@[simp] theorem receive_fst (i : Inbox) (m : Message) : (i.receive m).1 = !i.isClosed := by
  unfold receive
  split
  · next closed => rw [closed]; rfl
  · next opened => cases m <;> simp [opened]

@[simp] theorem isClosed_serve (i : Inbox) (calls : List InboxCall) :
    (i.serve calls).2.isClosed = (i.isClosed || calls.contains .close) := by
  induction calls generalizing i with
  | nil => simp [serve]
  | cons call rest ih =>
    have step : (i.perform call).2.isClosed = (i.isClosed || call == .close) := by
      cases call with
      | receive m =>
        simp only [perform,receive]
        split
        · simp
        · cases m <;> simp
      | drain => simp [perform,drain]
      | close => simp [perform,Inbox.close]
    rw [serve_cons,ih,step,List.contains_cons,Bool.or_assoc,BEq.comm]

theorem isFinished_serve (finished : i.isFinished) (calls : List InboxCall) :
    (i.serve calls).2.isFinished := by
  induction calls generalizing i with
  | nil => exact finished
  | cons call rest ih =>
    refine ih ?_
    cases call with
    | receive m =>
      simp only [receive]
      split
      · exact finished
      · cases m <;> simp [finished]
    | drain => exact finished
    | close => exact finished

structure IsShut (i : Inbox) : Prop where
  closed : i.isClosed
  empty : i.queue = []

theorem isShut_close (i : Inbox) : i.close.IsShut :=
  ⟨rfl,rfl⟩

theorem IsShut.perform (shut : i.IsShut) (call : InboxCall) :
    i.perform call = (call.refusal,i) := by
  obtain ⟨queue,isFinished,isClosed⟩ := i
  obtain ⟨rfl,rfl⟩ := shut
  cases call <;> rfl

theorem IsShut.serve (shut : i.IsShut) (calls : List InboxCall) :
    i.serve calls = (calls.map fun call => (call,call.refusal),i) := by
  induction calls with
  | nil => rfl
  | cons call rest ih => rw [serve_cons,shut.perform,ih,List.map_cons]

theorem serve_close (i : Inbox) (after : List InboxCall) :
    i.serve (.close :: after) =
      ((.close :: after).map fun call => (call,call.refusal),i.close) := by
  have shut : (i.perform .close).2.IsShut := isShut_close i
  rw [serve_cons,shut.serve after]
  rfl

@[simp] theorem accepted_refusals (calls : List InboxCall) :
    accepted (calls.map fun call => (call,call.refusal)) = [] := by
  rw [accepted,List.filterMap_map]
  refine List.filterMap_eq_nil_iff.2 fun call _ => ?_
  cases call with
  | receive m => cases m <;> rfl
  | drain => rfl
  | close => rfl

@[simp] theorem drained_refusals (calls : List InboxCall) :
    drained (calls.map fun call => (call,call.refusal)) = [] := by
  rw [drained,List.flatMap_map]
  refine List.flatMap_eq_nil_iff.2 fun call _ => ?_
  cases call <;> rfl

theorem perform_open (opened : i.isClosed = false) {call : InboxCall} (other : call ≠ .close) :
    drained [(call,(i.perform call).1)] ++ (i.perform call).2.queue =
        i.queue ++ accepted [(call,(i.perform call).1)] ∧
      (i.perform call).2.isFinished = (i.isFinished || call == .receive .complete) := by
  cases call with
  | receive m => cases m <;> simp [perform,receive,opened,drained,accepted]
  | drain => simp [perform,drain,drained,accepted]
  | close => exact absurd rfl other

/-- Until an inbox is closed, what it had and what it took is what it handed out and what waits. -/
theorem serve_open (opened : i.isClosed = false) (still : .close ∉ calls) :
    drained (i.serve calls).1 ++ (i.serve calls).2.queue = i.queue ++ accepted (i.serve calls).1 ∧
      (i.serve calls).2.isFinished = (i.isFinished || calls.contains (.receive .complete)) := by
  induction calls generalizing i with
  | nil => simp [serve,drained,accepted]
  | cons call rest ih =>
    rw [List.mem_cons,not_or] at still
    obtain ⟨other,still'⟩ := still
    have opened' : (i.perform call).2.isClosed = false := by
      have closed := i.isClosed_serve [call]
      simpa [serve,opened,other] using closed
    obtain ⟨step,finished⟩ := perform_open opened (Ne.symm other)
    obtain ⟨later,finished'⟩ := ih opened' still'
    have log := List.singleton_append (x := (call,(i.perform call).1))
      (l := ((i.perform call).2.serve rest).1)
    constructor
    · rw [serve_cons,← log,drained_append,accepted_append,List.append_assoc,later,
        ← List.append_assoc,step,List.append_assoc]
    · rw [serve_cons,finished',finished,List.contains_cons,Bool.or_assoc,BEq.comm]

theorem untilClose_append {before : List InboxCall} (still : .close ∉ before)
    (after : List InboxCall) : untilClose (before ++ .close :: after) = before := by
  have others : ∀ call ∈ before, decide (call ≠ InboxCall.close) = true := by
    intro call member
    exact decide_eq_true fun same => still (same ▸ member)
  rw [untilClose,List.takeWhile_append_of_pos others,List.takeWhile_cons_of_neg (by simp),
    List.append_nil]

theorem untilClose_eq_self (still : .close ∉ calls) : untilClose calls = calls := by
  refine List.takeWhile_eq_self_iff.2 fun call member => ?_
  exact decide_eq_true fun same => still (same ▸ member)

theorem close_not_mem_untilClose (calls : List InboxCall) : .close ∉ untilClose calls := by
  by_cases member : .close ∈ calls
  · obtain ⟨before,after,rfl,still⟩ := List.eq_append_cons_of_mem member
    rwa [untilClose_append still]
  · rwa [untilClose_eq_self member]

theorem serve_untilClose (i : Inbox) (calls : List InboxCall) :
    accepted (i.serve calls).1 = accepted (i.serve (untilClose calls)).1 ∧
    drained (i.serve calls).1 = drained (i.serve (untilClose calls)).1 ∧
    (i.serve calls).2.isFinished = (i.serve (untilClose calls)).2.isFinished := by
  by_cases member : .close ∈ calls
  · obtain ⟨before,after,rfl,still⟩ := List.eq_append_cons_of_mem member
    rw [untilClose_append still,serve_append,serve_close,accepted_append,drained_append,
      accepted_refusals,drained_refusals,List.append_nil,List.append_nil]
    exact ⟨rfl,rfl,rfl⟩
  · rw [untilClose_eq_self member]
    exact ⟨rfl,rfl,rfl⟩

/-- In every run of a new inbox, what was handed out and what waits when it is closed for the first time,
or at the end if it is never closed, are the findings that were taken, in the order in which they came.
Messages are taken just until then, an inbox is finished just if the end of the work came until then and
stays so, and afterwards it is empty, hands out nothing and does not become finished. -/
theorem serve_exact (calls : List InboxCall) :
    let log := (({} : Inbox).serve calls).1
    let last := (({} : Inbox).serve calls).2
    drained log ++ (({} : Inbox).serve (untilClose calls)).2.queue = accepted log ∧
    (∀ before m after, calls = before ++ .receive m :: after →
      log[before.length]? = some (.receive m,.accepted (.close ∉ before))) ∧
    (last.isFinished ↔ .receive .complete ∈ untilClose calls) ∧
    (∀ before after, calls = before ++ after → (({} : Inbox).serve before).2.isFinished →
      last.isFinished) ∧
    ∀ before after, calls = before ++ .close :: after →
      last.queue = [] ∧ last.isFinished = (({} : Inbox).serve before).2.isFinished ∧
      ∀ entry ∈ log.drop before.length, ∀ findings, entry.2 = .drained findings → findings = [] := by
  intro log last
  obtain ⟨accepted_eq,drained_eq,finished_eq⟩ := serve_untilClose {} calls
  obtain ⟨balance,finished⟩ := serve_open (i := {}) rfl (close_not_mem_untilClose calls)
  refine ⟨?_,?_,?_,?_,?_⟩
  · rw [accepted_eq,drained_eq]
    exact balance
  · rintro before m after rfl
    have place : (({} : Inbox).serve before).1.length = before.length := length_serve ..
    have taken : ((({} : Inbox).serve before).2.receive m).1 = decide (.close ∉ before) := by
      rw [receive_fst,isClosed_serve]
      simp
    simp only [log]
    rw [serve_append,serve_cons,← place,List.getElem?_append_right (Nat.le_refl _),Nat.sub_self,
      List.getElem?_cons_zero]
    exact congrArg (fun taken => some (InboxCall.receive m,InboxAnswer.accepted taken)) taken
  · rw [finished_eq,finished]
    simp
  · rintro before after rfl done
    simp only [last]
    rw [serve_append]
    exact isFinished_serve done after
  · rintro before after rfl
    have place : (({} : Inbox).serve before).1.length = before.length := length_serve ..
    -- From the first close on, each answer is a refusal.
    have split : ({} : Inbox).serve (before ++ .close :: after) = _ := serve_append ..
    rw [serve_close] at split
    simp only [log,last,split]
    refine ⟨rfl,rfl,?_⟩
    rw [← place,List.drop_left]
    intro entry member findings drains
    obtain ⟨call,-,rfl⟩ := List.mem_map.1 member
    cases call <;> cases drains
    rfl

/-! A finding that is handed out, one that still waits when the inbox is closed, and one that comes too
late. -/

def namedFinding (name : String) : Finding :=
  { type := ⟨4⟩, method := ⟨5⟩, typeName := "T", methodName := name, displayName := name }

def beforeClosing : List InboxCall :=
  [.receive (.found (namedFinding "First")),.drain,.receive (.found (namedFinding "Second")),
   .receive .complete]

def afterClosing : List InboxCall :=
  [.receive (.found (namedFinding "Late")),.drain]

theorem serve_exact_closing :
    let log := (({} : Inbox).serve (beforeClosing ++ .close :: afterClosing)).1
    let last := (({} : Inbox).serve (beforeClosing ++ .close :: afterClosing)).2
    accepted log = [namedFinding "First",namedFinding "Second"] ∧
    drained log = [namedFinding "First"] ∧
    log[5]? = some (.receive (.found (namedFinding "Late")),.accepted false) ∧
    last.isFinished ∧ last.queue = [] := by
  intro log last
  obtain ⟨balance,taken,-,stays,shut⟩ := serve_exact (beforeClosing ++ .close :: afterClosing)
  have handed : drained log = [namedFinding "First"] := by rfl
  have waits : (({} : Inbox).serve (untilClose (beforeClosing ++ .close :: afterClosing))).2.queue =
      [namedFinding "Second"] := by rfl
  have late := taken (beforeClosing ++ [.close]) (.found (namedFinding "Late")) [.drain] rfl
  have finished := stays beforeClosing (.close :: afterClosing) rfl rfl
  obtain ⟨empty,-,-⟩ := shut beforeClosing afterClosing rfl
  refine ⟨?_,handed,late,finished,empty⟩
  rw [← balance,waits,handed]
  rfl

end Inbox

end TestScout
