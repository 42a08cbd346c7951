import TestScout.Workbench.Searching
set_option autoImplicit false

namespace TestScout

namespace Workbench

def visits (w : Workbench) (serial : Nat) : Nat :=
  (w.journals[serial]?.map Journal.visits).getD 0

def rung? (w : Workbench) (serial visits : Nat) : Option TokenKey :=
  w.journals[serial]?.bind fun j => j.alarm.bind fun (visit,token) =>
    if j.visits < visit && visit ≤ visits then some token else none

/-- The workbench after a walk against a compilation that has counted so many questions by now. -/
def recorded (w : Workbench) (serial visits : Nat) : Workbench :=
  { w with
    journals := w.journals.modify serial fun j => { j with visits }
    tokens := match w.rung? serial visits with
      | none => w.tokens
      | some token => w.tokens.set token.index true }

end Workbench

namespace Bench

def startMeter (serial : Nat) (t : TokenKey) (w : Workbench) : Meter :=
  match w.journals[serial]? with
  | none => { cancelled := (isCancelled t w).1 }
  | some j =>
    { visits := j.visits
      alarm := j.alarm.bind fun (visit,token) => if token = t then some visit else none
      cancelled := (isCancelled t w).1 }

theorem journal?_eq (serial : Nat) (w : Workbench) : journal? serial w = (w.journals[serial]?,w) :=
  rfl

theorem isCancelled_eq (t : TokenKey) (w : Workbench) :
    isCancelled t w = ((w.tokens[t.index]?).getD false,w) :=
  rfl

theorem bind_eq {α β : Type} (first : Bench α) (next : α → Bench β) (w : Workbench) :
    (first >>= next) w = next (first w).1 (first w).2 :=
  rfl

@[simp] theorem startMeter_cancelled (serial : Nat) (t : TokenKey) (w : Workbench) :
    (startMeter serial t w).cancelled = (isCancelled t w).1 := by
  unfold startMeter
  cases w.journals[serial]? <;> rfl

@[simp] theorem startMeter_visits (serial : Nat) (t : TokenKey) (w : Workbench) :
    (startMeter serial t w).visits = w.visits serial := by
  unfold startMeter Workbench.visits
  cases w.journals[serial]? <;> rfl

theorem rung?_eq_some_iff (serial : Nat) (t : TokenKey) (w : Workbench) (visits : Nat) :
    w.rung? serial visits = some t ↔ ∃ visit, (startMeter serial t w).alarm = some visit ∧
      (startMeter serial t w).visits < visit ∧ visit ≤ visits := by
  unfold Workbench.rung? startMeter
  cases w.journals[serial]? with
  | none => simp
  | some j =>
    obtain ⟨compilation,asked,before,alarm⟩ := j
    cases alarm with
    | none => simp
    | some alarm =>
      obtain ⟨visit,token⟩ := alarm
      by_cases own : token = t
      · simp [own]
      · simp [own]

theorem isCancelled_recorded {t : TokenKey} {w : Workbench} (known : t.index < w.tokens.length)
    (serial visits : Nat) : (isCancelled t (w.recorded serial visits)).1 =
      ((isCancelled t w).1 || w.rung? serial visits == some t) := by
  rw [isCancelled_eq,isCancelled_eq]
  unfold Workbench.recorded
  cases w.rung? serial visits with
  | none => simp
  | some token =>
    have other : token.index = t.index ↔ token = t := by
      cases token
      cases t
      simp
    by_cases own : token = t
    · simp [own,known]
    · simp [own,other]

theorem metered_eq {α : Type} (serial : Nat) (t : TokenKey) (walk : Meter → α × Meter)
    (w : Workbench) :
    metered serial t walk w =
      ((walk (startMeter serial t w)).1,
       w.recorded serial (walk (startMeter serial t w)).2.visits) := by
  unfold metered startMeter Workbench.recorded Workbench.rung?
  rw [bind_eq,bind_eq,isCancelled_eq,journal?_eq]
  dsimp only
  cases entered : w.journals[serial]? with
  | none =>
    rw [List.modify_eq_self (List.getElem?_eq_none_iff.1 entered)]
    rfl
  | some j =>
    obtain ⟨compilation,asked,visits,alarm⟩ := j
    dsimp only
    rw [bind_eq]
    cases alarm with
    | none => rfl
    | some alarm =>
      -- The alarm may be for another token, and it may not be passed.
      dsimp only [Option.bind_some]
      split <;> split <;> rfl

theorem metered_answer {α : Type} (serial : Nat) (t : TokenKey) (walk : Meter → α × Meter)
    (w : Workbench) : (metered serial t walk w).1 = (walk (startMeter serial t w)).1 :=
  congrArg Prod.fst (metered_eq serial t walk w)

theorem searchFacts_answer {scope : Scope} {t : TokenKey} {c : Compilation} {w : Workbench}
    (running : (isCancelled t w).1 = false) (compiled : scope.compilation? false = some c) :
    (searchFacts scope t w).1 = Facts.run {} scope (startMeter c.serial t w) {} := by
  unfold searchFacts
  rw [bind_eq,running]
  simp only [compiled]
  rw [bind_eq,bind_eq,metered_answer]
  rfl

theorem liveProject?_eq (p : ProjectKey) (w : Workbench) :
    liveProject? p w = ((w.projects[p.index]?).bind fun e =>
      if e.isOpen || w.assemblies.any fun a => a.isOpen && a.scope == .project p then some e.project
      else none,w) := by
  unfold liveProject?
  rw [bind_eq]
  have here : (get : Bench Workbench) w = (w,w) := rfl
  rw [here]
  dsimp only
  cases w.projects[p.index]? <;> rfl

@[simp] theorem scope?_snd (key : ScopeKey) (w : Workbench) : (scope? key w).2 = w := by
  cases key with
  | document d home => exact congrArg Prod.snd (liveProject?_eq home w)
  | project p => exact congrArg Prod.snd (liveProject?_eq p w)

theorem scope?_congr {w w' : Workbench} (projects : w'.projects = w.projects)
    (assemblies : w'.assemblies = w.assemblies) (key : ScopeKey) :
    (scope? key w').1 = (scope? key w).1 := by
  have live (p : ProjectKey) : (liveProject? p w').1 = (liveProject? p w).1 := by
    rw [liveProject?_eq,liveProject?_eq,projects,assemblies]
  cases key with
  | document d home => exact congrArg (fun project => some (Scope.document d project)) (live home)
  | project p => exact congrArg (Option.map Scope.project) (live p)

end Bench

end TestScout
