import TestScout.Proofs.BenchRuns
import TestScout.Proofs.FactPass
set_option autoImplicit false

/-!
Listing types while the token fires. The walk stops at the question before which it fires and answers
with what it has found by then; nothing of it is kept, and the assembly lists nothing any more.
-/

namespace TestScout

namespace TypeWalk

variable {g : Graph} {admits : SymbolId → Bool}

theorem admitted_take_isPrefix (places : List (DocumentId × NodeId)) (n : Nat) :
    (admitted g admits (places.take n)).eraseDups <+: (admitted g admits places).eraseDups := by
  have whole : admitted g admits places =
      admitted g admits (places.take n) ++ admitted g admits (places.drop n) := by
    rw [← admitted_append,List.take_append_drop]
  rw [whole,List.eraseDups_append]
  exact List.prefix_append _ _

end TypeWalk

namespace Bench

variable {w w' : Workbench} {a : AssemblyKey} {e : AssemblyEntry} {scope : Scope} {c : Context}

/-- Nothing was listed by the assembly and nothing is about to cancel it. -/
structure IsReady (w : Workbench) (a : AssemblyKey) (e : AssemblyEntry) (scope : Scope)
    (c : Context) : Prop where
  reads : Reads w a e scope
  unset : e.assembly.publicTypes = none
  held : (e.assembly.acquire scope false).context? = some c
  entered : c.compilation.serial < w.journals.length
  known : e.token.index < w.tokens.length
  quiet : (startMeter c.compilation.serial e.token w).IsQuiet
  grown : ∀ t ∈ scope.trees false, t.Grown

theorem types_of_cancelled (entered : w.assemblies[a.index]? = some e)
    (cancelled : (isCancelled e.token w).1) (unset : e.assembly.publicTypes = none)
    (includePrivate : Bool) : (types a includePrivate w).1 = [] := by
  rcases acquire?_cases w a with ⟨e',scope,reads⟩ | unread
  · obtain rfl := Option.some.inj (entered.symm.trans reads.entered)
    have stopped : (meterOf w e.token (taken w e scope)).cancelled := by
      rw [meterOf_cancelled]
      exact cancelled
    have unset' : (taken w e scope).publicTypes = none := by
      rw [taken,Assembly.publicTypes_acquire]
      exact unset
    rw [reads.types_eq,Assembly.types_of_cancelled stopped unset']
  · rw [types_of_unread unread]

theorem IsReady.running (h : IsReady w a e scope c) : (isCancelled e.token w).1 = false := by
  rw [← startMeter_cancelled c.compilation.serial]
  exact h.quiet.running

theorem IsReady.taken_eq (h : IsReady w a e scope c) :
    taken w e scope = e.assembly.acquire scope false := by
  rw [taken,h.running]

theorem IsReady.unset_acquire (h : IsReady w a e scope c) :
    (e.assembly.acquire scope false).publicTypes = none := by
  rw [Assembly.publicTypes_acquire]
  exact h.unset

theorem IsReady.held_acquire (h : IsReady w a e scope c) :
    ((e.assembly.acquire scope false).acquire scope false).context? = some c := by
  rw [Assembly.acquire_acquire]
  exact h.held

theorem IsReady.types_eq (h : IsReady w a e scope c) (includePrivate : Bool) :
    let serial := c.compilation.serial
    let places := c.graph.places (scope.trees false)
    (types a includePrivate w).1 =
      (TypeWalk.admitted c.graph (c.graph.admits includePrivate) places).eraseDups ∧
    (types a includePrivate w).2.visits serial = w.visits serial + places.length := by
  intro serial places
  have meter : meterOf w e.token (e.assembly.acquire scope false) = startMeter serial e.token w := by
    unfold meterOf
    rw [h.held]
  obtain ⟨found,after⟩ := Assembly.types_of_isQuiet h.held_acquire h.quiet h.unset_acquire
    includePrivate
  rw [h.reads.types_eq,h.taken_eq,meter]
  refine ⟨found,?_⟩
  have counted := Workbench.visits_settled h.held h.entered (w.visits serial + places.length)
  rw [after,startMeter_visits]
  exact counted

def alarmed (w : Workbench) (e : AssemblyEntry) (c : Context) (n : Nat) : Workbench :=
  (setAlarm c.compilation.serial (w.visits c.compilation.serial + n) e.token w).2

theorem IsReady.reads_alarmed (h : IsReady w a e scope c) (n : Nat) :
    Reads (alarmed w e c n) a e scope := by
  have same := @scope?_congr w (alarmed w e c n) rfl rfl e.scope
  exact ⟨h.reads.entered,same.trans h.reads.reached⟩

theorem IsReady.meter_alarmed (h : IsReady w a e scope c) (n : Nat) :
    meterOf (alarmed w e c n) e.token (e.assembly.acquire scope false) =
      { visits := w.visits c.compilation.serial
        alarm := some (w.visits c.compilation.serial + n) } := by
  have inside := h.entered
  have entered := List.getElem?_eq_getElem inside
  have visits : w.visits c.compilation.serial = w.journals[c.compilation.serial].visits := by
    rw [Workbench.visits,entered]
    rfl
  have journal : (alarmed w e c n).journals[c.compilation.serial]? =
      some { w.journals[c.compilation.serial] with
        alarm := some (w.visits c.compilation.serial + n,e.token) } :=
    (List.getElem?_modify_eq ..).trans (congrArg (Option.map _) entered)
  have running : (isCancelled e.token (alarmed w e c n)).1 = false := h.running
  unfold meterOf
  rw [h.held]
  unfold startMeter
  dsimp only
  rw [journal,running]
  simp [visits]

theorem IsReady.types_alarmed (h : IsReady w a e scope c) (includePrivate : Bool) {n : Nat}
    (positive : 1 ≤ n) (within : n ≤ (c.graph.places (scope.trees false)).length) :
    let cut := types a includePrivate (alarmed w e c n)
    cut.1 = (TypeWalk.admitted c.graph (c.graph.admits includePrivate)
      ((c.graph.places (scope.trees false)).take (n-1))).eraseDups ∧
    cut.2.visits c.compilation.serial = w.visits c.compilation.serial + n ∧
    (isCancelled e.token cut.2).1 ∧
    cut.2.assemblies[a.index]? = some { e with assembly := e.assembly.acquire scope false } := by
  intro cut
  have meter := h.meter_alarmed n
  have asked : taken (alarmed w e c n) e scope = e.assembly.acquire scope false := h.taken_eq
  have step := (h.reads_alarmed n).types_eq includePrivate
  have walk := @Assembly.types_of_alarm _ scope _ c h.held_acquire
    (congrArg Meter.cancelled meter) h.unset_acquire n (by rw [meter]) positive within includePrivate
  have follows := Assembly.types_follows (e.assembly.acquire scope false) scope includePrivate
    (meterOf (alarmed w e c n) e.token (e.assembly.acquire scope false))
  have known : e.token.index < (alarmed w e c n).tokens.length := h.known
  have entered : c.compilation.serial < (alarmed w e c n).journals.length :=
    Nat.lt_of_lt_of_eq h.entered (List.length_modify ..).symm
  rw [walk] at follows
  have cancelled := isCancelled_settled known follows
  have counted := Workbench.visits_settled h.held entered (w.visits c.compilation.serial + n)
  rw [asked] at step
  dsimp only at step
  rw [walk,meter,Assembly.acquire_acquire] at step
  rw [meter] at cancelled
  have answer : cut = _ := step
  rw [answer]
  refine ⟨rfl,counted,cancelled,?_⟩
  exact Workbench.entry_put (by rw [Workbench.assemblies_settled]; exact h.reads.entered) _

theorem unlisted_after (entered : w.assemblies[a.index]? = some e)
    (cancelled : (isCancelled e.token w).1) (unset : e.assembly.publicTypes = none)
    (later : List Action) :
    (∃ s, (w.after later).assemblies[a.index]? = some { e with assembly := s } ∧
      s.publicTypes = none) ∧
    ∀ includePrivate, (types a includePrivate (w.after later)).1 = [] := by
  have kept := Workbench.keeps_after w later
  obtain ⟨s,entered',stays⟩ := kept.entries entered
  have unset' := stays.unlisted cancelled unset
  exact ⟨⟨s,entered',unset'⟩,types_of_cancelled entered' (kept.cancelled cancelled) unset'⟩

/-- Let the token of an assembly fire just before the `n`-th question of a walk over its types. The
walk asks that question and no other, and lists what the questions before it find, in the order of the
whole list. No list is kept, and however the run goes on, the assembly keeps none and lists nothing. -/
theorem types_interrupted (w : Workbench) (a : AssemblyKey) (e : AssemblyEntry) (scope : Scope)
    (c : Context) (ready : IsReady w a e scope c) (includePrivate : Bool) :
    let g := c.graph
    let serial := c.compilation.serial
    let places := g.openPlaces (scope.trees false)
    let found := fun asked => (TypeWalk.admitted g (g.admits includePrivate) asked).eraseDups
    let whole := types a includePrivate w
    whole.1 = found places ∧ whole.2.visits serial = w.visits serial + places.length ∧
    ∀ n, 1 ≤ n → n ≤ places.length →
      let cut := types a includePrivate (setAlarm serial (w.visits serial + n) e.token w).2
      cut.2.visits serial = w.visits serial + n ∧
      cut.1 = found (places.take (n-1)) ∧ cut.1 <+: whole.1 ∧
      ∀ later,
        (∃ s, (cut.2.after later).assemblies[a.index]? = some { e with assembly := s } ∧
          s.publicTypes = none) ∧
        ∀ includePrivate', (types a includePrivate' (cut.2.after later)).1 = [] := by
  intro g serial places found whole
  have flat : g.places (scope.trees false) = places := Graph.places_eq_openPlaces ready.grown
  obtain ⟨all,visits⟩ := ready.types_eq includePrivate
  rw [flat] at all visits
  refine ⟨all,visits,?_⟩
  intro n positive within cut
  obtain ⟨part,visits',cancelled,entered⟩ := ready.types_alarmed includePrivate positive
    (by rw [flat]; exact within)
  rw [flat] at part
  have isPart : cut.1 <+: whole.1 := by
    have part' : cut.1 = found (places.take (n-1)) := part
    have all' : whole.1 = found places := all
    rw [part',all']
    exact TypeWalk.admitted_take_isPrefix places _
  have after := @unlisted_after cut.2 a { e with assembly := e.assembly.acquire scope false } entered
    cancelled ready.unset_acquire
  exact ⟨visits',part,isPart,after⟩

end Bench

/-! The calculator, whose walk of four questions is cut before the third. -/

def calculatorAssembly : Workbench :=
  (Bench.newAssembly (.project ⟨0⟩) ⟨0⟩ calculatorBench).2

theorem calculatorAssembly_ready :
    Bench.IsReady calculatorAssembly ⟨0⟩ { scope := .project ⟨0⟩, token := ⟨0⟩ }
      (.project calculatorProject) ⟨⟨0,calculatorGraph⟩,[]⟩ where
  reads := ⟨rfl,rfl⟩
  unset := rfl
  held := rfl
  entered := by decide
  known := by decide
  quiet := Meter.isQuiet_start
  grown := calculatorProject_grown

theorem Bench.types_interrupted_calculator :
    let cut := types ⟨0⟩ true (setAlarm 0 3 ⟨0⟩ calculatorAssembly).2
    IsReady calculatorAssembly ⟨0⟩ { scope := .project ⟨0⟩, token := ⟨0⟩ }
      (.project calculatorProject) ⟨⟨0,calculatorGraph⟩,[]⟩ ∧
    (types ⟨0⟩ true calculatorAssembly).1 = [⟨4⟩,⟨6⟩] ∧ cut.2.visits 0 = 3 ∧
    cut.1 = [⟨4⟩] ∧ (types ⟨0⟩ false (cut.2.after [])).1 = [] := by
  intro cut
  obtain ⟨-,-,interrupted⟩ := types_interrupted calculatorAssembly ⟨0⟩ _ _ _
    calculatorAssembly_ready true
  have within : 3 ≤ (calculatorGraph.openPlaces ((Scope.project calculatorProject).trees false)).length := by
    rw [← Graph.places_eq_openPlaces calculatorProject_grown]
    decide
  obtain ⟨asked,-,-,later⟩ := interrupted 3 (by decide) within
  refine ⟨calculatorAssembly_ready,?_,asked,?_,(later []).2 false⟩
  · cbv
  · cbv

end TestScout
