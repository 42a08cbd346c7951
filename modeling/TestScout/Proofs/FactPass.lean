import Mathlib
import TestScout.Proofs.BenchAnswers
import TestScout.Proofs.FactFindings
import TestScout.Proofs.PassReports
set_option autoImplicit false

namespace TestScout

namespace TestCase

/-- Of the required fields the full name is never blank, since it has a dot in it. -/
theorem isReportable_iff {t : TestCase} {left right : String}
    (dotted : t.fullyQualifiedName = left ++ "." ++ right) :
    t.isReportable ↔ ¬Text.isBlankText t.displayName ∧ ¬Text.isBlankText t.source ∧
      ¬Text.isBlankText t.executorUri := by
  have filled : Text.isBlankText t.fullyQualifiedName = false := by
    have dot : Text.isBlank '.' = false := by decide
    simp [dotted,Text.isBlankText,dot]
  simp [isReportable,blank?,RequiredField.all,RequiredField.of,filled,List.find?_eq_none]

end TestCase

namespace Facts

variable {g : Graph} {stamp : Stamp} {type method : SymbolId}

def testCase (g : Graph) (stamp : Stamp) (type method : SymbolId) : TestCase :=
  let name := g.qualifiedName type ++ "." ++ g.methodName method
  { fullyQualifiedName := name
    executorUri := stamp.executorUri
    source := stamp.source
    displayName := ((facts g method).head?.bind fun fact =>
      (g.namedArgumentAt? fact.owner fact.index "DisplayName").bind Argument.string?).getD name
    traits := (TraitGroups.ofPairs (traitsOn g type ++ traitsOn g method)).toPairs }

/-- A fact of a concrete type that is declared by an open node and visible outside, whose test has
no blank field. -/
structure IsTest (g : Graph) (trees : List SyntaxTree) (stamp : Stamp) (type method : SymbolId) :
    Prop where
  declared : ∃ t ∈ trees, ∃ node, t.IsOpen g node ∧ g.declaredType? t.document node = some type
  visible : ∀ around, g.NestedIn type around → g.isPublic around
  concrete : ¬g.isAbstract type
  listed : method ∈ g.methods false type
  fact : ∃ target, g.typeNamed? factName = some target ∧
    ∃ a ∈ (g.effective method).items, ∃ attributeClass, a.data.type = some attributeClass ∧
      g.isAssignable attributeClass target
  displayName : ¬Text.isBlankText (testCase g stamp type method).displayName
  source : ¬Text.isBlankText stamp.source
  executorUri : ¬Text.isBlankText stamp.executorUri

def candidates (g : Graph) (types : List SymbolId) : List (SymbolId × SymbolId) :=
  types.flatMap fun type => (g.methods false type).map fun method => (type,method)

theorem mem_candidates {types : List SymbolId} :
    (type,method) ∈ candidates g types ↔ type ∈ types ∧ method ∈ g.methods false type := by
  simp [candidates]

theorem facts_ne_nil_iff : facts g method ≠ [] ↔
    ∃ target, g.typeNamed? factName = some target ∧
      ∃ a ∈ (g.effective method).items, ∃ attributeClass, a.data.type = some attributeClass ∧
        g.isAssignable attributeClass target := by
  have parsed : AttributeTypeName.parse? factName = some ⟨factName,none⟩ := by decide
  unfold facts Graph.matching
  rw [parsed,Option.bind_some]
  cases g.typeNamed? factName with
  | none => simp
  | some target => simp [Option.any_eq_true]

theorem ofFinding_found? {f : Finding} (found : found? g type method = some f) :
    TestCase.ofFinding stamp f = testCase g stamp type method := by
  obtain ⟨fact,first,rfl⟩ := Option.map_eq_some_iff.1 found
  unfold testCase
  rw [first,Option.bind_some]
  unfold TestCase.ofFinding Finding.ofMethod Finding.testName displayName Graph.testName
  cases (g.namedArgumentAt? fact.owner fact.index "DisplayName").bind Argument.string? <;> rfl

def isReported (g : Graph) (stamp : Stamp) (type method : SymbolId) : Bool :=
  !(facts g method).isEmpty && (testCase g stamp type method).isReportable

theorem tests_of_methods (type : SymbolId) (methods : List SymbolId) :
    Pass.tests stamp (methods.filterMap (found? g type)) =
      (methods.filter (isReported g stamp type)).map (testCase g stamp type) := by
  induction methods with
  | nil => rfl
  | cons method rest ih =>
    cases found : found? g type method with
    | none =>
      have bare : facts g method = [] := by simpa [found?] using found
      have unreported : ¬isReported g stamp type method := by simp [isReported,bare]
      rw [List.filterMap_cons_none found,ih,List.filter_cons_of_neg unreported]
    | some f =>
      obtain ⟨fact,first,-⟩ := Option.map_eq_some_iff.1 found
      have carries : (facts g method).isEmpty = false := by
        cases h : facts g method <;> simp [h] at first ⊢
      have same : isReported g stamp type method = (testCase g stamp type method).isReportable := by
        simp [isReported,carries]
      have split : Pass.tests stamp (f :: rest.filterMap (found? g type)) =
          Pass.tests stamp [f] ++ Pass.tests stamp (rest.filterMap (found? g type)) :=
        Pass.tests_append [f] _
      rw [List.filterMap_cons_some found,split,ih,List.filter_cons,same]
      simp only [Pass.tests,List.map_singleton,ofFinding_found? found,List.filter_singleton]
      cases (testCase g stamp type method).isReportable <;> rfl

theorem isTest_iff {trees : List SyntaxTree} (grown : ∀ t ∈ trees, t.Grown)
    (declared : type ∈ g.declaredTypes trees) (listed : method ∈ g.methods false type) :
    IsTest g trees stamp type method ↔
      (g.isVisible type && !g.isAbstract type) ∧ isReported g stamp type method := by
  have blanks := @TestCase.isReportable_iff (testCase g stamp type method) (g.qualifiedName type)
    (g.methodName method) rfl
  have carries : (facts g method).isEmpty = false ↔ facts g method ≠ [] := by
    cases facts g method <;> simp
  rw [Bool.and_eq_true,g.isVisible_iff,isReported,Bool.and_eq_true,blanks,Bool.not_eq_true',
    Bool.not_eq_true',carries,facts_ne_nil_iff]
  constructor
  · intro test
    exact ⟨⟨test.visible,by simpa using test.concrete⟩,test.fact,test.displayName,test.source,
      test.executorUri⟩
  · intro ⟨⟨visible,concrete⟩,fact,displayName,source,executorUri⟩
    exact
      { declared := (Graph.mem_declaredTypes_iff grown type).1 declared
        visible, concrete := by simpa using concrete, listed, fact, displayName, source
        executorUri }

theorem findings_filter_cons (g : Graph) (type : SymbolId) (rest : List SymbolId) :
    findings g ((type :: rest).filter g.isVisible) =
      (if g.isVisible type && !g.isAbstract type then
        (g.methods false type).filterMap (found? g type) else []) ++
        findings g (rest.filter g.isVisible) := by
  cases visible : g.isVisible type with
  | false => rw [List.filter_cons_of_neg (by simp [visible])]; rfl
  | true =>
    rw [List.filter_cons_of_pos visible,findings_cons]
    cases g.isAbstract type <;> rfl

open Classical in
theorem tests_findings {trees : List SyntaxTree} (grown : ∀ t ∈ trees, t.Grown)
    (types : List SymbolId) (declared : ∀ type ∈ types, type ∈ g.declaredTypes trees) :
    Pass.tests stamp (findings g (types.filter g.isVisible)) =
      ((candidates g types).filter fun pair => IsTest g trees stamp pair.1 pair.2).map
        fun pair => testCase g stamp pair.1 pair.2 := by
  induction types with
  | nil => rfl
  | cons type rest ih =>
    have later := ih fun other member => declared other (List.mem_cons_of_mem _ member)
    have test : ∀ method ∈ g.methods false type, IsTest g trees stamp type method ↔
        (g.isVisible type && !g.isAbstract type) ∧ isReported g stamp type method :=
      fun method listed => isTest_iff grown (declared type List.mem_cons_self) listed
    have pairs : candidates g (type :: rest) =
        (g.methods false type).map (fun method => (type,method)) ++ candidates g rest := rfl
    rw [pairs,List.filter_append,List.map_append,← later,findings_filter_cons,Pass.tests_append,
      List.filter_map,List.map_map]
    congr 1
    -- The methods of a type that is not looked at are no tests, whatever they carry.
    cases looked : g.isVisible type && !g.isAbstract type with
    | true =>
      rw [if_pos rfl,tests_of_methods]
      have same : (g.methods false type).filter (isReported g stamp type) =
          (g.methods false type).filter fun method => IsTest g trees stamp type method :=
        List.filter_congr fun method listed => by simp [test method listed,looked]
      rw [same]
      rfl
    | false =>
      have none : ((g.methods false type).filter fun method =>
          IsTest g trees stamp type method) = [] :=
        List.filter_eq_nil_iff.2 fun method listed => by simp [test method listed,looked]
      rw [if_neg Bool.false_ne_true]
      exact (congrArg (List.map _) none).symm

theorem candidates_nodup {types : List SymbolId} (distinct : types.Nodup)
    (once : ∀ type, (g.methodStream true type).Nodup) : (candidates g types).Nodup := by
  rw [candidates,List.nodup_flatMap]
  constructor
  · intro type _
    exact (Graph.methods_nodup (once type) false).map fun _ _ same => (Prod.mk.inj same).2
  · refine distinct.imp fun apart => ?_
    intro pair left right
    obtain ⟨_,-,rfl⟩ := List.mem_map.1 left
    obtain ⟨_,-,same⟩ := List.mem_map.1 right
    exact apart (Prod.mk.inj same).1.symm

end Facts

namespace Bench

/-- The plan has the fact engine look through a scope that has this compilation and trees, and its
token is cancelled neither before the pass nor by the caller nor by an alarm of the compilation. -/
structure IsCalm (w : Workbench) (plan : PassPlan) (scope : Scope) (c : Compilation) : Prop where
  unscripted : plan.script = none
  unlimited : plan.limit = none
  reached : (scope? plan.scope w).1 = some scope
  allowed : scope.check plan.expected = .ok ()
  compiled : scope.compilation? false = some c
  grown : ∀ t ∈ scope.trees false, t.Grown
  running : (isCancelled plan.token w).1 = false
  silent : ∀ j visit, w.journals[c.serial]? = some j → j.alarm = some (visit,plan.token) →
    visit ≤ j.visits

theorem IsCalm.isQuiet {w : Workbench} {plan : PassPlan} {scope : Scope} {c : Compilation}
    (calm : IsCalm w plan scope c) : (startMeter c.serial plan.token w).IsQuiet := by
  have running := calm.running
  unfold startMeter
  cases found : w.journals[c.serial]? with
  | none => exact ⟨running,by simp⟩
  | some j =>
    refine ⟨running,?_⟩
    intro visit alarm
    obtain ⟨⟨number,token⟩,set_,own⟩ := Option.bind_eq_some_iff.1 alarm
    by_cases same : token = plan.token
    · simp only [same,if_true,Option.some.injEq] at own
      subst own same
      exact calm.silent j _ found set_
    · simp [same] at own

theorem IsCalm.playEngine {w : Workbench} {plan : PassPlan} {scope : Scope} {c : Compilation}
    (calm : IsCalm w plan scope c) :
    (playEngine plan scope w).1 =
      { pass := { inbox := { queue := Facts.findingsIn c.graph (scope.trees false), isFinished := true } } } := by
  have searched := searchFacts_answer calm.running calm.compiled
  obtain ⟨inbox,uncancelled⟩ := Facts.run_of_isQuiet calm.compiled calm.grown calm.isQuiet
  unfold Bench.playEngine
  rw [calm.unscripted]
  dsimp only
  rw [bind_eq,searched,inbox,uncancelled]
  rfl

theorem IsCalm.runPass? {w : Workbench} {plan : PassPlan} {scope : Scope} {c : Compilation}
    (calm : IsCalm w plan scope c) :
    (Bench.runPass? plan w).1 = some
      { outcome := .ok .completed
        reported := Pass.tests plan.stamp (Facts.findingsIn c.graph (scope.trees false))
        isStarted := true } := by
  let p : Pass := { inbox := { queue := Facts.findingsIn c.graph (scope.trees false), isFinished := true } }
  have running : p.IsRunning := ⟨rfl,rfl⟩
  have settled : p.settle? plan.stamp plan.limit = some (p.conclude plan.stamp) := by
    rw [calm.unlimited]
    exact Pass.settle?_of_finished rfl
  obtain ⟨reported,completed⟩ := @Pass.IsRunning.conclude plan.stamp p running
  unfold Bench.runPass?
  rw [bind_eq,scope?_snd,calm.reached]
  dsimp only
  rw [calm.allowed]
  dsimp only
  rw [bind_eq,calm.running,if_neg Bool.false_ne_true,bind_eq,isCancelled_eq,calm.playEngine]
  dsimp only
  rw [settled]
  dsimp only
  rw [completed,reported]
  split <;> rfl

open Classical in
/-- A pass of the fact engine that nothing cancels completes and reports the tests among the methods
of the declared types, in order and each once. It reports the same however its wakes fall between the
messages of the engine. -/
theorem runPass?_tests (w : Workbench) (plan : PassPlan) (scope : Scope) (c : Compilation)
    (calm : IsCalm w plan scope c) (once : ∀ type, (c.graph.methodStream true type).Nodup) :
    let types := (c.graph.declaredTypes (scope.trees false)).eraseDups
    let pairs := (Facts.candidates c.graph types).filter fun pair =>
      Facts.IsTest c.graph (scope.trees false) plan.stamp pair.1 pair.2
    let tests := pairs.map fun pair => Facts.testCase c.graph plan.stamp pair.1 pair.2
    (∃ result, (runPass? plan w).1 = some result ∧ result.outcome = .ok .completed ∧
      result.reported = tests) ∧
    pairs.Nodup ∧
    (∀ type method, (type,method) ∈ pairs ↔
      Facts.IsTest c.graph (scope.trees false) plan.stamp type method) ∧
    ∀ events, PassEvent.cancel ∉ events →
      Pass.messages events = (Facts.findingsIn c.graph (scope.trees false)).map .found ++ [.complete] →
      ((Pass.run plan.stamp {} events).conclude plan.stamp).reported = tests ∧
        ((Pass.run plan.stamp {} events).conclude plan.stamp).outcome = .completed := by
  intro types pairs tests
  have same : Pass.tests plan.stamp (Facts.findingsIn c.graph (scope.trees false)) = tests :=
    Facts.tests_findings calm.grown types fun type => List.mem_eraseDups.1
  refine ⟨⟨_,calm.runPass?,rfl,same⟩,?_,?_,?_⟩
  · exact (Facts.candidates_nodup (nodup_eraseDups _) once).filter _
  · intro type method
    rw [List.mem_filter,decide_eq_true_eq,Facts.mem_candidates,List.mem_eraseDups,
      Graph.mem_declaredTypes_iff calm.grown]
    exact ⟨And.right,fun test => ⟨⟨test.declared,test.listed⟩,test⟩⟩
  · intro events uncancelled sent
    obtain ⟨reported,completed⟩ := @Pass.conclude_run plan.stamp events uncancelled
    refine ⟨?_,completed⟩
    rw [reported,sent,Pass.foundIn_complete,same]

end Bench

def calculatorBench : Workbench where
  tokens := [false]
  journals := [{ compilation := ⟨0,calculatorGraph⟩ }]
  projects := [{ project := calculatorProject }]

def calculatorPlan : Bench.PassPlan where
  scope := .project ⟨0⟩
  token := ⟨0⟩
  expected := none
  stamp := ⟨"executor","Tests"⟩
  script := none
  limit := none

theorem calculatorPlan_calm :
    Bench.IsCalm calculatorBench calculatorPlan (.project calculatorProject) ⟨0,calculatorGraph⟩ where
  unscripted := rfl
  unlimited := rfl
  reached := rfl
  allowed := rfl
  compiled := rfl
  grown := calculatorProject_grown
  running := rfl
  silent j visit entered alarm := by
    obtain rfl := Option.some.inj entered
    simp at alarm

theorem calculatorGraph_once (type : SymbolId) : (calculatorGraph.methodStream true type).Nodup := by
  have derived : calculatorGraph.derived = [⟨3⟩,⟨4⟩,⟨6⟩] := by cbv
  by_cases member : type ∈ calculatorGraph.derived
  · rw [derived] at member
    simp only [List.mem_cons,List.not_mem_nil,or_false] at member
    have fact : calculatorGraph.methodStream true ⟨3⟩ = [] := by cbv
    have calculator : calculatorGraph.methodStream true ⟨4⟩ = [⟨5⟩] := by cbv
    have helper : calculatorGraph.methodStream true ⟨6⟩ = [] := by cbv
    rcases member with rfl | rfl | rfl
    · rw [fact]; exact List.nodup_nil
    · rw [calculator]; exact List.nodup_singleton _
    · rw [helper]; exact List.nodup_nil
  · have alone : calculatorGraph.lineage type = [] := trail_of_not_mem member
    rw [Graph.methodStream,alone]
    exact List.nodup_nil

theorem runPass?_tests_calculator :
    Bench.IsCalm calculatorBench calculatorPlan (.project calculatorProject) ⟨0,calculatorGraph⟩ ∧
    (∀ type, (calculatorGraph.methodStream true type).Nodup) ∧
    ∃ result, (Bench.runPass? calculatorPlan calculatorBench).1 = some result ∧
      result.outcome = .ok .completed ∧
      result.reported =
        [{ fullyQualifiedName := "Calculator.Adds", executorUri := "executor", source := "Tests",
           displayName := "Calculator.Adds" }] := by
  obtain ⟨⟨result,answer,completed,-⟩,-⟩ := Bench.runPass?_tests calculatorBench calculatorPlan
    (.project calculatorProject) ⟨0,calculatorGraph⟩ calculatorPlan_calm calculatorGraph_once
  have evaluated : ((Bench.runPass? calculatorPlan calculatorBench).1.map fun r => r.reported) =
      some [{ fullyQualifiedName := "Calculator.Adds", executorUri := "executor", source := "Tests",
              displayName := "Calculator.Adds" }] := by
    cbv
  rw [answer] at evaluated
  exact ⟨calculatorPlan_calm,calculatorGraph_once,result,answer,completed,Option.some.inj evaluated⟩

end TestScout
