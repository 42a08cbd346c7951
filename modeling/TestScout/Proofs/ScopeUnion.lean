import TestScout.Proofs.FactPass
import TestScout.Proofs.WalkUnderAlarm
set_option autoImplicit false

namespace TestScout

theorem TypeWalk.admitted_flatMap {α : Type} {g : Graph} {admits : SymbolId → Bool}
    (f : α → List (DocumentId × NodeId)) (list : List α) :
    admitted g admits (list.flatMap f) = list.flatMap fun a => admitted g admits (f a) := by
  induction list with
  | nil => rfl
  | cons a rest ih => rw [List.flatMap_cons,List.flatMap_cons,admitted_append,ih]

namespace Facts

variable {g : Graph} {type : SymbolId}

def findingsOf (g : Graph) (type : SymbolId) : List Finding :=
  findings g ([type].filter g.isVisible)

theorem type_of_mem_findingsOf {f : Finding} (member : f ∈ findingsOf g type) : f.type = type := by
  unfold findingsOf findings at member
  obtain ⟨other,listed,given⟩ := List.mem_flatMap.1 member
  obtain rfl := List.mem_singleton.1 (List.mem_filter.1 (List.mem_filter.1 listed).1).1
  obtain ⟨method,-,found⟩ := List.mem_filterMap.1 given
  obtain ⟨fact,-,rfl⟩ := Option.map_eq_some_iff.1 found
  rfl

theorem findings_filter_isVisible (g : Graph) (types : List SymbolId) :
    findings g (types.filter g.isVisible) = types.flatMap (findingsOf g) := by
  induction types with
  | nil => rfl
  | cons type rest ih =>
    have split : (type :: rest).filter g.isVisible =
        [type].filter g.isVisible ++ rest.filter g.isVisible := by
      rw [← List.filter_append]
      rfl
    rw [split,List.flatMap_cons,← ih]
    simp [findings,findingsOf]

theorem flatMap_findingsOf_filter (keeps : SymbolId → Bool) (types : List SymbolId) :
    (types.filter keeps).flatMap (findingsOf g) =
      (types.flatMap (findingsOf g)).filter fun f => keeps f.type := by
  induction types with
  | nil => rfl
  | cons type rest ih =>
    have same : (findingsOf g type).filter (fun f => keeps f.type) =
        if keeps type then findingsOf g type else [] := by
      have own : (findingsOf g type).filter (fun f => keeps f.type) =
          (findingsOf g type).filter fun _ => keeps type :=
        List.filter_congr fun f member => by rw [type_of_mem_findingsOf member]
      rw [own]
      cases keeps type <;> simp
    rw [List.filter_cons,List.flatMap_cons,List.filter_append,same,← ih]
    cases keeps type <;> simp

end Facts

namespace Assembly

variable {scope : Scope} {m : Meter}

theorem types_fresh (scope : Scope) (includePrivate : Bool) (quiet : m.IsQuiet) :
    (({} : Assembly).types scope includePrivate m).1 =
      (scope.compilation? false).elim [] fun c =>
        (TypeWalk.admitted c.graph (c.graph.admits includePrivate)
          (c.graph.places (scope.trees false))).eraseDups := by
  cases found : scope.compilation? false with
  | none =>
    rw [types_of_unset rfl,quiet.running]
    simp [collect,acquire,context?,found]
  | some c =>
    have held : (({} : Assembly).acquire scope false).context? = some ⟨c,[]⟩ := by
      rw [acquire_fresh found]
      rfl
    exact (types_of_isQuiet held quiet rfl includePrivate).1

end Assembly

namespace Project

variable {p : Project}

def part (p : Project) (d : Document) : Scope :=
  .document d (some p)

theorem trees_eq_flatMap (p : Project) :
    (Scope.project p).trees false = p.documents.flatMap fun d => (p.part d).trees false := by
  simp only [part,Scope.trees]
  exact List.filterMap_eq_flatMap_toList _ _

theorem places_eq_flatMap (g : Graph) (p : Project) :
    g.places ((Scope.project p).trees false) =
      p.documents.flatMap fun d => g.places ((p.part d).trees false) := by
  unfold Graph.places
  rw [trees_eq_flatMap,List.flatMap_assoc]

theorem declaredTypes_eq_flatMap (g : Graph) (p : Project) :
    g.declaredTypes ((Scope.project p).trees false) =
      p.documents.flatMap fun d => g.declaredTypes ((p.part d).trees false) := by
  unfold Graph.declaredTypes
  rw [trees_eq_flatMap,List.flatMap_assoc]

theorem types_union (p : Project) (includePrivate : Bool) (m : Meter) (ms : Document → Meter)
    (quiet : m.IsQuiet) (quiets : ∀ d ∈ p.documents, (ms d).IsQuiet) :
    (({} : Assembly).types (.project p) includePrivate m).1 =
      (p.documents.flatMap fun d =>
        (({} : Assembly).types (p.part d) includePrivate (ms d)).1).eraseDups := by
  have parts : (p.documents.flatMap fun d =>
        (({} : Assembly).types (p.part d) includePrivate (ms d)).1) =
      p.documents.flatMap fun d => ((Scope.project p).compilation? false).elim [] fun c =>
        (TypeWalk.admitted c.graph (c.graph.admits includePrivate)
          (c.graph.places ((p.part d).trees false))).eraseDups :=
    List.flatMap_congr fun d member => Assembly.types_fresh (p.part d) includePrivate (quiets d member)
  rw [Assembly.types_fresh (.project p) includePrivate quiet,parts]
  cases (Scope.project p).compilation? false with
  | none =>
    have nothing : (p.documents.flatMap fun _ => ([] : List SymbolId)) = [] :=
      List.flatMap_eq_nil_iff.2 fun _ _ => rfl
    simp only [Option.elim_none,nothing,List.eraseDups_nil]
  | some c =>
    rw [Option.elim_some,places_eq_flatMap,TypeWalk.admitted_flatMap]
    exact (eraseDups_flatMap_eraseDups _ _).symm

/-- What there is to find in a project is what there is to find in its documents, without the
findings in types that an earlier document declares. -/
theorem findingsIn_eq_flatMap (g : Graph) (p : Project) :
    Facts.findingsIn g ((Scope.project p).trees false) =
      p.documents.zipIdx.flatMap fun entry : Document × Nat =>
        (Facts.findingsIn g ((p.part entry.1).trees false)).filter fun f => decide
          (∀ e ∈ p.documents.take entry.2, f.type ∉ g.declaredTypes ((p.part e).trees false)) := by
  unfold Facts.findingsIn
  simp only [Facts.findings_filter_isVisible]
  rw [declaredTypes_eq_flatMap,eraseDups_flatMap,List.flatMap_assoc]
  exact List.flatMap_congr fun entry _ => Facts.flatMap_findingsOf_filter _ _

open Bench in
/-- A project lists the types of its documents one after the other, each where it comes first. A pass
over it reports what the passes over its documents report, but the tests of a type only at the first
document that declares it. -/
theorem union_of_documents (p : Project) :
    let listed (d : Document) (includePrivate : Bool) (m : Meter) :=
      (({} : Assembly).types (p.part d) includePrivate m).1
    let sent (d : Document) := (Facts.run {} (p.part d) {} {}).inbox.queue
    let kept := p.documents.zipIdx.flatMap fun entry : Document × Nat =>
      (sent entry.1).filter fun f =>
        decide (∀ e ∈ p.documents.take entry.2, f.type ∉ listed e true {})
    (∀ (includePrivate : Bool) (m : Meter) (ms : Document → Meter), m.IsQuiet →
      (∀ d ∈ p.documents, (ms d).IsQuiet) →
      (({} : Assembly).types (.project p) includePrivate m).1 =
        (p.documents.flatMap fun d => listed d includePrivate (ms d)).eraseDups) ∧
    ∀ (w : Workbench) (plan : PassPlan) (ws : Document → Workbench) (plans : Document → PassPlan)
      (c : Compilation), IsCalm w plan (.project p) c →
      (∀ d ∈ p.documents, IsCalm (ws d) (plans d) (p.part d) c ∧ (plans d).stamp = plan.stamp) →
      (∀ d ∈ p.documents, ∃ result, (runPass? (plans d) (ws d)).1 = some result ∧
        result.outcome = .ok .completed ∧ result.reported = Pass.tests plan.stamp (sent d)) ∧
      ∃ result, (runPass? plan w).1 = some result ∧
        result.outcome = .ok .completed ∧ result.reported = Pass.tests plan.stamp kept := by
  intro listed sent kept
  refine ⟨types_union p,?_⟩
  intro w plan ws plans c calm calms
  have sends : ∀ d ∈ p.documents, sent d = Facts.findingsIn c.graph ((p.part d).trees false) := by
    intro d member
    have calm' := (calms d member).1
    have run := (Facts.run_of_isQuiet calm'.compiled calm'.grown Meter.isQuiet_start).1
    simp only [sent,run]
  have declares : ∀ e ∈ p.documents, ∀ type,
      type ∈ listed e true {} ↔ type ∈ c.graph.declaredTypes ((p.part e).trees false) := by
    intro e member type
    have calm' := (calms e member).1
    have taken : (({} : Assembly).acquire (p.part e) false).context?.map Context.graph =
        some c.graph := by
      rw [Assembly.acquire_fresh calm'.compiled]
      rfl
    have exactly := (Assembly.types_all_of_isQuiet taken calm'.grown Meter.isQuiet_start).1
    simp only [listed,exactly,List.mem_eraseDups]
  have whole : Facts.findingsIn c.graph ((Scope.project p).trees false) = kept := by
    rw [findingsIn_eq_flatMap]
    refine List.flatMap_congr fun entry member => ?_
    have inside : entry.1 ∈ p.documents := List.fst_mem_of_mem_zipIdx member
    rw [sends entry.1 inside]
    refine List.filter_congr fun f _ => decide_eq_decide.2 ?_
    -- A finding is left out on account of its type alone.
    refine forall₂_congr fun e earlier => not_congr ?_
    exact (declares e (List.mem_of_mem_take earlier) f.type).symm
  constructor
  · intro d member
    obtain ⟨calm',stamp⟩ := calms d member
    exact ⟨_,calm'.runPass?,rfl,by rw [stamp,sends d member]⟩
  · exact ⟨_,calm.runPass?,rfl,by rw [whole]⟩

end Project

/-! A project with the calculator and its class in a third part, in a document that also declares a
scanner, and with a document that was not parsed. -/

def scannerGraph : Graph :=
  { calculatorGraph with
    symbols := calculatorGraph.symbols ++
      [{ Symbol.ofName .namedType "Scanner" .cSharp with
         accessibility := .publicAccess, containing := some ⟨1⟩, baseType := some ⟨2⟩,
         members := [⟨8⟩] },
       { Symbol.ofName .method "Scans" .cSharp with
         accessibility := .publicAccess, containing := some ⟨7⟩,
         attributes := [{ type := some ⟨3⟩ }] }]
    names := (⟨7⟩,"Scanner") :: calculatorGraph.names
    declarations := ((⟨1⟩,⟨1⟩),⟨4⟩) :: ((⟨1⟩,⟨2⟩),⟨7⟩) :: calculatorGraph.declarations }

def scannerTree : SyntaxTree :=
  let t : SyntaxTree := { document := ⟨1⟩, path := "Scanner" }
  let t := (t.addNode SyntaxTree.root .typeDeclaration).2
  (t.addNode SyntaxTree.root .typeDeclaration).2

def scannerProject : Project where
  id := ⟨0⟩
  name := "Tests"
  compilation := some ⟨0,scannerGraph⟩
  documents :=
    [Document.ofTree calculatorTree,{ id := ⟨2⟩, path := "Notes", tree := none },
     Document.ofTree scannerTree]

def scannerBench : Workbench where
  tokens := [false]
  journals := [{ compilation := ⟨0,scannerGraph⟩ }]
  projects := [{ project := scannerProject }]

theorem scannerTree_grown : scannerTree.Grown :=
  .addNode _ _ (.addNode _ _ (.start ⟨1⟩ "Scanner"))

theorem scannerProject_grown :
    ∀ t ∈ (Scope.project scannerProject).trees false, t.Grown := by
  intro t member
  have parsed : (Scope.project scannerProject).trees false = [calculatorTree,scannerTree] := rfl
  rw [parsed,List.mem_cons,List.mem_singleton] at member
  rcases member with rfl | rfl
  · exact calculatorTree_grown
  · exact scannerTree_grown

def scannerPlan (scope : ScopeKey) : Bench.PassPlan :=
  { calculatorPlan with scope }

theorem scannerPlan_calm {key : ScopeKey} {scope : Scope}
    (reached : (Bench.scope? key scannerBench).1 = some scope)
    (compiled : scope.compilation? false = some ⟨0,scannerGraph⟩)
    (grown : ∀ t ∈ scope.trees false, t.Grown) :
    Bench.IsCalm scannerBench (scannerPlan key) scope ⟨0,scannerGraph⟩ where
  unscripted := rfl
  unlimited := rfl
  reached := reached
  allowed := rfl
  compiled := compiled
  grown := grown
  running := rfl
  silent j visit entered alarm := by
    obtain rfl := Option.some.inj entered
    simp at alarm

theorem union_of_documents_scanner :
    let calculator : TestCase :=
      { fullyQualifiedName := "Calculator.Adds", executorUri := "executor", source := "Tests",
        displayName := "Calculator.Adds" }
    let scanner : TestCase :=
      { fullyQualifiedName := "Scanner.Scans", executorUri := "executor", source := "Tests",
        displayName := "Scanner.Scans" }
    (scannerProject.documents.map fun d =>
      (({} : Assembly).types (scannerProject.part d) true {}).1) = [[⟨4⟩,⟨6⟩],[],[⟨4⟩,⟨7⟩]] ∧
    (({} : Assembly).types (.project scannerProject) true {}).1 = [⟨4⟩,⟨6⟩,⟨7⟩] ∧
    (∃ result, (Bench.runPass? (scannerPlan (.document (Document.ofTree scannerTree) ⟨0⟩))
      scannerBench).1 = some result ∧ result.outcome = .ok .completed ∧
      result.reported = [calculator,scanner]) ∧
    ∃ result, (Bench.runPass? (scannerPlan (.project ⟨0⟩)) scannerBench).1 = some result ∧
      result.outcome = .ok .completed ∧ result.reported = [calculator,scanner] := by
  intro calculator scanner
  obtain ⟨types,passes⟩ := Project.union_of_documents scannerProject
  have calm : Bench.IsCalm scannerBench (scannerPlan (.project ⟨0⟩)) (.project scannerProject)
      ⟨0,scannerGraph⟩ := scannerPlan_calm rfl rfl scannerProject_grown
  have calms : ∀ d ∈ scannerProject.documents, Bench.IsCalm scannerBench
      (scannerPlan (.document d ⟨0⟩)) (scannerProject.part d) ⟨0,scannerGraph⟩ := by
    intro d member
    refine scannerPlan_calm rfl rfl fun t inside => scannerProject_grown t ?_
    rw [Project.trees_eq_flatMap]
    exact List.mem_flatMap.2 ⟨d,member,inside⟩
  obtain ⟨parts,result,answer,completed,-⟩ := passes scannerBench (scannerPlan (.project ⟨0⟩))
    (fun _ => scannerBench) (fun d => scannerPlan (.document d ⟨0⟩)) ⟨0,scannerGraph⟩ calm
    fun d member => ⟨calms d member,rfl⟩
  obtain ⟨result',answer',completed',-⟩ := parts (Document.ofTree scannerTree) (by simp [scannerProject])
  have listed : (scannerProject.documents.map fun d =>
      (({} : Assembly).types (scannerProject.part d) true {}).1) = [[⟨4⟩,⟨6⟩],[],[⟨4⟩,⟨7⟩]] := by
    cbv
  have reports : ((Bench.runPass? (scannerPlan (.project ⟨0⟩)) scannerBench).1.map fun r =>
      r.reported) = some [calculator,scanner] := by
    cbv
  have reports' : ((Bench.runPass? (scannerPlan (.document (Document.ofTree scannerTree) ⟨0⟩))
      scannerBench).1.map fun r => r.reported) = some [calculator,scanner] := by
    cbv
  rw [answer] at reports
  rw [answer'] at reports'
  have union := types true {} (fun _ => {}) Meter.isQuiet_start fun _ _ => Meter.isQuiet_start
  rw [List.flatMap_def,listed] at union
  exact ⟨listed,union,⟨result',answer',completed',Option.some.inj reports'⟩,
    result,answer,completed,Option.some.inj reports⟩

end TestScout
