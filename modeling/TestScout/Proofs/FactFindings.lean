import TestScout.Finding.Facts
import TestScout.Proofs.Overrides
import TestScout.Proofs.QueryAnswers
import TestScout.Proofs.TypeEnumeration
set_option autoImplicit false

namespace TestScout

namespace Inbox

theorem receive_found {i : Inbox} (opened : i.isClosed = false) (f : Finding) :
    i.receive (.found f) = (true,{ i with queue := i.queue ++ [f] }) := by
  simp [receive,opened]

end Inbox

namespace Facts

variable {g : Graph}

def traits (g : Graph) (attributes : List Applied) : List (String × String) :=
  (attributes.filter fun a => !(g.matchingOnType a.owner a.index traitDiscovererName).isEmpty).filterMap
    fun a => traitOf? (g.argumentsAt a.owner a.index)

def traitsOn (g : Graph) (id : SymbolId) : List (String × String) :=
  traits g (g.matching id traitName)

def facts (g : Graph) (method : SymbolId) : List Applied :=
  g.matching method factName

def found? (g : Graph) (type method : SymbolId) : Option Finding :=
  (facts g method).head?.map fun fact =>
    { Finding.ofMethod g type method (displayName g type method fact) with
      traits := TraitGroups.ofPairs (traitsOn g type ++ traitsOn g method) }

def findings (g : Graph) (types : List SymbolId) : List Finding :=
  (types.filter fun type => !g.isAbstract type).flatMap fun type =>
    (g.methods false type).filterMap (found? g type)

theorem findings_cons (g : Graph) (type : SymbolId) (rest : List SymbolId) :
    findings g (type :: rest) =
      (if g.isAbstract type then [] else (g.methods false type).filterMap (found? g type)) ++
        findings g rest := by
  cases abstract_ : g.isAbstract type <;> simp [findings,abstract_]

noncomputable def findingsIn (g : Graph) (trees : List SyntaxTree) : List Finding :=
  findings g ((g.declaredTypes trees).eraseDups.filter g.isVisible)

theorem answers_traitsOf (attributes : List Applied) :
    Query.Answers g (traitsOf g attributes) (traits g attributes) := by
  induction attributes with
  | nil => exact Query.answers_pure []
  | cons a rest ih =>
    refine (Query.answers_matchingOnType a.owner a.index traitDiscovererName).bind (ih.bind ?_)
    cases undiscovered : (g.matchingOnType a.owner a.index traitDiscovererName).isEmpty with
    | true =>
      have same : traits g (a :: rest) = traits g rest := by simp [traits,undiscovered]
      rw [same]
      exact Query.answers_pure _
    | false =>
      have same : traits g (a :: rest) =
          (traitOf? (g.argumentsAt a.owner a.index)).toList ++ traits g rest := by
        cases h : traitOf? (g.argumentsAt a.owner a.index) <;> simp [traits,undiscovered,h]
      rw [same]
      exact Query.answers_pure _

theorem answers_traitsAt (id : SymbolId) : Query.Answers g (traitsAt g id) (traitsOn g id) :=
  (Query.answers_matching id traitName).bind (answers_traitsOf _)

theorem answers_finding? (type method : SymbolId) :
    Query.Answers g (finding? g type (traitsOn g type) method) (found? g type method) := by
  refine (Query.answers_matching method factName).bind ?_
  unfold found? facts
  cases g.matching method factName with
  | nil => exact Query.answers_pure none
  | cons fact rest => exact (answers_traitsAt method).bind (Query.answers_pure _)

theorem answers_sendMethods (type : SymbolId) (methods : List SymbolId) {inbox : Inbox}
    (opened : inbox.isClosed = false) :
    Query.Answers g (sendMethods g type (traitsOn g type) methods inbox)
      (true,{ inbox with queue := inbox.queue ++ methods.filterMap (found? g type) }) := by
  induction methods generalizing inbox with
  | nil =>
    simp only [List.filterMap_nil,List.append_nil]
    exact Query.answers_pure _
  | cons method rest ih =>
    refine (answers_finding? type method).bind ?_
    cases h : found? g type method with
    | none =>
      rw [List.filterMap_cons_none h]
      exact ih opened
    | some f =>
      have later := @ih { inbox with queue := inbox.queue ++ [f] } opened
      rw [List.append_assoc,List.singleton_append,← List.filterMap_cons_some h] at later
      simp only [Inbox.receive_found opened]
      exact later

theorem answers_sendTypes (types : List SymbolId) {inbox : Inbox} (opened : inbox.isClosed = false) :
    Query.Answers g (sendTypes g types inbox)
      (true,{ inbox with queue := inbox.queue ++ findings g types }) := by
  induction types generalizing inbox with
  | nil =>
    simp only [findings,List.filter_nil,List.flatMap_nil,List.append_nil]
    exact Query.answers_pure _
  | cons type rest ih =>
    unfold sendTypes
    rw [findings_cons,← List.append_assoc]
    cases g.isAbstract type with
    | true =>
      simp only [if_true,List.append_nil]
      exact ih opened
    | false =>
      refine (answers_traitsAt type).bind ?_
      refine (answers_sendMethods type (g.methods false type) opened).bind ?_
      exact @ih { inbox with queue := _ } opened

theorem answers_send (types : List SymbolId) :
    Query.Answers g (send types {} g) { queue := findings g types, isFinished := true } :=
  (answers_sendTypes types rfl).bind (Query.answers_pure _)

/-- A run of the engine that nothing cancels sends what it finds in the public types and finishes. -/
theorem run_of_isQuiet {scope : Scope} {c : Compilation} {m : Meter}
    (compiled : scope.compilation? false = some c) (grown : ∀ t ∈ scope.trees false, t.Grown)
    (quiet : m.IsQuiet) :
    (run {} scope m {}).inbox =
      { queue := findingsIn c.graph (scope.trees false), isFinished := true } ∧
    (run {} scope m {}).meter.cancelled = false := by
  have fresh := Assembly.acquire_fresh compiled
  have taken : (({} : Assembly).acquire scope false).context? = some ⟨c,[]⟩ := by
    rw [fresh]
    rfl
  have graph : (({} : Assembly).acquire scope false).context?.map Context.graph = some c.graph := by
    rw [taken]
    rfl
  obtain ⟨shown,held,after⟩ := Assembly.types_public_of_isQuiet graph rfl grown quiet
  rw [taken] at held
  constructor
  · have answer := (@answers_send c.graph
      (({} : Assembly).types scope false m).1 {} (Memory.isTrueTo_empty c.graph [])).1
    rw [shown] at answer
    simp only [run,Assembly.query,held,shown]
    exact answer
  · exact after.running

end Facts

end TestScout
