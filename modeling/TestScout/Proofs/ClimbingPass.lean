import TestScout.Proofs.ArgumentShape
import TestScout.Proofs.Climb
import TestScout.Proofs.FactFindings
set_option autoImplicit false

/-!
The search for facts with every climb along containing symbols taken step by step. It gives what the
search gives, or nothing at all if one of its climbs is not over in time, and so never anything for a
graph where a climb runs in a circle.
-/

namespace TestScout

namespace TypeWalk

variable {g : Graph} {admits : SymbolId → Bool} {admits? : SymbolId → Option Bool} {w w' : TypeWalk}
  {document : DocumentId} {f : Forest}

/-- The walk over the nodes of one document, where `admits?` may fail to come to an answer. -/
def visit? (g : Graph) (admits? : SymbolId → Option Bool) (document : DocumentId) :
    Forest → TypeWalk → Option TypeWalk
  | .nil, w => some w
  | .cons node _ children rest, w =>
    if w.meter.cancelled then some w
    else
      let (declared,meter) := w.meter.declared? g document node
      let w := { w with meter }
      match declared with
      | none => visit? g admits? document rest w
      | some id =>
        match g.symbol? id with
        | none => visit? g admits? document rest w
        | some s =>
          (if s.isType then admits? id else some false).bind fun admitted =>
            let w := if admitted then w.enter id else w
            (if s.kind.isNamespaceOrType then visit? g admits? document children w else some w).bind
              (visit? g admits? document rest)

def visitTrees? (g : Graph) (admits? : SymbolId → Option Bool) :
    List SyntaxTree → TypeWalk → Option TypeWalk
  | [], w => some w
  | t :: rest, w => (visit? g admits? t.document t.top w).bind (visitTrees? g admits? rest)

theorem visit?_eq (sound : ∀ id answer, admits? id = some answer → admits id = answer)
    (ends : visit? g admits? document f w = some w') : visit g admits document f w = w' := by
  induction f generalizing w w' with
  | nil => exact Option.some.inj ends
  | cons node kind children rest hc hr =>
    unfold visit? at ends
    unfold visit
    split at ends
    · next cancelled =>
      rw [if_pos cancelled]
      exact Option.some.inj ends
    · next running =>
      rw [if_neg running]
      rcases asked : w.meter.declared? g document node with ⟨_ | id,meter⟩
      · simp only [asked] at ends ⊢
        exact hr ends
      · cases found : g.symbol? id with
        | none =>
          simp only [asked,found] at ends ⊢
          exact hr ends
        | some s =>
          simp only [asked,found] at ends ⊢
          obtain ⟨admitted,answer,ends⟩ := Option.bind_eq_some_iff.1 ends
          obtain ⟨below,walked,ends⟩ := Option.bind_eq_some_iff.1 ends
          have same : (s.isType && admits id) = admitted := by
            split at answer
            · next type => simpa [type] using sound id admitted answer
            · next other => simpa [other] using answer
          rw [same,← hr ends]
          split at walked
          · next enters => rw [if_pos enters,hc walked]
          · next passes => rw [if_neg passes,Option.some.inj walked]

theorem visit?_isSome
    (answers : ∀ node ∈ f.reached (g.opens document), ∀ type, g.declaredType? document node = some type →
      (admits? type).isSome) (w : TypeWalk) : (visit? g admits? document f w).isSome := by
  induction f generalizing w with
  | nil => rfl
  | cons node kind children rest hc hr =>
    have later := hr fun n member => answers n (by simp [Forest.reached,member])
    unfold visit?
    split
    · rfl
    · rcases asked : w.meter.declared? g document node with ⟨_ | id,meter⟩
      · exact later _
      · have declares : g.declared? document node = some id := by
          simp only [Meter.declared?] at asked
          split at asked <;> simp_all
        cases found : g.symbol? id with
        | none => simpa only [found] using later _
        | some s =>
          simp only [found]
          -- Only of a type it matters whether it is let through.
          have answered : (if s.isType then admits? id else some false).isSome := by
            split
            · next type =>
              refine answers node List.mem_cons_self id ?_
              simp [Graph.declaredType?,declares,Graph.isType,found,type]
            · rfl
          obtain ⟨admitted,answer⟩ := Option.isSome_iff_exists.1 answered
          rw [answer,Option.bind_some]
          have below : ∀ w : TypeWalk, (if s.kind.isNamespaceOrType then
              visit? g admits? document children w else some w).isSome := by
            intro w
            split
            · next enters =>
              have opens : g.opens document node := by simp [Graph.opens,declares,found,enters]
              exact hc (fun n member => answers n (by simp [Forest.reached,opens,member])) w
            · rfl
          obtain ⟨w',walked⟩ := Option.isSome_iff_exists.1 (below (if admitted then _ else _))
          rw [walked]
          exact later w'

theorem visit?_eq_none {node : NodeId} {kind : NodeKind} {children rest : Forest} {type : SymbolId}
    (running : w.meter.tick.cancelled = false) (declares : g.declaredType? document node = some type)
    (unanswered : admits? type = none) :
    visit? g admits? document (.cons node kind children rest) w = none := by
  have before : w.meter.cancelled = false := (Bool.or_eq_false_iff.1 running).1
  obtain ⟨declared,isType⟩ := Option.filter_eq_some_iff.1 declares
  obtain ⟨s,found,isType⟩ := (Option.any_eq_true _ _).1 isType
  simp [visit?,before,Meter.declared?,running,declared,found,isType,unanswered]

theorem visitTrees?_eq (sound : ∀ id answer, admits? id = some answer → admits id = answer)
    {trees : List SyntaxTree} (ends : visitTrees? g admits? trees w = some w') :
    visitTrees g admits trees w = w' := by
  induction trees generalizing w with
  | nil => exact Option.some.inj ends
  | cons t rest ih =>
    obtain ⟨w₁,walked,ends⟩ := Option.bind_eq_some_iff.1 ends
    rw [visitTrees,List.foldl_cons,visit?_eq sound walked]
    exact ih ends

theorem visitTrees?_isSome {trees : List SyntaxTree}
    (answers : ∀ place ∈ g.places trees, ∀ type, g.declaredType? place.1 place.2 = some type →
      (admits? type).isSome) (w : TypeWalk) : (visitTrees? g admits? trees w).isSome := by
  induction trees generalizing w with
  | nil => rfl
  | cons t rest ih =>
    have first : (visit? g admits? t.document t.top w).isSome :=
      visit?_isSome (fun node member => answers (t.document,node) (by simp [Graph.places,member])) w
    obtain ⟨w₁,walked⟩ := Option.isSome_iff_exists.1 first
    rw [visitTrees?,walked]
    refine ih (fun place member => answers place ?_) w₁
    rw [Graph.places,List.flatMap_cons]
    exact List.mem_append_right _ member

end TypeWalk

namespace Assembly

variable {steps : Nat} {a : Assembly} {scope : Scope} {m : Meter}

def collectWithin (steps : Nat) (a : Assembly) (scope : Scope) (m : Meter) :
    Option (List SymbolId × Meter) :=
  match a.context? with
  | none => some ([],m)
  | some c =>
    (TypeWalk.visitTrees? c.graph (c.graph.isVisibleWithin steps) (scope.trees m.cancelled)
      { meter := m }).map fun w => (w.found,w.meter)

def publicTypesWithin (steps : Nat) (a : Assembly) (scope : Scope) (m : Meter) :
    Option (List SymbolId × Assembly × Meter) :=
  let a := a.acquire scope m.cancelled
  match a.publicTypes with
  | some types => some (types,a,m)
  | none =>
    (a.collectWithin steps scope m).map fun (types,m) =>
      (types,if m.cancelled then a else { a with publicTypes := some types },m)

theorem collectWithin_eq {answer : List SymbolId × Meter}
    (ends : a.collectWithin steps scope m = some answer) : a.collect scope false m = answer := by
  unfold collectWithin at ends
  unfold collect
  cases held : a.context? with
  | none =>
    simp only [held] at ends ⊢
    exact Option.some.inj ends
  | some c =>
    simp only [held] at ends ⊢
    obtain ⟨w,walked,rfl⟩ := Option.map_eq_some_iff.1 ends
    have sound : ∀ id answer, c.graph.isVisibleWithin steps id = some answer →
        c.graph.admits false id = answer := by
      intro id answer climbed
      simpa [Graph.admits] using Graph.isVisibleWithin_eq climbed
    rw [TypeWalk.visitTrees?_eq sound walked]

theorem publicTypesWithin_eq {answer : List SymbolId × Assembly × Meter}
    (ends : a.publicTypesWithin steps scope m = some answer) : a.types scope false m = answer := by
  unfold publicTypesWithin at ends
  unfold types
  cases kept : a.publicTypes with
  | some types => simpa [kept] using ends
  | none =>
    simp only [publicTypes_acquire,kept] at ends
    obtain ⟨⟨types,m'⟩,collected,rfl⟩ := Option.map_eq_some_iff.1 ends
    simp [kept,collectWithin_eq collected]

theorem publicTypesWithin_isSome {c : Compilation} (compiled : scope.compilation? false = some c)
    (grown : ∀ t ∈ scope.trees false, t.Grown) (running : m.cancelled = false)
    (many : c.graph.symbols.length ≤ steps)
    (contained : ∀ type ∈ c.graph.declaredTypes (scope.trees false), c.graph.IsContained type) :
    (publicTypesWithin steps {} scope m).isSome := by
  have everything : (c.graph.places (scope.trees false)).filterMap
      (fun place => c.graph.declaredType? place.1 place.2) = c.graph.declaredTypes (scope.trees false) := by
    have all := Graph.admitted_places (g := c.graph) grown fun _ => true
    simpa [TypeWalk.admitted] using all
  have answers : ∀ place ∈ c.graph.places (scope.trees false), ∀ type,
      c.graph.declaredType? place.1 place.2 = some type →
        (c.graph.isVisibleWithin steps type).isSome := by
    intro place member type declares
    have declared := everything ▸ List.mem_filterMap.2 ⟨place,member,declares⟩
    rw [Graph.isVisibleWithin,Option.isSome_map]
    exact (contained type declared).climbWithin_isSome _ many
  have walked := TypeWalk.visitTrees?_isSome answers { meter := m }
  have fresh := acquire_fresh compiled
  unfold publicTypesWithin collectWithin
  rw [running,fresh]
  simp only [context?,Option.join_some,Option.isSome_map]
  exact walked

end Assembly

/-- The climbs from the operands of a constant, where they are over in time, give all names that its
argument needs. -/
theorem Graph.argument_within {g : Graph} {steps : Nat} {c : Constant}
    (answered : ∀ id ∈ c.operands, (g.qualifiedNameWithin steps id).isSome) :
    c.argument (fun id => (g.qualifiedNameWithin steps id).getD "") = c.argument g.qualifiedName := by
  refine Constant.argument_congr fun id named => ?_
  obtain ⟨name,climbed⟩ := Option.isSome_iff_exists.1 (answered id named)
  rw [climbed,Graph.qualifiedNameWithin_eq climbed,Option.getD_some]

namespace Facts

variable {steps : Nat} {a : Assembly} {scope : Scope} {m : Meter} {c : Compilation}

def traitOperands (g : Graph) (id : SymbolId) : List SymbolId :=
  ((g.matching id traitName).filter fun a =>
    !(g.matchingOnType a.owner a.index traitDiscovererName).isEmpty).flatMap fun a =>
      ((g.attribute? a.owner a.index).map fun a => operandsOf a.arguments).getD []

def displayOperands (g : Graph) (type : SymbolId) (fact : Applied) : List SymbolId :=
  (((g.attribute? fact.owner fact.index).bind (·.named? "DisplayName")).map Constant.operands).getD [] ++
    if ((g.namedArgumentAt? fact.owner fact.index "DisplayName").bind Argument.string?).isNone then [type]
    else []

/-- The symbols whose names a search asks for: the concrete types with a fact that has no text for a display
name, and the types that stand in the arguments that it reads. -/
def named (g : Graph) (types : List SymbolId) : List SymbolId :=
  (types.filter fun type => !g.isAbstract type).flatMap fun type =>
    traitOperands g type ++ (g.methods false type).flatMap fun method =>
      (facts g method).head?.toList.flatMap fun fact =>
        displayOperands g type fact ++ traitOperands g method

/-- The symbols that a search climbs from: the declared types, to see whether they are visible outside, and
those that it names. -/
noncomputable def climbed (g : Graph) (trees : List SyntaxTree) : List SymbolId :=
  g.declaredTypes trees ++ named g ((g.declaredTypes trees).eraseDups.filter g.isVisible)

/-- A search that sends to an inbox that takes everything, if each climb on the way is over within some
steps. It climbs for the visible types before it sends anything, and then for names. -/
def runWithin (steps : Nat) (a : Assembly) (scope : Scope) (m : Meter) : Option Run :=
  (a.publicTypesWithin steps scope m).bind fun (types,a,m) =>
    let answered := (a.context?.map Context.graph).all fun g =>
      (named g types).all fun id => (g.qualifiedNameWithin steps id).isSome
    if answered then
      let (inbox,a,asked) := a.query (send types {}) (({} : Inbox).receive .complete).2
      some { inbox, assembly := a, meter := m, asked }
    else none

theorem runWithin_eq {r : Run} (ends : runWithin steps a scope m = some r) : run a scope m {} = r := by
  obtain ⟨⟨types,a',m'⟩,listed,ends⟩ := Option.bind_eq_some_iff.1 ends
  dsimp only at ends
  split at ends
  · rw [← Option.some.inj ends,run,Assembly.publicTypesWithin_eq listed]
  · cases ends

theorem runWithin_eq_none (compiled : scope.compilation? false = some c) (running : m.cancelled = false)
    (endless : TypeWalk.visitTrees? c.graph (c.graph.isVisibleWithin steps) (scope.trees false)
      { meter := m } = none) : runWithin steps {} scope m = none := by
  have collected : (({ frozen := some (some ⟨c,[]⟩) } : Assembly).collectWithin steps scope m) = none := by
    rw [Assembly.collectWithin,running]
    exact congrArg (Option.map fun w => (w.found,w.meter)) endless
  rw [runWithin,Assembly.publicTypesWithin,running,Assembly.acquire_fresh compiled]
  simp only [collected,Option.map_none,Option.bind_none]

/-- A search that nothing cancels ends if the containing links of all that it climbs from do. -/
theorem runWithin_of_contained (compiled : scope.compilation? false = some c)
    (grown : ∀ t ∈ scope.trees false, t.Grown) (quiet : m.IsQuiet)
    (contained : ∀ id ∈ climbed c.graph (scope.trees false), c.graph.IsContained id)
    (many : c.graph.symbols.length ≤ steps) : runWithin steps {} scope m = some (run {} scope m {}) := by
  have ends : (runWithin steps {} scope m).isSome := by
    obtain ⟨⟨types,a,m'⟩,listed⟩ := Option.isSome_iff_exists.1
      (Assembly.publicTypesWithin_isSome compiled grown quiet.running many fun type declared =>
        contained type (List.mem_append_left _ declared))
    have taken : (({} : Assembly).acquire scope false).context?.map Context.graph = some c.graph := by
      rw [Assembly.acquire_fresh compiled]
      rfl
    obtain ⟨shown,held,-⟩ := Assembly.types_public_of_isQuiet taken rfl grown quiet
    rw [Assembly.publicTypesWithin_eq listed] at shown held
    have answered : ((a.context?.map Context.graph).all fun g =>
        (named g types).all fun id => (g.qualifiedNameWithin steps id).isSome) = true := by
      rw [show a.context? = _ from held,taken,Option.all_some,List.all_eq_true]
      intro id member
      rw [show types = _ from shown] at member
      rw [Graph.qualifiedNameWithin,Option.isSome_map]
      exact (contained id (List.mem_append_right _ member)).climbWithin_isSome _ many
    rw [runWithin,listed,Option.bind_some]
    simp only [answered,if_true,Option.isSome_some]
  obtain ⟨r,ends⟩ := Option.isSome_iff_exists.1 ends
  rw [ends,runWithin_eq ends]

end Facts

end TestScout
