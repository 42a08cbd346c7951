import TestScout.Assembly.Snapshot
import TestScout.Proofs.FirstOccurrences
import TestScout.Proofs.TreeShape
import TestScout.Proofs.Visibility
set_option autoImplicit false

/-!
Which types an assembly lists, and in which order. The walk over nested nodes is the same as asking
one question after the other along a flat list of nodes; while nothing cancels, it finds the types
that open nodes declare, each at its first declaration. A node is open when every node around it
declares a namespace or a type.
-/

namespace TestScout

namespace Graph

def declaredType? (g : Graph) (document : DocumentId) (node : NodeId) : Option SymbolId :=
  (g.declared? document node).filter g.isType

def opens (g : Graph) (document : DocumentId) (node : NodeId) : Bool :=
  (g.declared? document node).any fun id => (g.symbol? id).any fun s => s.kind.isNamespaceOrType

end Graph

def Forest.reached (enters : NodeId → Bool) : Forest → List NodeId
  | nil => []
  | cons id _ children rest =>
    id :: ((if enters id then children.reached enters else []) ++ rest.reached enters)

/-- A node below the root all of whose ancestors below the root declare a namespace or a type. -/
inductive SyntaxTree.IsOpen (t : SyntaxTree) (g : Graph) : NodeId → Prop where
  | top {node : NodeId} : node ∈ t.children SyntaxTree.root → IsOpen t g node
  | inner {parent node : NodeId} : IsOpen t g parent → g.opens t.document parent →
      node ∈ t.children parent → IsOpen t g node

namespace TypeWalk

variable {g : Graph} {admits : SymbolId → Bool}

def ask (g : Graph) (admits : SymbolId → Bool) (w : TypeWalk) (place : DocumentId × NodeId) :
    TypeWalk :=
  if w.meter.cancelled then w
  else
    let asked := { w with meter := w.meter.tick }
    if asked.meter.cancelled then asked
    else
      match (g.declaredType? place.1 place.2).filter admits with
      | none => asked
      | some type => asked.enter type

theorem ask_of_cancelled {w : TypeWalk} (h : w.meter.cancelled) (place : DocumentId × NodeId) :
    ask g admits w place = w := by
  simp [ask,h]

theorem visit_of_cancelled {w : TypeWalk} (h : w.meter.cancelled) (document : DocumentId)
    (f : Forest) : visit g admits document f w = w := by
  cases f with
  | nil => rfl
  | cons node kind children rest => simp [visit,h]

theorem visit_cons (document : DocumentId) (node : NodeId) (kind : NodeKind)
    (children rest : Forest) (w : TypeWalk) :
    visit g admits document (.cons node kind children rest) w =
      visit g admits document rest
        (if g.opens document node then visit g admits document children (ask g admits w (document,node))
         else ask g admits w (document,node)) := by
  by_cases before : w.meter.cancelled
  · rw [visit_of_cancelled before,ask_of_cancelled before,visit_of_cancelled before,ite_self,
      visit_of_cancelled before]
  by_cases after : w.meter.tick.cancelled
  · have asked : ask g admits w (document,node) = { w with meter := w.meter.tick } := by
      simp [ask,before,after]
    rw [asked,visit_of_cancelled (f := children) after,ite_self]
    simp [visit,before,Meter.declared?,after]
  · simp only [visit,if_neg before,Meter.declared?,if_neg after,ask,Graph.opens,
      Graph.declaredType?]
    cases g.declared? document node with
    | none => simp
    | some id =>
      cases hs : g.symbol? id with
      | none => simp [Graph.isType,hs,Option.filter]
      | some s =>
        have type : g.isType id = s.isType := by simp [Graph.isType,hs]
        cases ht : s.isType <;> cases ha : admits id <;> simp [type,ht,ha,hs,Option.filter]

/-- Descending into nested nodes asks the same questions as a flat list of them, also when the walk
is cancelled on the way. -/
theorem visit_eq_foldl (document : DocumentId) (f : Forest) (w : TypeWalk) :
    visit g admits document f w =
      ((f.reached (g.opens document)).map (document,·)).foldl (ask g admits) w := by
  -- The walk after the children is arbitrary, so the induction is over all walks.
  induction f generalizing w with
  | nil => rfl
  | cons node kind children rest hc hr =>
    rw [visit_cons,hr,Forest.reached,List.map_cons,List.foldl_cons]
    cases h : g.opens document node with
    | false => simp
    | true => simp [hc]

end TypeWalk

def Graph.places (g : Graph) (trees : List SyntaxTree) : List (DocumentId × NodeId) :=
  trees.flatMap fun t => (t.top.reached (g.opens t.document)).map (t.document,·)

theorem TypeWalk.visitTrees_eq_foldl {g : Graph} {admits : SymbolId → Bool}
    (trees : List SyntaxTree) (w : TypeWalk) :
    visitTrees g admits trees w = (g.places trees).foldl (ask g admits) w := by
  induction trees generalizing w with
  | nil => rfl
  | cons t rest ih =>
    have step : visitTrees g admits (t :: rest) w =
        visitTrees g admits rest (visit g admits t.document t.top w) := rfl
    have places : g.places (t :: rest) =
        (t.top.reached (g.opens t.document)).map (t.document,·) ++ g.places rest := rfl
    rw [step,ih,visit_eq_foldl,places,List.foldl_append]

structure Meter.IsQuiet (m : Meter) : Prop where
  running : m.cancelled = false
  passed {visit : Nat} : m.alarm = some visit → visit ≤ m.visits

namespace TypeWalk

variable {g : Graph} {admits : SymbolId → Bool}

def admitted (g : Graph) (admits : SymbolId → Bool) (places : List (DocumentId × NodeId)) :
    List SymbolId :=
  (places.filterMap fun place => g.declaredType? place.1 place.2).filter admits

theorem admitted_append (places later : List (DocumentId × NodeId)) :
    admitted g admits (places ++ later) = admitted g admits places ++ admitted g admits later := by
  unfold admitted
  rw [List.filterMap_append,List.filter_append]

theorem admitted_concat (places : List (DocumentId × NodeId)) (place : DocumentId × NodeId) :
    admitted g admits (places ++ [place]) =
      admitted g admits places ++ ((g.declaredType? place.1 place.2).filter admits).toList := by
  rw [admitted_append]
  congr 1
  unfold admitted
  cases hd : g.declaredType? place.1 place.2 with
  | none => simp [hd]
  | some type => cases h : admits type <;> simp [hd,h,Option.filter]

theorem foldl_ask_of_silent {m : Meter} (running : m.cancelled = false)
    (places : List (DocumentId × NodeId))
    (silent : ∀ visit, m.alarm = some visit → m.visits < visit → m.visits + places.length < visit) :
    places.foldl (ask g admits) { meter := m } =
      { meter := { m with visits := m.visits + places.length }
        found := (admitted g admits places).eraseDups } := by
  induction places using List.reverseRecOn with
  | nil => rfl
  | append_singleton places place ih =>
    rw [List.length_append,List.length_singleton] at silent
    have before := ih fun visit alarm late => by have := silent visit alarm late; omega
    have quiet : ¬m.alarm = some (m.visits + (places.length + 1)) := by
      intro alarm
      have := silent _ alarm (by omega)
      omega
    rw [List.foldl_append,before,List.foldl_cons,List.foldl_nil,admitted_concat,List.length_append,
      List.length_singleton]
    have tick : ({ m with visits := m.visits + places.length } : Meter).tick =
        { m with visits := m.visits + (places.length + 1) } := by
      simp [Meter.tick,quiet,Nat.add_assoc]
    simp only [ask,tick,if_neg (Bool.eq_false_iff.1 running)]
    cases (g.declaredType? place.1 place.2).filter admits with
    | none => simp
    | some type =>
      rw [Option.toList_some,eraseDups_concat]
      by_cases member : type ∈ admitted g admits places <;> simp [enter,member]

theorem foldl_ask_of_isQuiet {m : Meter} (quiet : m.IsQuiet)
    (places : List (DocumentId × NodeId)) :
    (places.foldl (ask g admits) { meter := m }).found = (admitted g admits places).eraseDups ∧
    (places.foldl (ask g admits) { meter := m }).meter.IsQuiet := by
  rw [foldl_ask_of_silent quiet.running places fun visit alarm late =>
    absurd late (Nat.not_lt.2 (quiet.passed alarm))]
  exact ⟨rfl,quiet.running,fun alarm => Nat.le_add_right_of_le (quiet.passed alarm)⟩

end TypeWalk

namespace SyntaxTree

variable {t : SyntaxTree} {g : Graph}

/-- A walk comes to the children of the root and of the open nodes that it goes below. -/
def IsEntered (t : SyntaxTree) (g : Graph) (node : NodeId) : Prop :=
  node = root ∨ t.IsOpen g node ∧ g.opens t.document node

theorem WellFormed.isOpen_iff (h : t.WellFormed) {parent node : NodeId}
    (link : (parent,node) ∈ t.links) : t.IsOpen g node ↔ t.IsEntered g parent := by
  have child : node ∈ t.children parent := (h.mem_children_iff parent node).2 link
  constructor
  · intro isOpen
    cases isOpen with
    | top other => exact .inl (h.parent_unique child other)
    | inner above enters other =>
      obtain rfl := h.parent_unique child other
      exact .inr ⟨above,enters⟩
  · rintro (rfl | ⟨above,enters⟩)
    · exact .top child
    · exact .inner above enters child

theorem WellFormed.mem_ids_of_isOpen (h : t.WellFormed) {node : NodeId} (isOpen : t.IsOpen g node) :
    node ∈ t.top.ids := by
  have linked : ∃ parent, (parent,node) ∈ t.links := by
    cases isOpen with
    | top child => exact ⟨_,(h.mem_children_iff _ _).1 child⟩
    | inner _ _ child => exact ⟨_,(h.mem_children_iff _ _).1 child⟩
  obtain ⟨parent,link⟩ := linked
  rw [← Forest.map_snd_links root t.top]
  exact List.mem_map_of_mem link

open Classical in
/-- In a part of a tree whose topmost nodes have the given parent, the walk reaches the open nodes
if it comes to them at all; otherwise none of them is open. -/
theorem WellFormed.reached_part (h : t.WellFormed) {parent : NodeId} {f : Forest}
    (part : ∀ link ∈ f.links parent, link ∈ t.links) :
    f.ids.filter (fun node => t.IsOpen g node) =
      if t.IsEntered g parent then f.reached (g.opens t.document) else [] := by
  induction f generalizing parent with
  | nil => simp [Forest.ids,Forest.reached]
  | cons node kind children rest hc hr =>
    simp only [Forest.links,List.mem_cons,List.mem_append] at part
    have link : (parent,node) ∈ t.links := part _ (.inl rfl)
    have below := hc fun l member => part l (.inr (.inl member))
    have beside := hr fun l member => part l (.inr (.inr member))
    have inside : node ≠ root := by
      rintro rfl
      refine h.root_not_mem ?_
      rw [← Forest.map_snd_links root t.top]
      exact List.mem_map_of_mem link
    -- A node of the part is open exactly if the walk comes to its parent.
    have first := h.isOpen_iff (g := g) link
    simp only [Forest.ids,List.filter_cons,List.filter_append,below,beside,Forest.reached]
    by_cases entered : t.IsEntered g parent
    · have isOpen := first.2 entered
      have inner : t.IsEntered g node ↔ g.opens t.document node := by
        simp [IsEntered,inside,isOpen]
      simp [isOpen,entered,inner]
    · have closed := mt first.1 entered
      have inner : ¬t.IsEntered g node := by simp [IsEntered,inside,closed]
      simp [closed,entered,inner]

open Classical in
theorem WellFormed.reached_eq (h : t.WellFormed) :
    t.top.reached (g.opens t.document) = t.top.ids.filter fun node => t.IsOpen g node := by
  have whole : ∀ link ∈ t.top.links root, link ∈ t.links := fun _ link => link
  rw [h.reached_part whole,if_pos (.inl rfl)]

end SyntaxTree

open Classical in
/-- The types that open nodes declare, tree by tree and in the order of the nodes of each tree. A
type stands here once for each node that declares it. -/
noncomputable def Graph.declaredTypes (g : Graph) (trees : List SyntaxTree) : List SymbolId :=
  trees.flatMap fun t =>
    (t.top.ids.filter fun node => t.IsOpen g node).filterMap (g.declaredType? t.document)

theorem Graph.admitted_places {g : Graph} {trees : List SyntaxTree} (grown : ∀ t ∈ trees, t.Grown)
    (admits : SymbolId → Bool) :
    TypeWalk.admitted g admits (g.places trees) = (g.declaredTypes trees).filter admits := by
  unfold TypeWalk.admitted places declaredTypes
  rw [List.filterMap_flatMap]
  congr 1
  refine List.flatMap_congr fun t member => ?_
  rw [(grown t member).wellFormed.reached_eq,List.filterMap_map]
  rfl

theorem Graph.mem_declaredTypes_iff {g : Graph} {trees : List SyntaxTree}
    (grown : ∀ t ∈ trees, t.Grown) (type : SymbolId) :
    type ∈ g.declaredTypes trees ↔
      ∃ t ∈ trees, ∃ node, t.IsOpen g node ∧ g.declaredType? t.document node = some type := by
  simp only [declaredTypes,List.mem_flatMap,List.mem_filterMap,List.mem_filter,decide_eq_true_eq]
  constructor
  · rintro ⟨t,member,node,⟨-,isOpen⟩,declares⟩
    exact ⟨t,member,node,isOpen,declares⟩
  · rintro ⟨t,member,node,isOpen,declares⟩
    have listed := (grown t member).wellFormed.mem_ids_of_isOpen isOpen
    exact ⟨t,member,node,⟨listed,isOpen⟩,declares⟩

namespace Assembly

variable {scope : Scope} {c : Compilation} {m : Meter}

theorem acquire_fresh (found : scope.compilation? false = some c) :
    ({} : Assembly).acquire scope false = { frozen := some (some ⟨c,[]⟩) } := by
  simp [acquire,found]

theorem collect_of_isQuiet {a : Assembly} {g : Graph} (taken : a.context?.map Context.graph = some g)
    (grown : ∀ t ∈ scope.trees false, t.Grown) (quiet : m.IsQuiet) (includePrivate : Bool) :
    (a.collect scope includePrivate m).1 =
      ((g.declaredTypes (scope.trees false)).eraseDups).filter
        (g.admits includePrivate) ∧
    (a.collect scope includePrivate m).2.IsQuiet := by
  obtain ⟨context,held,rfl⟩ := Option.map_eq_some_iff.1 taken
  simp only [collect,held,quiet.running,TypeWalk.visitTrees_eq_foldl]
  obtain ⟨found,after⟩ := @TypeWalk.foldl_ask_of_isQuiet context.graph
    (context.graph.admits includePrivate) m quiet (context.graph.places (scope.trees false))
  rw [Graph.admitted_places grown,eraseDups_filter] at found
  exact ⟨found,after⟩

@[simp] theorem acquire_acquire (a : Assembly) (scope : Scope) (cancelled cancelled' : Bool) :
    (a.acquire scope cancelled).acquire scope cancelled' = a.acquire scope cancelled := by
  cases h : a.frozen <;> simp [acquire,h]

@[simp] theorem publicTypes_acquire (a : Assembly) (scope : Scope) (cancelled : Bool) :
    (a.acquire scope cancelled).publicTypes = a.publicTypes := by
  cases h : a.frozen <;> simp [acquire,h]

theorem types_all_of_isQuiet {a : Assembly} {g : Graph}
    (taken : (a.acquire scope false).context?.map Context.graph = some g)
    (grown : ∀ t ∈ scope.trees false, t.Grown) (quiet : m.IsQuiet) :
    (a.types scope true m).1 = (g.declaredTypes (scope.trees false)).eraseDups ∧
    (a.types scope true m).2.1 = a.acquire scope false ∧ (a.types scope true m).2.2.IsQuiet := by
  have step : a.types scope true m =
      (((a.acquire scope false).collect scope true m).1,a.acquire scope false,
        ((a.acquire scope false).collect scope true m).2) := by
    simp [types,quiet.running]
  obtain ⟨collected,after⟩ := collect_of_isQuiet taken grown quiet true
  have everything : ∀ type, g.admits true type = true := fun _ => rfl
  rw [List.filter_eq_self.2 fun type _ => everything type] at collected
  rw [step]
  exact ⟨collected,rfl,after⟩

theorem types_public_of_isQuiet {a : Assembly} {g : Graph}
    (taken : (a.acquire scope false).context?.map Context.graph = some g) (unset : a.publicTypes = none)
    (grown : ∀ t ∈ scope.trees false, t.Grown) (quiet : m.IsQuiet) :
    (a.types scope false m).1 =
      (g.declaredTypes (scope.trees false)).eraseDups.filter g.isVisible ∧
    (a.types scope false m).2.1.context? = (a.acquire scope false).context? ∧
    (a.types scope false m).2.2.IsQuiet := by
  obtain ⟨collected,after⟩ := collect_of_isQuiet taken grown quiet false
  have step : a.types scope false m =
      (((a.acquire scope false).collect scope false m).1,
        { a.acquire scope false with
          publicTypes := some ((a.acquire scope false).collect scope false m).1 },
        ((a.acquire scope false).collect scope false m).2) := by
    simp [types,quiet.running,unset,after.running]
  have visible : g.admits false = g.isVisible := by
    funext type
    simp [Graph.admits]
  rw [visible] at collected
  rw [step]
  exact ⟨collected,rfl,after⟩

open Classical in
/-- A fresh assembly lists the types that open nodes declare, each once and at its first declaration,
and of these, when asked for the public ones, those that are visible outside. It makes no difference
to the public ones whether all types were listed before. -/
theorem types_exact (scope : Scope) (c : Compilation) (m n : Meter)
    (found : scope.compilation? false = some c) (grown : ∀ t ∈ scope.trees false, t.Grown)
    (quiet : m.IsQuiet) (quiet' : n.IsQuiet) :
    let all := ({} : Assembly).types scope true m
    let shown := all.1.filter fun type =>
      ∀ around, c.graph.NestedIn type around → c.graph.isPublic around
    all.1 = (c.graph.declaredTypes (scope.trees false)).eraseDups ∧ all.1.Nodup ∧
    (∀ type, type ∈ all.1 ↔
      ∃ t ∈ scope.trees false, ∃ node, t.IsOpen c.graph node ∧
        c.graph.declaredType? t.document node = some type) ∧
    (({} : Assembly).types scope false n).1 = shown ∧
    (all.2.1.types scope false all.2.2).1 = shown := by
  intro all shown
  have taken : (({} : Assembly).acquire scope false).context?.map Context.graph = some c.graph := by
    rw [acquire_fresh found]
    rfl
  obtain ⟨everything,acquired,after⟩ := types_all_of_isQuiet taken grown quiet
  have selected : shown =
      (c.graph.declaredTypes (scope.trees false)).eraseDups.filter c.graph.isVisible := by
    simp only [shown,all,everything]
    congr 1
    funext type
    simp [← c.graph.isVisible_iff]
  refine ⟨everything,?_,?_,?_,?_⟩
  · rw [everything]
    exact nodup_eraseDups _
  · intro type
    rw [everything,List.mem_eraseDups,Graph.mem_declaredTypes_iff grown]
  · rw [selected,(types_public_of_isQuiet taken rfl grown quiet').1]
  · have taken' : (all.2.1.acquire scope false).context?.map Context.graph = some c.graph := by
      rw [acquired,acquire_acquire]
      exact taken
    have unset : all.2.1.publicTypes = none := by
      rw [acquired,publicTypes_acquire]
    rw [selected,(types_public_of_isQuiet taken' unset grown after).1]

end Assembly

/-! A class in two parts of one document, with a method and with a nested class that is not public. -/

def calculatorGraph : Graph where
  assemblyName := some "Tests"
  assembly := ⟨0⟩
  symbols :=
    [{ Symbol.ofName .assembly "Tests" .cSharp with members := [⟨1⟩] },
     { Symbol.ofName .namespace "" .cSharp with
       containing := some ⟨0⟩, members := [⟨2⟩,⟨3⟩,⟨4⟩] },
     { Symbol.ofName .namedType "Object" .cSharp with
       accessibility := .publicAccess, containing := some ⟨1⟩ },
     { Symbol.ofName .namedType "FactAttribute" .cSharp with
       accessibility := .publicAccess, containing := some ⟨1⟩, baseType := some ⟨2⟩ },
     { Symbol.ofName .namedType "Calculator" .cSharp with
       accessibility := .publicAccess, containing := some ⟨1⟩, baseType := some ⟨2⟩,
       members := [⟨5⟩,⟨6⟩] },
     { Symbol.ofName .method "Adds" .cSharp with
       accessibility := .publicAccess, containing := some ⟨4⟩,
       attributes := [{ type := some ⟨3⟩ }] },
     { Symbol.ofName .namedType "Helper" .cSharp with
       accessibility := .internal, containing := some ⟨4⟩, baseType := some ⟨2⟩ }]
  names := [(⟨3⟩,"Xunit.FactAttribute"), (⟨4⟩,"Calculator"), (⟨6⟩,"Calculator+Helper")]
  declarations :=
    [((⟨0⟩,⟨1⟩),⟨4⟩), ((⟨0⟩,⟨2⟩),⟨5⟩), ((⟨0⟩,⟨3⟩),⟨6⟩), ((⟨0⟩,⟨4⟩),⟨4⟩)]

def calculatorTree : SyntaxTree :=
  let t : SyntaxTree := { document := ⟨0⟩, path := "Calculator" }
  let t := (t.addNode SyntaxTree.root .typeDeclaration).2
  let t := (t.addNode ⟨1⟩ .memberDeclaration).2
  let t := (t.addNode ⟨1⟩ .typeDeclaration).2
  (t.addNode SyntaxTree.root .typeDeclaration).2

def calculatorProject : Project where
  id := ⟨0⟩
  name := "Tests"
  compilation := some ⟨0,calculatorGraph⟩
  documents := [Document.ofTree calculatorTree]

theorem calculatorTree_grown : calculatorTree.Grown :=
  .addNode _ _ (.addNode _ _ (.addNode _ _ (.addNode _ _ (.start ⟨0⟩ "Calculator"))))

theorem calculatorProject_grown :
    ∀ t ∈ (Scope.project calculatorProject).trees false, t.Grown := by
  intro t member
  obtain rfl := List.mem_singleton.1 member
  exact calculatorTree_grown

theorem Meter.isQuiet_start : ({} : Meter).IsQuiet :=
  ⟨rfl,by simp⟩

theorem Assembly.types_exact_calculator :
    let scope := Scope.project calculatorProject
    let all := ({} : Assembly).types scope true {}
    scope.compilation? false = some ⟨0,calculatorGraph⟩ ∧ (∀ t ∈ scope.trees false, t.Grown) ∧
    ({} : Meter).IsQuiet ∧ all.1 = [⟨4⟩,⟨6⟩] ∧
    (calculatorGraph.declaredTypes (scope.trees false)).eraseDups = [⟨4⟩,⟨6⟩] ∧
    (({} : Assembly).types scope false {}).1 = [⟨4⟩] ∧
    (all.2.1.types scope false all.2.2).1 = [⟨4⟩] := by
  classical
  intro scope all
  obtain ⟨declared,-,-,fresh,later⟩ := types_exact scope ⟨0,calculatorGraph⟩ {} {} rfl
    calculatorProject_grown Meter.isQuiet_start Meter.isQuiet_start
  have listed : all.1 = [⟨4⟩,⟨6⟩] := by decide
  have shown : (all.1.filter fun type => decide (∀ around, calculatorGraph.NestedIn type around →
      calculatorGraph.isPublic around)) = [⟨4⟩] := by
    rw [listed]
    simp only [← calculatorGraph.isVisible_iff,Bool.decide_eq_true]
    decide +kernel
  exact ⟨rfl,calculatorProject_grown,Meter.isQuiet_start,listed,declared.symm.trans listed,
    fresh.trans shown,later.trans shown⟩

end TestScout
