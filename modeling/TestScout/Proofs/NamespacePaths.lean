import TestScout.Proofs.NamespaceTree
set_option autoImplicit false

/-!
Opening namespaces by their paths. Whatever is built before and in between, a path opens the same
namespace again, different paths open different ones, and only what is missing of a path is made: a
chain of namespaces that the deepest existing one lists as its last member.
-/

namespace TestScout

def Symbol.enter (s : Symbol) (member : SymbolId) : Symbol :=
  { s with members := s.members ++ [member] }

namespace Graph

/-- New namespaces one in another, from the id `first` on. Each lists the next one and nothing else. -/
def namespaceChain (language : Language) (container : SymbolId) (first : Nat) :
    List String → List Symbol
  | [] => []
  | name :: rest =>
    { Symbol.ofName .namespace name language with
      containing := some container, members := if rest.isEmpty then [] else [⟨first + 1⟩] } ::
      namespaceChain language ⟨first⟩ (first + 1) rest

/-- The graph with new namespaces one in another behind all symbols. The container of the first one
lists it as its last member. -/
def withNamespaces (g : Graph) (language : Language) (container : SymbolId) : List String → Graph
  | [] => g
  | name :: rest =>
    { g with symbols :=
        g.symbols.modify container.index (·.enter g.fresh) ++
          namespaceChain language container g.symbols.length (name :: rest) }

end Graph

namespace Builder

variable {b : Builder}

/-- What a call puts something into exists, and a symbol that is handed in has no members yet. -/
def HasParent (b : Builder) : Call → Prop
  | .openNamespace parent _ => parent ∈ b.graph.ids
  | .addType container s | .addMethod container s => container ∈ b.graph.ids ∧ s.members = []
  | .addClass container _ _ | .addInterface container _ | .addAttributeClass container _ _ _ |
    .addPublicMethod container _ _ | .addParameter container _ _ => container ∈ b.graph.ids
  | _ => True

/-- What is built further: the tree of namespaces has the same root and keeps what it has. -/
structure Grows (b b' : Builder) : Prop where
  nested : b'.graph.IsNested
  globalNamespace : b'.globalNamespace = b.globalNamespace
  extended : ∃ fresh, b.graph.Extends b'.graph fresh

theorem Grows.refl (nested : b.graph.IsNested) : b.Grows b :=
  ⟨nested,rfl,_,Graph.extends_of_symbol?_eq fun _ => rfl⟩

theorem Grows.trans {b' b'' : Builder} (first : b.Grows b') (second : b'.Grows b'') : b.Grows b'' := by
  obtain ⟨fresh,extended⟩ := first.extended
  obtain ⟨later,extended'⟩ := second.extended
  exact ⟨second.nested,second.globalNamespace.trans first.globalNamespace,_,extended.trans extended'⟩

theorem Grows.located {b' : Builder} {outer id : SymbolId} {path : List String} (grows : b.Grows b')
    (located : b.graph.NamespaceAt outer path id) : b'.graph.NamespaceAt outer path id := by
  obtain ⟨fresh,extended⟩ := grows.extended
  exact located.extend extended

theorem Grows.isGlobal {b' : Builder} (grows : b.Grows b')
    (isGlobal : b.graph.IsGlobal b.globalNamespace) : b'.graph.IsGlobal b'.globalNamespace := by
  obtain ⟨fresh,extended⟩ := grows.extended
  exact grows.globalNamespace ▸ extended.isGlobal isGlobal

theorem grows_edit {h : Graph} {new : Option Symbol} (nested : b.graph.IsNested)
    (edits : b.graph.Edits h new) (joins : ∀ s ∈ new, b.graph.Joins s) :
    b.Grows { b with graph := h } :=
  ⟨nested.edits edits joins,rfl,_,edits.extends⟩

theorem grows_addMember {s : Symbol} (nested : b.graph.IsNested) (plain : s.kind ≠ .parameter)
    (joins : b.graph.Joins s) : b.Grows (b.addMember s).2 := by
  rw [addMember_eq]
  refine grows_edit nested (Graph.edits_addMember plain) ?_
  rintro _ ⟨⟩
  exact joins

theorem grows_addType {containing : SymbolId} {s : Symbol} (nested : b.graph.IsNested)
    (known : containing ∈ b.graph.ids) (members : s.members = []) :
    b.Grows (b.addType containing s).2 := by
  have joins : b.graph.Joins (b.newType containing s) :=
    .of_plain known rfl members (by rintro ⟨⟩)
  have added := grows_addMember nested (by rintro ⟨⟩) joins
  exact added.trans (grows_edit added.nested (Graph.edits_register _ containing _) (by simp))

theorem grows_addMethod {type : SymbolId} {s : Symbol} (nested : b.graph.IsNested)
    (known : type ∈ b.graph.ids) (members : s.members = []) : b.Grows (b.addMethod type s).2 :=
  grows_addMember nested (by rintro ⟨⟩) (.of_plain known rfl members (by rintro ⟨⟩))

theorem grows_apply (nested : b.graph.IsNested) (target : SymbolId) (a : Attribute) :
    b.Grows (b.apply target a) :=
  grows_edit nested (Graph.edits_modify fun p => p.becomes_withAttributes _) (by simp)

theorem grows_openNamespace {parent : SymbolId} (nested : b.graph.IsNested)
    (known : parent ∈ b.graph.ids) (name : String) :
    b.Grows (b.openNamespace parent name).2 ∧
      (b.openNamespace parent name).2.graph.IsNamespaceIn parent name
        (b.openNamespace parent name).1 := by
  cases found : b.graph.childNamespace? parent name with
  | some id =>
    rw [openNamespace_of_some found]
    exact ⟨.refl nested,nested.childNamespace?_eq_some_iff.1 found⟩
  | none =>
    have joins : b.graph.Joins (b.newNamespace parent name) :=
      { contained := ⟨parent,known,rfl⟩
        members := rfl
        named := by
          rintro - _ ⟨⟩
          exact nested.childNamespace?_eq_none_iff.1 found }
    have added := grows_addMember nested (by rintro ⟨⟩) joins
    have new := Graph.symbol?_addMember_new b.graph (b.newNamespace parent name)
    rw [openNamespace_of_none found]
    exact ⟨added,_,new,rfl,rfl,rfl⟩

theorem grows_openNamespaces {outer container : SymbolId} {front : List String}
    (nested : b.graph.IsNested) (known : container ∈ b.graph.ids)
    (around : b.graph.NamespaceAt outer front container) (segments : List String) :
    b.Grows (b.openNamespaces container segments).2 ∧
      (b.openNamespaces container segments).2.graph.NamespaceAt outer (front ++ segments)
        (b.openNamespaces container segments).1 := by
  induction segments generalizing b container front with
  | nil =>
    rw [List.append_nil]
    exact ⟨.refl nested,around⟩
  | cons name rest ih =>
    obtain ⟨opened,inner⟩ := grows_openNamespace nested known name
    obtain ⟨grown,located⟩ := ih opened.nested inner.known ((opened.located around).inside inner)
    rw [List.append_cons]
    exact ⟨opened.trans grown,located⟩

theorem grows_openPath (nested : b.graph.IsNested) (isGlobal : b.graph.IsGlobal b.globalNamespace)
    (path : String) :
    b.Grows (b.openPath path).2 ∧ (b.openPath path).2.graph.NamespaceAt b.globalNamespace
      (pathSegments path) (b.openPath path).1 :=
  grows_openNamespaces nested isGlobal.known .here (pathSegments path)

theorem grows_perform {call : Call} (nested : b.graph.IsNested)
    (isGlobal : b.graph.IsGlobal b.globalNamespace) (placed : b.HasParent call) :
    b.Grows (b.perform call) := by
  cases call with
  | setLanguage language => exact ⟨nested,rfl,_,Graph.extends_of_symbol?_eq fun _ => rfl⟩
  | openNamespace parent name => exact (grows_openNamespace nested placed name).1
  | openPath path => exact (grows_openPath nested isGlobal path).1
  | addType containing s => exact grows_addType nested placed.1 placed.2
  | addClass containing name base => exact grows_addType nested placed rfl
  | addInterface containing name => exact grows_addType nested placed rfl
  | addAttributeClass containing name base inherited =>
    have added : b.Grows (b.addClass containing name (base.or (some b.attributeType))).2 :=
      grows_addType nested placed rfl
    cases inherited with
    | none => exact added
    | some inherited => exact added.trans (grows_apply added.nested _ _)
  | addMethod type s => exact grows_addMethod nested placed.1 placed.2
  | addPublicMethod type name overridden => exact grows_addMethod nested placed rfl
  | addParameter method name type =>
    refine grows_edit nested (Graph.edits_addParameter rfl rfl placed) ?_
    rintro _ ⟨⟩
    exact .of_plain placed rfl rfl (by rintro ⟨⟩)
  | apply target a => exact grows_apply nested target a
  | declare document node s => exact grows_edit nested (Graph.edits_of_symbols_eq rfl rfl) (by simp)

theorem grows_run {calls : List Call} (nested : b.graph.IsNested)
    (isGlobal : b.graph.IsGlobal b.globalNamespace) (placed : RunMeets HasParent b calls) :
    b.Grows (b.run calls) :=
  run_keeps (fun _ _ placed grown =>
      grown.trans (grows_perform grown.nested (grown.isGlobal isGlobal) placed))
    placed (.refl nested)

theorem openNamespaces_of_located {outer id : SymbolId} {path : List String}
    (nested : b.graph.IsNested) (located : b.graph.NamespaceAt outer path id)
    (rest : List String) :
    b.openNamespaces outer (path ++ rest) = b.openNamespaces id rest := by
  induction located generalizing rest with
  | here => rfl
  | inside _ inner ih =>
    rw [List.append_assoc,ih,List.singleton_append,openNamespaces,
      openNamespace_of_some (nested.childNamespace?_eq_some_iff.2 inner)]

theorem withNamespaces_newNamespace (b : Builder) (container : SymbolId) (name : String)
    (rest : List String) :
    (b.graph.addMember (b.newNamespace container name)).2.withNamespaces b.language b.graph.fresh
        rest =
      b.graph.withNamespaces b.language container (name :: rest) := by
  cases rest with
  | nil => rfl
  | cons next rest =>
    let grown := (b.graph.modify container (·.enter b.graph.fresh)).symbols
    have length : grown.length = b.graph.symbols.length := Graph.length_modify ..
    have longer : (grown ++ [b.newNamespace container name]).length = b.graph.symbols.length + 1 := by
      rw [List.length_append,length,List.length_singleton]
    -- The next one is entered into the symbol that stands last.
    have entered := modify_concat grown (b.newNamespace container name)
      (·.enter ⟨b.graph.symbols.length + 1⟩)
    rw [length] at entered
    have symbols : (grown ++ [b.newNamespace container name]).modify b.graph.symbols.length
          (·.enter ⟨(grown ++ [b.newNamespace container name]).length⟩) ++
        Graph.namespaceChain b.language b.graph.fresh (grown ++ [b.newNamespace container name]).length
          (next :: rest) =
        grown ++ Graph.namespaceChain b.language container b.graph.symbols.length
          (name :: next :: rest) := by
      rw [longer,entered,List.append_assoc]
      rfl
    exact congrArg (fun symbols => { b.graph with symbols }) symbols

theorem openNamespaces_of_missing {container : SymbolId} {names : List String}
    (missing : ∀ name ∈ names.head?, b.graph.childNamespace? container name = none) :
    (b.openNamespaces container names).2 =
      { b with graph := b.graph.withNamespaces b.language container names } := by
  induction names generalizing b container with
  | nil => rfl
  | cons name rest ih =>
    rw [openNamespaces,openNamespace_of_none (missing name rfl)]
    refine (ih fun next _ => ?_).trans ?_
    · -- There is nothing yet in a namespace that was just made.
      rw [Graph.childNamespace?,Graph.symbol?_addMember_new]
      rfl
    · exact congrArg (fun graph => { b with graph })
        (b.withNamespaces_newNamespace container name rest)

theorem ne_empty_of_mem_pathSegments {path : String} :
    ∀ segment ∈ pathSegments path, segment ≠ "" := by
  intro segment member
  obtain ⟨chars,filtered,rfl⟩ := List.mem_map.1 member
  have filled := (List.mem_filter.1 filtered).2
  cases chars with
  | nil => simp at filled
  | cons first rest => exact fun same => by simpa using congrArg String.toList same

theorem openPath_of_located {path : String} {id : SymbolId} (nested : b.graph.IsNested)
    (located : b.graph.NamespaceAt b.globalNamespace (pathSegments path) id) :
    b.openPath path = (id,b) := by
  have followed := openNamespaces_of_located nested located []
  rw [List.append_nil] at followed
  exact followed

theorem fst_openPath_eq_iff {path : String} {names : List String} {id : SymbolId}
    (nested : b.graph.IsNested) (isGlobal : b.graph.IsGlobal b.globalNamespace)
    (located : b.graph.NamespaceAt b.globalNamespace names id) (filled : ∀ name ∈ names, name ≠ "") :
    (b.openPath path).1 = id ↔ pathSegments path = names := by
  obtain ⟨opened,inner⟩ := grows_openPath nested isGlobal path
  have stays := opened.located located
  have root : (b.openPath path).2.graph.IsGlobal b.globalNamespace :=
    opened.globalNamespace ▸ opened.isGlobal isGlobal
  constructor
  · rintro rfl
    exact inner.injective root ne_empty_of_mem_pathSegments filled stays
  · rintro rfl
    exact inner.unique opened.nested stays

theorem exists_snd_openPath_eq (nested : b.graph.IsNested) (path : String) :
    ∃ existing missing deepest, pathSegments path = existing ++ missing ∧
      b.graph.NamespaceAt b.globalNamespace existing deepest ∧
      (∀ name ∈ missing.head?, ∀ id, ¬b.graph.IsNamespaceIn deepest name id) ∧
      (b.openPath path).2 =
        { b with graph := b.graph.withNamespaces b.language deepest missing } := by
  obtain ⟨existing,missing,deepest,segments,found,absent⟩ :=
    b.graph.exists_deepest b.globalNamespace (pathSegments path)
  refine ⟨existing,missing,deepest,segments,found,absent,?_⟩
  rw [openPath,segments,openNamespaces_of_located nested found]
  exact openNamespaces_of_missing fun name first =>
    nested.childNamespace?_eq_none_iff.2 (absent name first)

theorem isNested_ofAssembly (assembly : String) : (ofAssembly assembly).graph.IsNested :=
  (isOrdered_ofAssembly assembly).graph.isNested

theorem isGlobal_ofAssembly (assembly : String) :
    (ofAssembly assembly).graph.IsGlobal (ofAssembly assembly).globalNamespace :=
  Graph.Tidy.isGlobal (isTidy_ofAssembly assembly)

/-- A path opens the namespace that it leads to. Of two paths that are opened at any two moments of a
run, the second opens the namespace of the first exactly if it has the same segments, and then nothing
changes. What is missing of a path is made in the deepest namespace that is there. -/
theorem openPath_exact {assembly path : String} {before between : List Call} {b b' : Builder}
    (placed : RunMeets HasParent (ofAssembly assembly) (before ++ .openPath path :: between))
    (start : (ofAssembly assembly).run before = b) (later : (b.openPath path).2.run between = b') :
    (b.openPath path).2.graph.NamespaceAt b.globalNamespace (pathSegments path) (b.openPath path).1 ∧
    (∀ path', (b.openPath path).1 = (b'.openPath path').1 ↔ pathSegments path = pathSegments path') ∧
    (∀ path', pathSegments path = pathSegments path' → (b'.openPath path').2 = b') ∧
    ∃ existing missing deepest, pathSegments path = existing ++ missing ∧
      b.graph.NamespaceAt b.globalNamespace existing deepest ∧
      (∀ name ∈ missing.head?, ∀ id, ¬b.graph.IsNamespaceIn deepest name id) ∧
      (b.openPath path).2 =
        { b with graph := b.graph.withNamespaces b.language deepest missing } := by
  obtain ⟨placedBefore,placedFrom⟩ := runMeets_append.1 placed
  rw [start] at placedFrom
  obtain ⟨-,placedBetween⟩ := placedFrom
  have built : (ofAssembly assembly).Grows b :=
    start ▸ grows_run (isNested_ofAssembly assembly) (isGlobal_ofAssembly assembly) placedBefore
  have isGlobal := built.isGlobal (isGlobal_ofAssembly assembly)
  obtain ⟨opened,located⟩ := grows_openPath built.nested isGlobal path
  have grown : (b.openPath path).2.Grows b' :=
    later ▸ grows_run opened.nested (opened.isGlobal isGlobal) placedBetween
  -- What was opened stays where it is while the builder goes on.
  have whole := opened.trans grown
  have still : b'.graph.NamespaceAt b'.globalNamespace (pathSegments path) (b.openPath path).1 :=
    whole.globalNamespace ▸ grown.located located
  refine ⟨located,fun path' => ?_,fun path' same => ?_,exists_snd_openPath_eq built.nested path⟩
  · have again : (b'.openPath path').1 = (b.openPath path).1 ↔
        pathSegments path' = pathSegments path :=
      fst_openPath_eq_iff grown.nested (whole.isGlobal isGlobal) still
      ne_empty_of_mem_pathSegments
    rw [eq_comm,again,eq_comm]
  · rw [openPath_of_located grown.nested (same ▸ still)]

end Builder

def crowdedCalls : List Builder.Call :=
  [.openNamespace ⟨1⟩ "A",.addClass ⟨6⟩ "B" none]

def oddlyNamedCalls : List Builder.Call :=
  [.openNamespace ⟨1⟩ "A.B",.openNamespace ⟨6⟩ ""]

theorem openPath_exact_crowded :
    let b := (Builder.ofAssembly "Tests").run crowdedCalls
    let b' := (b.openPath "A.B").2.run oddlyNamedCalls
    (b.openPath "A.B").1 = (b'.openPath ".A..B").1 ∧ (b'.openPath ".A..B").2 = b' ∧
      (b.openPath "A.B").1 ≠ (b'.openPath "A").1 := by
  intro b b'
  have placed : Builder.RunMeets Builder.HasParent (.ofAssembly "Tests")
      (crowdedCalls ++ .openPath "A.B" :: oddlyNamedCalls) := by
    refine ⟨?_,?_,trivial,?_,?_,trivial⟩
    all_goals exact Graph.mem_ids_iff_lt.2 (by decide)
  have same : Builder.pathSegments "A.B" = Builder.pathSegments ".A..B" := by decide
  obtain ⟨-,ids,quiet,-⟩ := Builder.openPath_exact placed rfl rfl
  refine ⟨(ids ".A..B").2 same,quiet ".A..B" same,fun shorter => ?_⟩
  exact absurd ((ids "A").1 shorter) (by decide)

end TestScout
