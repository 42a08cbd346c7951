import TestScout.Proofs.GraphOrder
import TestScout.Proofs.MetadataNames
set_option autoImplicit false

/-!
The shape of graphs that are built step by step. Each step adds one symbol behind all others, or none,
and lists it where it belongs, so that a graph whose symbols refer to earlier ones stays in order.
-/

namespace TestScout

/-- The symbol after an edit: it has more members and parameters and perhaps other attributes or another
abstractness, but the same name, kind and links. -/
structure Symbol.Becomes (p q : Symbol) (members parameters : List SymbolId) : Prop where
  kind : q.kind = p.kind
  name : q.name = p.name
  containing : q.containing = p.containing
  baseType : q.baseType = p.baseType
  overriddenMethod : q.overriddenMethod = p.overriddenMethod
  members : q.members = p.members ++ members
  parameters : q.parameters = p.parameters ++ parameters

theorem Symbol.becomes_self (p : Symbol) : p.Becomes p [] [] :=
  ⟨rfl,rfl,rfl,rfl,rfl,(List.append_nil _).symm,(List.append_nil _).symm⟩

theorem Symbol.becomes_withAttributes (p : Symbol) (attributes : List Attribute) :
    p.Becomes { p with attributes } [] [] :=
  ⟨rfl,rfl,rfl,rfl,rfl,(List.append_nil _).symm,(List.append_nil _).symm⟩

namespace Graph

variable {g h : Graph} {id : SymbolId} {s : Symbol} {new : Option Symbol}

def fresh (g : Graph) : SymbolId :=
  ⟨g.symbols.length⟩

def entry (g : Graph) (new : Option Symbol) (test : Symbol → Bool) : List SymbolId :=
  if new.any test then [g.fresh] else []

/-- An edit adds one symbol behind all others, or none, and lists it where it belongs. -/
structure Edits (g h : Graph) (new : Option Symbol) : Prop where
  assembly : h.assembly = g.assembly
  length : h.symbols.length = g.symbols.length + new.toList.length
  added : h.symbol? g.fresh = new
  kept : ∀ ⦃id p⦄, g.symbol? id = some p → ∃ q, h.symbol? id = some q ∧
    p.Becomes q (g.entry new (Symbol.isMemberOf id)) (g.entry new (Symbol.isParameterOf id))

theorem Edits.origin (edits : g.Edits h new) {t : Symbol} (ht : h.symbol? id = some t) :
    (id = g.fresh ∧ new = some t) ∨ ∃ p, g.symbol? id = some p ∧
      p.Becomes t (g.entry new (Symbol.isMemberOf id)) (g.entry new (Symbol.isParameterOf id)) := by
  cases hp : g.symbol? id with
  | some p =>
    obtain ⟨q,hq,becomes⟩ := edits.kept hp
    obtain rfl := Option.some.inj (hq.symm.trans ht)
    exact .inr ⟨p,rfl,becomes⟩
  | none =>
    have beyond : g.symbols.length ≤ id.index := List.getElem?_eq_none_iff.1 hp
    have inside : id.index < h.symbols.length := (List.getElem?_eq_some_iff.1 ht).1
    have length := edits.length
    have last : new.toList.length ≤ 1 := by cases new <;> simp
    have same : id = g.fresh := by
      rw [fresh,← show id.index = g.symbols.length by omega]
    exact .inl ⟨same,by rw [← edits.added,← same,ht]⟩

theorem Edits.extends (edits : g.Edits h new) :
    g.Extends h fun id => id = g.fresh ∧ new.any fun s => s.kind.isNamespaceOrType where
  kept id p hp := by
    obtain ⟨q,hq,becomes⟩ := edits.kept hp
    refine ⟨q,hq,becomes.kind,becomes.name,becomes.containing,?_⟩
    rw [becomes.members]
    exact List.subset_append_left _ _
  origin id t ht holds := by
    rcases edits.origin ht with ⟨rfl,rfl⟩ | ⟨p,hp,becomes⟩
    · exact .inl ⟨rfl,holds⟩
    · refine .inr ⟨p,hp,becomes.kind,becomes.name,becomes.containing,?_⟩
      rw [becomes.members]
      exact List.subset_append_left _ _

theorem Edits.mem_ids (edits : g.Edits h new) (inside : id ∈ g.ids) : id ∈ h.ids := by
  have length := edits.length
  rw [mem_ids_iff_lt] at inside ⊢
  omega

theorem Edits.ids (edits : g.Edits h new) : h.ids = g.ids ++ g.entry new fun _ => true := by
  unfold Graph.ids entry
  rw [edits.length]
  cases new with
  | none => simp
  | some s => simp [List.range_succ,fresh]

theorem Edits.idsWhere (edits : g.Edits h new) {test : Symbol → Bool}
    (local_ : ∀ ⦃p q : Symbol⦄, q.kind = p.kind → q.containing = p.containing → test q = test p) :
    h.idsWhere test = g.idsWhere test ++ g.entry new test := by
  have old : ∀ id ∈ g.ids, (h.symbol? id).any test = (g.symbol? id).any test := by
    intro id inside
    obtain ⟨p,hp⟩ := Option.isSome_iff_exists.1 ((g.mem_ids id).1 inside)
    obtain ⟨q,hq,becomes⟩ := edits.kept hp
    simp [hp,hq,local_ becomes.kind becomes.containing]
  unfold Graph.idsWhere
  rw [edits.ids,List.filter_append,List.filter_congr old]
  congr 1
  unfold entry
  cases new with
  | none => rfl
  | some s => simp [edits.added,List.filter_singleton]

theorem Edits.siblingsDiffer (edits : g.Edits h new) (old : g.SiblingsDiffer .namespace)
    (named : ∀ s ∈ new, s.kind = .namespace → ∀ ⦃id t⦄, g.symbol? id = some t → t.kind = .namespace →
      t.containing = s.containing → t.name ≠ s.name) : h.SiblingsDiffer .namespace := by
  refine old.extend edits.extends (fun _ _ new new' => new.1.trans new'.1.symm) ?_
  rintro _ other s t ⟨rfl,-⟩ hs kind ht kind' containers
  exact named s (edits.added.symm.trans hs) kind ht kind' containers

/-- What a symbol that is handed in may look like: it has no members and no parameters yet, and the
symbols that it derives from or overrides exist. -/
structure Admissible (g : Graph) (s : Symbol) : Prop where
  base : ∀ base ∈ s.baseType, base ∈ g.ids
  overridden : ∀ method ∈ s.overriddenMethod, method ∈ g.ids
  members : s.members = []
  parameters : s.parameters = []

theorem Admissible.of_unlinked (base : s.baseType = none) (overridden : s.overriddenMethod = none)
    (members : s.members = []) (parameters : s.parameters = []) : g.Admissible s where
  base := by simp [base]
  overridden := by simp [overridden]
  members := members
  parameters := parameters

/-- What a symbol has to be like so that it can be the next one. -/
structure Fits (g : Graph) (s : Symbol) : Prop extends g.Admissible s where
  contained : ∃ container ∈ g.ids, s.containing = some container
  named : s.kind = .namespace → ∀ ⦃id t⦄, g.symbol? id = some t → t.kind = .namespace →
    t.containing = s.containing → t.name ≠ s.name

theorem Admissible.fits {container : SymbolId} (admissible : g.Admissible s)
    (known : container ∈ g.ids) (hc : s.containing = some container) (plain : s.kind ≠ .namespace) :
    g.Fits s where
  toAdmissible := admissible
  contained := ⟨container,known,hc⟩
  named namespace_ := absurd namespace_ plain

theorem known_or {given : Option SymbolId} {implicit : SymbolId} (known : ∀ id ∈ given, id ∈ g.ids)
    (exists_ : implicit ∈ g.ids) : ∀ id ∈ given.or (some implicit), id ∈ g.ids := by
  cases given with
  | none =>
    rintro _ ⟨⟩
    exact exists_
  | some id => exact known

theorem fresh_not_mem_ids (g : Graph) : g.fresh ∉ g.ids := by
  rw [mem_ids_iff_lt]
  exact Nat.lt_irrefl _

theorem ne_fresh (known : id ∈ g.ids) : id ≠ g.fresh := by
  rintro rfl
  exact fresh_not_mem_ids g known

theorem IsOrdered.idsWhere_fresh (ordered : g.IsOrdered) (edits : g.Edits h new)
    (fits : ∀ s ∈ new, g.Fits s) {test : Symbol → Bool}
    (inside : ∀ s, test s → s.containing = some g.fresh) : h.idsWhere test = [] := by
  rw [List.eq_nil_iff_forall_not_mem]
  intro id member
  obtain ⟨t,ht,holds⟩ := mem_idsWhere.1 member
  have hc := inside t holds
  refine fresh_not_mem_ids g ?_
  rcases edits.origin ht with ⟨-,rfl⟩ | ⟨p,hp,becomes⟩
  · obtain ⟨container,known,hc'⟩ := (fits t rfl).contained
    obtain rfl := Option.some.inj (hc.symm.trans hc')
    exact known
  · exact ordered.containing_mem hp (becomes.containing ▸ hc)

theorem IsOrdered.edits (ordered : g.IsOrdered) (edits : g.Edits h new)
    (fits : ∀ s ∈ new, g.Fits s) : h.IsOrdered where
  root := by
    obtain ⟨s,hs,alone⟩ := ordered.root
    obtain ⟨q,hq,becomes⟩ := edits.kept hs
    exact ⟨q,edits.assembly ▸ hq,becomes.containing.trans alone⟩
  contained id t ht apart := by
    rcases edits.origin ht with ⟨rfl,rfl⟩ | ⟨p,hp,becomes⟩
    · obtain ⟨container,known,hc⟩ := (fits t rfl).contained
      exact ⟨container,hc,mem_ids_iff_lt.1 known⟩
    · rw [becomes.containing]
      exact ordered.contained hp (edits.assembly ▸ apart)
  base id t base ht hb := by
    rcases edits.origin ht with ⟨rfl,rfl⟩ | ⟨p,hp,becomes⟩
    · exact mem_ids_iff_lt.1 ((fits t rfl).base base hb)
    · exact ordered.base hp (becomes.baseType ▸ hb)
  overridden id t method ht hm := by
    rcases edits.origin ht with ⟨rfl,rfl⟩ | ⟨p,hp,becomes⟩
    · exact mem_ids_iff_lt.1 ((fits t rfl).overridden method hm)
    · exact ordered.overridden hp (becomes.overriddenMethod ▸ hm)
  members id t ht := by
    rcases edits.origin ht with ⟨rfl,rfl⟩ | ⟨p,hp,becomes⟩
    · rw [(fits t rfl).members,
        ordered.idsWhere_fresh edits fits fun _ => Symbol.containing_of_isMemberOf]
    · rw [becomes.members,ordered.members hp,edits.idsWhere]
      intro p q kind containing
      simp [Symbol.isMemberOf,kind,containing]
  parameters id t ht := by
    rcases edits.origin ht with ⟨rfl,rfl⟩ | ⟨p,hp,becomes⟩
    · rw [(fits t rfl).parameters,
        ordered.idsWhere_fresh edits fits fun _ => Symbol.containing_of_isParameterOf]
    · rw [becomes.parameters,ordered.parameters hp,edits.idsWhere]
      intro p q kind containing
      simp [Symbol.isParameterOf,kind,containing]
  namespaces := edits.siblingsDiffer ordered.namespaces fun s new => (fits s new).named

theorem edits_of_symbols_eq (symbols : h.symbols = g.symbols) (assembly : h.assembly = g.assembly) :
    g.Edits h none where
  assembly := assembly
  length := by simp [symbols]
  added := by
    rw [symbol?,symbols]
    exact symbol?_fresh g
  kept id p hp := by
    have same : h.symbol? id = some p := by rw [symbol?,symbols]; exact hp
    exact ⟨p,same,p.becomes_self⟩

theorem edits_register (g : Graph) (container type : SymbolId) :
    g.Edits (g.register container type) none := by
  refine edits_of_symbols_eq ?_ ?_ <;>
    · unfold register
      split <;> rfl

theorem mem_ids_register {container type : SymbolId} :
    id ∈ (g.register container type).ids ↔ id ∈ g.ids := by
  rw [mem_ids,symbol?_register,← mem_ids]

theorem mem_ids_of_isNamespace (hn : g.isNamespace id) : id ∈ g.ids := by
  obtain ⟨s,hs,-⟩ := isNamespace_iff.1 hn
  exact mem_ids_of_symbol? hs

theorem edits_modify {change : Symbol → Symbol} (settles : ∀ p, Symbol.Becomes p (change p) [] []) :
    g.Edits (g.modify id change) none where
  assembly := rfl
  length := by simp
  added := by rw [symbol?_modify,fresh,symbol?_fresh]; rfl
  kept other p hp := by
    rw [symbol?_modify,hp,Option.map_some]
    refine ⟨_,rfl,?_⟩
    split
    · exact settles p
    · exact p.becomes_self

theorem edits_addMember (plain : s.kind ≠ .parameter) : g.Edits (g.addMember s).2 (some s) where
  assembly := by
    unfold addMember
    cases s.containing <;> rfl
  length := by
    unfold addMember
    cases s.containing <;> simp [add]
  added := symbol?_addMember_new g s
  kept id p hp := by
    have apart : id ≠ ⟨g.symbols.length⟩ := ne_fresh (mem_ids_of_symbol? hp)
    rw [symbol?_addMember,if_neg apart,hp,Option.map_some]
    refine ⟨_,rfl,?_⟩
    by_cases here : s.containing = some id
    · rw [if_pos here]
      exact ⟨rfl,rfl,rfl,rfl,rfl,by simp [entry,Symbol.isMemberOf,here,plain,fresh],
        by simp [entry,Symbol.isParameterOf,plain]⟩
    · rw [if_neg here]
      exact ⟨rfl,rfl,rfl,rfl,rfl,by simp [entry,Symbol.isMemberOf,here],
        by simp [entry,Symbol.isParameterOf,here]⟩

def addParameter (g : Graph) (method : SymbolId) (s : Symbol) : Graph :=
  (g.add s).2.modify method fun m => { m with parameters := m.parameters ++ [g.fresh] }

theorem edits_addParameter {method : SymbolId} (kind : s.kind = .parameter)
    (hc : s.containing = some method) (known : method ∈ g.ids) :
    g.Edits (g.addParameter method s) (some s) where
  assembly := rfl
  length := by simp [addParameter,add]
  added := by
    have same : (g.add s).2.symbol? g.fresh = some s := by rw [symbol?_add,fresh,if_pos rfl]
    rw [addParameter,symbol?_modify,same,Option.map_some,if_neg (ne_fresh known)]
  kept id p hp := by
    have apart : id ≠ ⟨g.symbols.length⟩ := ne_fresh (mem_ids_of_symbol? hp)
    rw [addParameter,symbol?_modify,symbol?_add,if_neg apart,hp,Option.map_some]
    refine ⟨_,rfl,?_⟩
    by_cases here : method = id
    · rw [if_pos here]
      exact ⟨rfl,rfl,rfl,rfl,rfl,by simp [entry,Symbol.isMemberOf,kind],
        by simp [entry,Symbol.isParameterOf,hc,here,kind]⟩
    · rw [if_neg here]
      exact ⟨rfl,rfl,rfl,rfl,rfl,by simp [entry,Symbol.isMemberOf,kind],
        by simp [entry,Symbol.isParameterOf,hc,here]⟩

end Graph

namespace Builder

variable {b : Builder}

structure IsOrdered (b : Builder) : Prop where
  graph : b.graph.IsOrdered
  globalNamespace : b.globalNamespace ∈ b.graph.ids
  objectType : b.objectType ∈ b.graph.ids
  attributeType : b.attributeType ∈ b.graph.ids

/-- A call refers to symbols that exist already. -/
def RefersBack (b : Builder) : Call → Prop
  | .openNamespace parent _ => parent ∈ b.graph.ids
  | .addType container s | .addMethod container s => container ∈ b.graph.ids ∧ b.graph.Admissible s
  | .addClass containing _ base | .addAttributeClass containing _ base _ =>
    containing ∈ b.graph.ids ∧ ∀ type ∈ base, type ∈ b.graph.ids
  | .addInterface containing _ => containing ∈ b.graph.ids
  | .addPublicMethod type _ overridden =>
    type ∈ b.graph.ids ∧ ∀ method ∈ overridden, method ∈ b.graph.ids
  | .addParameter method _ _ => method ∈ b.graph.ids
  | _ => True

theorem IsOrdered.grow {h : Graph} {new : Option Symbol} (ordered : b.IsOrdered)
    (edits : b.graph.Edits h new) (fits : ∀ s ∈ new, b.graph.Fits s) :
    { b with graph := h }.IsOrdered where
  graph := ordered.graph.edits edits fits
  globalNamespace := edits.mem_ids ordered.globalNamespace
  objectType := edits.mem_ids ordered.objectType
  attributeType := edits.mem_ids ordered.attributeType

theorem IsOrdered.modify {change : Symbol → Symbol} (ordered : b.IsOrdered) (id : SymbolId)
    (settles : ∀ p, Symbol.Becomes p (change p) [] []) : (b.modify id change).IsOrdered :=
  ordered.grow (Graph.edits_modify settles) (by simp)

theorem IsOrdered.addMember {s : Symbol} (ordered : b.IsOrdered) (plain : s.kind ≠ .parameter)
    (fits : b.graph.Fits s) :
    (b.addMember s).2.IsOrdered ∧ (b.addMember s).1 ∈ (b.addMember s).2.graph.ids := by
  have edits := Graph.edits_addMember (g := b.graph) plain
  rw [addMember_eq]
  refine ⟨ordered.grow edits ?_,Graph.mem_ids_of_symbol? edits.added⟩
  rintro _ ⟨⟩
  exact fits

theorem IsOrdered.openNamespace {parent : SymbolId} (ordered : b.IsOrdered)
    (known : parent ∈ b.graph.ids) (name : String) :
    (b.openNamespace parent name).2.IsOrdered ∧
      (b.openNamespace parent name).1 ∈ (b.openNamespace parent name).2.graph.ids := by
  cases found : b.graph.childNamespace? parent name with
  | some id =>
    rw [openNamespace_of_some found]
    exact ⟨ordered,Graph.mem_ids_of_isNamespace (Graph.childNamespace?_some found)⟩
  | none =>
    obtain ⟨p,hp⟩ := Option.isSome_iff_exists.1 ((b.graph.mem_ids parent).1 known)
    have fits : b.graph.Fits (b.newNamespace parent name) :=
      { toAdmissible := .of_unlinked rfl rfl rfl rfl
        contained := ⟨parent,known,rfl⟩
        named := by
          intro _ id t ht kind containers
          -- An old namespace of this container is a member of it, and the search found none.
          refine Graph.childNamespace?_none hp found ?_ ht kind
          rw [ordered.graph.members hp,Graph.mem_idsWhere]
          have hc : t.containing = some parent := containers
          exact ⟨t,ht,by simp [Symbol.isMemberOf,hc,kind]⟩ }
    have added := ordered.addMember (by rintro ⟨⟩) fits
    rw [openNamespace_of_none found,← addMember_eq]
    exact added

theorem IsOrdered.openNamespaces {parent : SymbolId} (ordered : b.IsOrdered)
    (known : parent ∈ b.graph.ids) (segments : List String) :
    (b.openNamespaces parent segments).2.IsOrdered ∧
      (b.openNamespaces parent segments).1 ∈ (b.openNamespaces parent segments).2.graph.ids := by
  induction segments generalizing b parent with
  | nil => exact ⟨ordered,known⟩
  | cons name rest ih =>
    obtain ⟨opened,inner⟩ := ordered.openNamespace known name
    exact ih opened inner

theorem IsOrdered.fits_newType {containing : SymbolId} {s : Symbol} (ordered : b.IsOrdered)
    (known : containing ∈ b.graph.ids) (admissible : b.graph.Admissible s) :
    b.graph.Fits (b.newType containing s) := by
  have bases : ∀ base ∈ (b.newType containing s).baseType, base ∈ b.graph.ids := by
    unfold newType
    dsimp only
    split
    · exact Graph.known_or admissible.base ordered.objectType
    · exact admissible.base
  have typed : b.graph.Admissible (b.newType containing s) :=
    ⟨bases,admissible.overridden,admissible.members,admissible.parameters⟩
  exact typed.fits known rfl (by rintro ⟨⟩)

theorem IsOrdered.register (ordered : b.IsOrdered) (containing type : SymbolId) :
    { b with graph := b.graph.register containing type }.IsOrdered :=
  ordered.grow (b.graph.edits_register containing type) (by simp)

theorem IsOrdered.addType {containing : SymbolId} {s : Symbol} (ordered : b.IsOrdered)
    (known : containing ∈ b.graph.ids) (admissible : b.graph.Admissible s) :
    (b.addType containing s).2.IsOrdered ∧
      (b.addType containing s).1 ∈ (b.addType containing s).2.graph.ids := by
  obtain ⟨added,new⟩ := ordered.addMember (by rintro ⟨⟩) (ordered.fits_newType known admissible)
  exact ⟨added.register _ _,Graph.mem_ids_register.2 new⟩

theorem IsOrdered.addClass {containing : SymbolId} {base : Option SymbolId}
    (ordered : b.IsOrdered) (known : containing ∈ b.graph.ids) (name : String)
    (bases : ∀ type ∈ base, type ∈ b.graph.ids) :
    (b.addClass containing name base).2.IsOrdered ∧
      (b.addClass containing name base).1 ∈ (b.addClass containing name base).2.graph.ids :=
  ordered.addType known ⟨bases,by simp [Symbol.ofName],rfl,rfl⟩

theorem IsOrdered.addMethod {type : SymbolId} {s : Symbol} (ordered : b.IsOrdered)
    (known : type ∈ b.graph.ids) (admissible : b.graph.Admissible s) :
    (b.addMethod type s).2.IsOrdered := by
  have method : b.graph.Admissible { s with kind := .method, containing := some type } :=
    ⟨admissible.base,admissible.overridden,admissible.members,admissible.parameters⟩
  exact (ordered.addMember (by rintro ⟨⟩) (method.fits known rfl (by rintro ⟨⟩))).1

theorem IsOrdered.addParameter {method : SymbolId} {name : String} {type : Option SymbolId}
    (ordered : b.IsOrdered) (known : method ∈ b.graph.ids) :
    (b.addParameter method name type).2.IsOrdered := by
  refine ordered.grow (Graph.edits_addParameter rfl rfl known) ?_
  rintro _ ⟨⟩
  exact (Graph.Admissible.of_unlinked rfl rfl rfl rfl).fits known rfl (by rintro ⟨⟩)

theorem IsOrdered.perform {call : Call} (refers : b.RefersBack call) (ordered : b.IsOrdered) :
    (b.perform call).IsOrdered := by
  cases call with
  | setLanguage language =>
    exact ⟨ordered.graph,ordered.globalNamespace,ordered.objectType,ordered.attributeType⟩
  | openNamespace parent name => exact (ordered.openNamespace refers name).1
  | openPath path => exact (ordered.openNamespaces ordered.globalNamespace (pathSegments path)).1
  | addType containing s => exact (ordered.addType refers.1 refers.2).1
  | addClass containing name base => exact (ordered.addClass refers.1 name refers.2).1
  | addInterface containing name =>
    exact (ordered.addType refers (.of_unlinked rfl rfl rfl rfl)).1
  | addAttributeClass containing name base inherited =>
    have bases := Graph.known_or refers.2 ordered.attributeType
    have added := (ordered.addClass refers.1 name bases).1
    cases inherited with
    | none => exact added
    | some inherited => exact added.modify _ fun p => p.becomes_withAttributes _
  | addMethod type s => exact ordered.addMethod refers.1 refers.2
  | addPublicMethod type name overridden =>
    exact ordered.addMethod refers.1 ⟨by simp [Symbol.ofName],refers.2,rfl,rfl⟩
  | addParameter method name type => exact ordered.addParameter refers
  | apply target a => exact ordered.modify _ fun p => p.becomes_withAttributes _
  | declare document node s =>
    exact ordered.grow (Graph.edits_of_symbols_eq rfl rfl) (by simp)

theorem isOrdered_empty (assembly : String) : (empty assembly).IsOrdered := by
  have cases : ∀ {id : SymbolId} {s : Symbol}, (empty assembly).graph.symbol? id = some s →
      id = ⟨0⟩ ∧ s = { Symbol.ofName .assembly assembly .cSharp with members := [⟨1⟩] } ∨
      id = ⟨1⟩ ∧ s = { Symbol.ofName .namespace "" .cSharp with containing := some ⟨0⟩ } := by
    rintro ⟨i⟩ s hs
    match i with
    | 0 => exact .inl ⟨rfl,(Option.some.inj hs).symm⟩
    | 1 => exact .inr ⟨rfl,(Option.some.inj hs).symm⟩
    | i + 2 => exact absurd hs (by simp [Graph.symbol?,empty])
  refine ⟨⟨⟨_,rfl,rfl⟩,?_,?_,?_,?_,?_,?_⟩,?_,?_,?_⟩
  · intro id s hs apart
    rcases cases hs with ⟨rfl,rfl⟩ | ⟨rfl,rfl⟩
    · exact absurd rfl apart
    · exact ⟨⟨0⟩,rfl,Nat.one_pos⟩
  · intro id s base hs given
    rcases cases hs with ⟨rfl,rfl⟩ | ⟨rfl,rfl⟩ <;> cases given
  · intro id s method hs given
    rcases cases hs with ⟨rfl,rfl⟩ | ⟨rfl,rfl⟩ <;> cases given
  · intro id s hs
    rcases cases hs with ⟨rfl,rfl⟩ | ⟨rfl,rfl⟩ <;> rfl
  · intro id s hs
    rcases cases hs with ⟨rfl,rfl⟩ | ⟨rfl,rfl⟩ <;> rfl
  · intro id other s t hs ht kind kind' _ _
    rcases cases hs with ⟨rfl,rfl⟩ | ⟨rfl,rfl⟩
    · cases kind
    · rcases cases ht with ⟨rfl,rfl⟩ | ⟨rfl,rfl⟩
      · cases kind'
      · rfl
  · exact Graph.mem_ids_of_symbol? rfl
  · exact Graph.mem_ids_of_symbol? rfl
  · exact Graph.mem_ids_of_symbol? rfl

theorem isNamespace_openNamespace (b : Builder) (parent : SymbolId) (name : String) :
    (b.openNamespace parent name).2.graph.isNamespace (b.openNamespace parent name).1 := by
  cases found : b.graph.childNamespace? parent name with
  | some id =>
    rw [openNamespace_of_some found]
    exact Graph.childNamespace?_some found
  | none =>
    rw [openNamespace_of_none found]
    have new := Graph.symbol?_addMember_new b.graph (b.newNamespace parent name)
    exact Graph.isNamespace_iff.2 ⟨_,new,rfl⟩

theorem IsOrdered.withObject {system : SymbolId} (ordered : b.IsOrdered)
    (around : b.graph.isNamespace system) :
    (b.withObject system).IsOrdered ∧ (b.withObject system).graph.isNamespace system := by
  have fits : b.graph.Fits (rootObject system) := (Graph.Admissible.of_unlinked rfl rfl rfl rfl).fits
    (Graph.mem_ids_of_isNamespace around) rfl (by rintro ⟨⟩)
  obtain ⟨added,new⟩ := ordered.addMember (by rintro ⟨⟩) fits
  have entered := added.register system (b.addMember (rootObject system)).1
  refine ⟨⟨entered.graph,entered.globalNamespace,Graph.mem_ids_register.2 new,
    entered.attributeType⟩,?_⟩
  unfold Builder.withObject
  rw [addMember_eq]
  exact Graph.isNamespace_register around

theorem IsOrdered.withAttribute {system : SymbolId} (ordered : b.IsOrdered)
    (around : b.graph.isNamespace system) :
    (b.withAttribute system).IsOrdered ∧ (b.withAttribute system).graph.isNamespace system := by
  have bases : ∀ type ∈ (none : Option SymbolId), type ∈ b.graph.ids := by simp
  obtain ⟨added,new⟩ := ordered.addClass (Graph.mem_ids_of_isNamespace around) "Attribute" bases
  have settles : ∀ p : Symbol, p.Becomes { p with isAbstract := true } [] [] :=
    fun p => ⟨rfl,rfl,rfl,rfl,rfl,by simp,by simp⟩
  have marked := added.modify (b.addClass system "Attribute" none).1 settles
  have keeps : ∀ p : Symbol, p.Keeps { p with isAbstract := true } :=
    fun p => ⟨rfl,rfl,rfl,List.Subset.refl _⟩
  exact ⟨⟨marked.graph,marked.globalNamespace,marked.objectType,
    (Graph.edits_modify settles).mem_ids new⟩,
    (Graph.extends_modify keeps).isNamespace (isNamespace_addClass around)⟩

theorem IsOrdered.withAttributeUsage {system : SymbolId} (ordered : b.IsOrdered)
    (around : b.graph.isNamespace system) : (b.withAttributeUsage system).IsOrdered := by
  have bases : ∀ type ∈ some b.attributeType, type ∈ b.graph.ids := by
    simpa using ordered.attributeType
  have added := (ordered.addClass (Graph.mem_ids_of_isNamespace around) "AttributeUsageAttribute"
    bases).1
  exact ⟨added.graph,added.globalNamespace,added.objectType,added.attributeType⟩

theorem isOrdered_ofAssembly (assembly : String) : (ofAssembly assembly).IsOrdered := by
  have segments : pathSegments "System" = ["System"] := by decide
  have empty := isOrdered_empty assembly
  have opened := (empty.openNamespaces empty.globalNamespace (pathSegments "System")).1
  have around : ((Builder.empty assembly).openPath "System").2.graph.isNamespace
      ((Builder.empty assembly).openPath "System").1 := by
    unfold Builder.openPath
    simp only [segments,openNamespaces]
    exact isNamespace_openNamespace ..
  obtain ⟨ordered,around⟩ := IsOrdered.withObject opened around
  obtain ⟨ordered,around⟩ := ordered.withAttribute around
  rw [ofAssembly_eq]
  exact ordered.withAttributeUsage around

theorem IsOrdered.finish (ordered : b.IsOrdered) (anonymous : Bool) :
    (b.finish anonymous).IsOrdered := by
  cases anonymous with
  | false => exact ordered.graph
  | true => exact ordered.graph.edits (Graph.edits_of_symbols_eq rfl rfl) (by simp)

end Builder

/-- Graphs that are built from symbols that refer to existing ones only are well linked. So all chains
of links end, and the walks that give up what they have met are the plain walks along the links. -/
theorem Builder.isLinked_run {assembly : String} {calls : List Call} {anonymous : Bool} {g : Graph}
    (finished : ((ofAssembly assembly).run calls).finish anonymous = g)
    (refers : RunMeets RefersBack (ofAssembly assembly) calls) :
    g.IsLinked ∧
    (ChainsEnd g.containing? ∧ ChainsEnd g.baseType? ∧ ChainsEnd g.overridden?) ∧
    (∀ id ∈ g.ids, g.enclosing id = id :: ((g.containing? id).map g.enclosing).getD []) ∧
    ∀ type base, g.baseType? type = some base → g.lineage type = type :: g.lineage base := by
  have built : ((ofAssembly assembly).run calls).IsOrdered :=
    run_keeps (fun _ _ refers ordered => ordered.perform refers) refers (isOrdered_ofAssembly assembly)
  have ordered : g.IsOrdered := finished ▸ built.finish anonymous
  refine ⟨ordered.isLinked,⟨?_,?_,?_⟩,?_,?_⟩
  · exact ordered.descends_containing.chainsEnd
  · exact ordered.descends_baseType.chainsEnd
  · exact ordered.descends_overridden.chainsEnd
  · exact fun id known => ordered.enclosing_eq known
  · exact fun type base link => ordered.lineage_eq link

def overridingCalls : List Builder.Call :=
  [.openPath "N",.addClass ⟨6⟩ "Base" none,.addPublicMethod ⟨7⟩ "Run" none,
   .addClass ⟨7⟩ "Inner" (some ⟨7⟩),.addPublicMethod ⟨9⟩ "Run" (some ⟨8⟩),
   .addParameter ⟨10⟩ "times" (some ⟨3⟩)]

def overridingGraph : Graph :=
  ((Builder.ofAssembly "Tests").run overridingCalls).finish false

theorem isLinked_run_overriding :
    (overridingGraph.members ⟨7⟩).count ⟨9⟩ = 1 ∧ (overridingGraph.parameters ⟨10⟩).count ⟨11⟩ = 1 ∧
      overridingGraph.lineage ⟨9⟩ = ⟨9⟩ :: overridingGraph.lineage ⟨7⟩ := by
  have refers : Builder.RunMeets Builder.RefersBack (.ofAssembly "Tests") overridingCalls := by
    refine ⟨trivial,⟨?_,?_⟩,⟨?_,?_⟩,⟨?_,?_⟩,⟨?_,?_⟩,?_,trivial⟩
    case refine_2 | refine_4 => simp
    case refine_6 | refine_8 => rintro _ ⟨⟩; exact Graph.mem_ids_iff_lt.2 (by decide)
    all_goals exact Graph.mem_ids_iff_lt.2 (by decide)
  have inner : overridingGraph.symbol? ⟨9⟩ = some _ := rfl
  have times : overridingGraph.symbol? ⟨11⟩ = some _ := rfl
  obtain ⟨linked,-,-,walks⟩ := Builder.isLinked_run (g := overridingGraph) rfl refers
  exact ⟨linked.members inner ⟨7⟩,linked.parameters times ⟨10⟩,walks ⟨9⟩ ⟨7⟩ rfl⟩

end TestScout
