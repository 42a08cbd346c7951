import Mathlib
import TestScout.Proofs.BuilderRun
import TestScout.Proofs.Location
set_option autoImplicit false

/-!
Looking a type up by its full name. The names under which the steps of a builder register types are
the qualified names that the finished graph gives these types, so that a lookup inverts the
qualified name, provided that namespaces stand in namespaces and types in namespaces or types, that
all of them are named by identifiers, and that no two types of one container have the same name.
-/

namespace TestScout

structure Symbol.Keeps (s t : Symbol) : Prop where
  kind : t.kind = s.kind
  name : t.name = s.name
  containing : t.containing = s.containing
  members : s.members ⊆ t.members

theorem Symbol.Keeps.refl (s : Symbol) : s.Keeps s :=
  ⟨rfl,rfl,rfl,List.Subset.refl _⟩

theorem Symbol.Keeps.trans {s t u : Symbol} (first : s.Keeps t) (second : t.Keeps u) : s.Keeps u :=
  ⟨second.kind.trans first.kind,second.name.trans first.name,second.containing.trans first.containing,
    List.Subset.trans first.members second.members⟩

namespace Graph

open DisplayPart

variable {g h : Graph} {id container global : SymbolId} {path : List DisplayPart} {s t : Symbol}
  {fresh : SymbolId → Prop}

/-- Every symbol of the first graph is in the second, and so is no namespace and no type but those
of the first graph and fresh ones. -/
structure Extends (g h : Graph) (fresh : SymbolId → Prop) : Prop where
  kept : ∀ ⦃id s⦄, g.symbol? id = some s → ∃ t, h.symbol? id = some t ∧ s.Keeps t
  origin : ∀ ⦃id t⦄, h.symbol? id = some t → t.kind.isNamespaceOrType →
    fresh id ∨ ∃ s, g.symbol? id = some s ∧ s.Keeps t

theorem Extends.trans {k : Graph} {later : SymbolId → Prop} (first : g.Extends h fresh)
    (second : h.Extends k later) : g.Extends k fun id => fresh id ∨ later id where
  kept id s hs := by
    obtain ⟨t,ht,keeps⟩ := first.kept hs
    obtain ⟨u,hu,keeps'⟩ := second.kept ht
    exact ⟨u,hu,keeps.trans keeps'⟩
  origin id u hu holds := by
    rcases second.origin hu holds with new | ⟨t,ht,keeps'⟩
    · exact .inl (.inr new)
    · rcases first.origin ht (keeps'.kind ▸ holds) with new | ⟨s,hs,keeps⟩
      · exact .inl (.inl new)
      · exact .inr ⟨s,hs,keeps.trans keeps'⟩

theorem extends_of_symbol?_eq (same : ∀ id, h.symbol? id = g.symbol? id) :
    g.Extends h fun _ => False where
  kept id s hs := ⟨s,(same id).trans hs,.refl s⟩
  origin id t ht _ := .inr ⟨t,(same id).symm.trans ht,.refl t⟩

theorem extends_modify {change : Symbol → Symbol} (keeps : ∀ s, Symbol.Keeps s (change s)) :
    g.Extends (g.modify id change) fun _ => False where
  kept other s hs := by
    rw [symbol?_modify,hs]
    by_cases same : id = other
    · exact ⟨change s,by simp [same],keeps s⟩
    · exact ⟨s,by simp [same],.refl s⟩
  origin other t ht _ := by
    rw [symbol?_modify] at ht
    cases hs : g.symbol? other with
    | none => simp [hs] at ht
    | some s =>
      rw [hs] at ht
      refine .inr ⟨s,rfl,?_⟩
      by_cases same : id = other
      · simp only [same,if_true,Option.map_some,Option.some.injEq] at ht
        exact ht ▸ keeps s
      · simp only [same,if_false,Option.map_some,Option.some.injEq] at ht
        exact ht ▸ .refl s

theorem extends_of_added {new : SymbolId} (absent : g.symbol? new = none)
    (added : h.symbol? new = some s)
    (rest : ∀ id, id ≠ new → ∃ change : Symbol → Symbol,
      h.symbol? id = (g.symbol? id).map change ∧ ∀ p, Symbol.Keeps p (change p)) :
    g.Extends h fun id => id = new ∧ s.kind.isNamespaceOrType where
  kept id p hp := by
    have apart : id ≠ new := by
      rintro rfl
      simp [absent] at hp
    obtain ⟨change,same,keeps⟩ := rest id apart
    exact ⟨change p,by rw [same,hp]; rfl,keeps p⟩
  origin id t ht holds := by
    by_cases same : id = new
    · subst same
      obtain rfl := Option.some.inj (added.symm.trans ht)
      exact .inl ⟨rfl,holds⟩
    · obtain ⟨change,image,keeps⟩ := rest id same
      rw [image] at ht
      obtain ⟨p,hp,rfl⟩ := Option.map_eq_some_iff.1 ht
      exact .inr ⟨p,hp,keeps p⟩

@[simp] theorem symbol?_fresh (g : Graph) : g.symbol? ⟨g.symbols.length⟩ = none :=
  List.getElem?_eq_none (Nat.le_refl _)

theorem extends_addMember (g : Graph) (s : Symbol) :
    g.Extends (g.addMember s).2
      fun id => id = ⟨g.symbols.length⟩ ∧ s.kind.isNamespaceOrType := by
  refine extends_of_added (symbol?_fresh g) (by simp [symbol?_addMember]) ?_
  intro id apart
  refine ⟨_,by rw [symbol?_addMember,if_neg apart],?_⟩
  intro p
  split
  · exact ⟨rfl,rfl,rfl,List.subset_append_left _ _⟩
  · exact .refl p

theorem extends_add (g : Graph) (s : Symbol) :
    g.Extends (g.add s).2
      fun id => id = ⟨g.symbols.length⟩ ∧ s.kind.isNamespaceOrType := by
  refine extends_of_added (symbol?_fresh g) (by simp) ?_
  intro id apart
  refine ⟨fun p => p,?_,.refl⟩
  rw [symbol?_add,if_neg apart,Option.map_id']

theorem Extends.isNamespace (grows : g.Extends h fresh) (hn : g.isNamespace id) :
    h.isNamespace id := by
  obtain ⟨s,hs,kind⟩ := isNamespace_iff.1 hn
  obtain ⟨t,ht,keeps⟩ := grows.kept hs
  exact isNamespace_iff.2 ⟨t,ht,keeps.kind.trans kind⟩

theorem Extends.isGlobal (grows : g.Extends h fresh) (isGlobal : g.IsGlobal id) :
    h.IsGlobal id := by
  obtain ⟨s,root,hs,kind,unnamed,hc,r,hr,hk,alone⟩ := isGlobal
  obtain ⟨t,ht,keeps⟩ := grows.kept hs
  obtain ⟨r',hr',keeps'⟩ := grows.kept hr
  exact ⟨t,root,ht,keeps.kind.trans kind,keeps.name.trans unnamed,keeps.containing.trans hc,
    r',hr',keeps'.kind.trans hk,keeps'.containing.trans alone⟩

theorem Extends.located (grows : g.Extends h fresh) (located : g.Located id path) :
    h.Located id path := by
  induction located with
  | global isGlobal => exact .global (grows.isGlobal isGlobal)
  | @inner id container path s part _ hs hc named flat clean ih =>
    obtain ⟨t,ht,keeps⟩ := grows.kept hs
    have same : ofSymbol? t = ofSymbol? s := by
      unfold ofSymbol?
      rw [keeps.kind,keeps.name]
    exact .inner ih ht (keeps.containing.trans hc) (same.trans named)
      (fun kind => grows.isNamespace (flat (keeps.kind ▸ kind))) (keeps.name ▸ clean)

theorem Extends.qualifiedName (grows : g.Extends h fresh) (located : g.Located id path) :
    h.qualifiedName id = g.qualifiedName id := by
  rw [(grows.located located).qualifiedName,located.qualifiedName]

/-- What holds of the namespaces, the types and the registered names of a graph under construction. -/
structure Tidy (g : Graph) (global : SymbolId) : Prop where
  isGlobal : g.IsGlobal global
  unnamed : ∀ ⦃id s⦄, g.symbol? id = some s → s.kind = .namespace → s.name = "" → id = global
  located : ∀ ⦃id s⦄, g.symbol? id = some s → s.kind.isNamespaceOrType → ∃ path, g.Located id path
  listed : ∀ ⦃id s container⦄, g.symbol? id = some s → s.kind = .namespace →
    s.containing = some container → ∃ c, g.symbol? container = some c ∧ id ∈ c.members
  siblings : g.SiblingsDiffer .namespace
  names : ∀ type name, (type,name) ∈ g.names ↔ g.isType type ∧ name = g.qualifiedName type

theorem SiblingsDiffer.extend (grows : g.Extends h fresh) (old : g.SiblingsDiffer .namespace)
    (single : ∀ ⦃id other⦄, fresh id → fresh other → id = other)
    (newName : ∀ ⦃id other s t⦄, fresh id → h.symbol? id = some s → s.kind = .namespace →
      g.symbol? other = some t → t.kind = .namespace → t.containing = s.containing →
      t.name ≠ s.name) : h.SiblingsDiffer .namespace := by
  intro id other s t hs ht kind kind' containers names
  have origin := grows.origin hs (by rw [kind]; rfl)
  have origin' := grows.origin ht (by rw [kind']; rfl)
  rcases origin with new | ⟨p,hp,keeps⟩ <;> rcases origin' with new' | ⟨q,hq,keeps'⟩
  · exact single new new'
  · exact absurd (keeps'.name.symm.trans names.symm) (newName new hs kind hq
      (keeps'.kind.symm.trans kind') (keeps'.containing.symm.trans containers.symm))
  · exact absurd (keeps.name.symm.trans names) (newName new' ht kind' hp
      (keeps.kind.symm.trans kind) (keeps.containing.symm.trans containers))
  · exact old hp hq (keeps.kind.symm.trans kind) (keeps'.kind.symm.trans kind')
      (keeps.containing.symm.trans (containers.trans keeps'.containing))
      (keeps.name.symm.trans (names.trans keeps'.name))

theorem Tidy.names_extend (tidy : g.Tidy global) (grows : g.Extends h fresh) {type : SymbolId}
    (name : String) (old : fresh type → ¬h.isType type) :
    (type,name) ∈ g.names ↔ h.isType type ∧ name = h.qualifiedName type := by
  rw [tidy.names]
  constructor
  · rintro ⟨isType,rfl⟩
    obtain ⟨s,hs,kind⟩ := isType_iff.1 isType
    obtain ⟨path,located⟩ := tidy.located hs (by rw [kind]; rfl)
    obtain ⟨t,ht,keeps⟩ := grows.kept hs
    exact ⟨isType_iff.2 ⟨t,ht,keeps.kind.trans kind⟩,(grows.qualifiedName located).symm⟩
  · rintro ⟨isType,rfl⟩
    obtain ⟨t,ht,kind⟩ := isType_iff.1 isType
    rcases grows.origin ht (by rw [kind]; rfl) with new | ⟨s,hs,keeps⟩
    · exact absurd isType (old new)
    · have kind' := keeps.kind.symm.trans kind
      obtain ⟨path,located⟩ := tidy.located hs (by rw [kind']; rfl)
      exact ⟨isType_iff.2 ⟨s,hs,kind'⟩,grows.qualifiedName located⟩

theorem Tidy.extend (tidy : g.Tidy global) (grows : g.Extends h fresh)
    (named : ∀ ⦃id s⦄, fresh id → h.symbol? id = some s → s.name ≠ "")
    (located : ∀ ⦃id⦄, fresh id → ∃ path, h.Located id path)
    (listed : ∀ ⦃id s container⦄, fresh id → h.symbol? id = some s → s.kind = .namespace →
      s.containing = some container → ∃ c, h.symbol? container = some c ∧ id ∈ c.members)
    (siblings : h.SiblingsDiffer .namespace)
    (names : ∀ type name, (type,name) ∈ h.names ↔ h.isType type ∧ name = h.qualifiedName type) :
    h.Tidy global where
  isGlobal := grows.isGlobal tidy.isGlobal
  unnamed id t ht kind empty := by
    rcases grows.origin ht (by rw [kind]; rfl) with new | ⟨s,hs,keeps⟩
    · exact absurd empty (named new ht)
    · exact tidy.unnamed hs (keeps.kind.symm.trans kind) (keeps.name.symm.trans empty)
  located id t ht holds := by
    rcases grows.origin ht holds with new | ⟨s,hs,keeps⟩
    · exact located new
    · obtain ⟨path,found⟩ := tidy.located hs (keeps.kind ▸ holds)
      exact ⟨path,grows.located found⟩
  listed id t container ht kind hc := by
    rcases grows.origin ht (by rw [kind]; rfl) with new | ⟨s,hs,keeps⟩
    · exact listed new ht kind hc
    · obtain ⟨c,found,member⟩ := tidy.listed hs (keeps.kind.symm.trans kind)
        (keeps.containing.symm.trans hc)
      obtain ⟨c',found',keeps'⟩ := grows.kept found
      exact ⟨c',found',keeps'.members member⟩
  siblings := siblings
  names := names

theorem Tidy.quiet (tidy : g.Tidy global) (grows : g.Extends h fresh) (none : ∀ id, ¬fresh id)
    (same : h.names = g.names) : h.Tidy global := by
  refine tidy.extend grows ?_ ?_ ?_ ?_ ?_
  · intro id s new
    exact absurd new (none id)
  · intro id new
    exact absurd new (none id)
  · intro id s container new
    exact absurd new (none id)
  · refine tidy.siblings.extend grows ?_ ?_
    · intro id other new
      exact absurd new (none id)
    · intro id other s t new
      exact absurd new (none id)
  · intro type name
    rw [same]
    exact tidy.names_extend grows name fun new => absurd new (none type)

theorem childNamespace?_none {parent : SymbolId} {name : String} {p : Symbol}
    (hp : g.symbol? parent = some p) (missing : g.childNamespace? parent name = none)
    (member : id ∈ p.members) (hs : g.symbol? id = some s) (kind : s.kind = .namespace) :
    s.name ≠ name := by
  simp only [childNamespace?,hp,List.find?_eq_none] at missing
  have := missing id member
  simpa [hs,Symbol.isNamespace,kind] using this

theorem childNamespace?_some {parent : SymbolId} {name : String}
    (found : g.childNamespace? parent name = some id) : g.isNamespace id := by
  unfold childNamespace? at found
  split at found
  · simp at found
  · have := List.find?_some found
    obtain ⟨s,hs,both⟩ := (Option.any_eq_true ..).1 this
    rw [Bool.and_eq_true] at both
    exact isNamespace_iff.2 ⟨s,hs,beq_iff_eq.1 both.1⟩

@[simp] theorem symbol?_addMember_new (g : Graph) (s : Symbol) :
    (g.addMember s).2.symbol? ⟨g.symbols.length⟩ = some s := by
  rw [symbol?_addMember,if_pos rfl]

theorem mem_members_addMember (hc : s.containing = some container)
    (found : g.symbol? container = some t) :
    ∃ c, (g.addMember s).2.symbol? container = some c ∧ ⟨g.symbols.length⟩ ∈ c.members := by
  have apart : container ≠ ⟨g.symbols.length⟩ := by
    rintro rfl
    simp at found
  refine ⟨_,by rw [symbol?_addMember,if_neg apart,found,Option.map_some],?_⟩
  simp [hc]

theorem Tidy.addNamespace (tidy : g.Tidy global) (around : g.isNamespace container)
    (missing : g.childNamespace? container s.name = none) (clean : IsIdentifier s.name)
    (kind : s.kind = .namespace) (hc : s.containing = some container) :
    (g.addMember s).2.Tidy global := by
  have grows := extends_addMember g s
  have new := symbol?_addMember_new g s
  obtain ⟨c,found,holds⟩ := isNamespace_iff.1 around
  refine tidy.extend grows ?_ ?_ ?_ ?_ ?_
  · rintro _ t ⟨rfl,-⟩ ht
    obtain rfl := Option.some.inj (new.symm.trans ht)
    exact clean.ne_empty
  · rintro _ ⟨rfl,-⟩
    obtain ⟨path,outer⟩ := tidy.located found (by rw [holds]; rfl)
    have named : ofSymbol? s = some ⟨.namespaceName,s.name⟩ := by
      simp [ofSymbol?,kind,clean.ne_empty]
    exact ⟨_,.inner (grows.located outer) new hc named (fun _ => grows.isNamespace around) clean⟩
  · rintro _ t container' ⟨rfl,-⟩ ht - hc'
    obtain rfl := Option.some.inj (new.symm.trans ht)
    obtain rfl := Option.some.inj (hc.symm.trans hc')
    exact mem_members_addMember hc found
  · refine tidy.siblings.extend grows (fun _ _ new new' => new.1.trans new'.1.symm) ?_
    rintro _ other t u ⟨rfl,-⟩ ht - hu kind' containers
    obtain rfl := Option.some.inj (new.symm.trans ht)
    -- An old namespace of this container is among its members, where the search found none.
    obtain ⟨c',found',member⟩ := tidy.listed hu kind' (containers.trans hc)
    obtain rfl := Option.some.inj (found.symm.trans found')
    exact childNamespace?_none found missing member hu kind'
  · intro type name
    rw [names_addMember]
    refine tidy.names_extend grows name ?_
    rintro ⟨rfl,-⟩
    simp [isType,new,Symbol.isType,kind]

theorem Tidy.registeredName? (tidy : g.Tidy global) (isType : g.isType id) :
    g.registeredName? id = some (g.qualifiedName id) := by
  have entered := (tidy.names id (g.qualifiedName id)).2 ⟨isType,rfl⟩
  unfold Graph.registeredName?
  cases found : g.names.find? fun entry => entry.1 == id with
  | none => exact absurd (List.find?_eq_none.1 found _ entered) (by simp)
  | some entry =>
    have same : entry.1 = id := by simpa using List.find?_some found
    have := (tidy.names entry.1 entry.2).1 (List.mem_of_find?_eq_some found)
    rw [Option.map_some,this.2,same]

@[simp] theorem symbol?_register (g : Graph) (container type id : SymbolId) :
    (g.register container type).symbol? id = g.symbol? id := by
  unfold register
  split <;> rfl

theorem names_register (hs : g.symbol? id = some s) :
    (g.register container id).names =
      (id,g.fullNamePrefix container ++ s.metadataName) :: g.names := by
  simp [register,hs]

theorem Extends.congr {k : Graph} (grows : g.Extends h fresh)
    (same : ∀ id, k.symbol? id = h.symbol? id) : g.Extends k fresh where
  kept id s hs := by
    rw [same]
    exact grows.kept hs
  origin id t ht := by
    rw [same] at ht
    exact grows.origin ht

theorem Tidy.fullNamePrefix_extend (tidy : g.Tidy global) (grows : g.Extends h fresh)
    (same : h.names = g.names) (located : g.Located container path) :
    h.fullNamePrefix container = lead path := by
  refine (grows.located located).fullNamePrefix fun isType => ?_
  have isType : g.isType container := by
    rw [← located.inType_eq,(grows.located located).inType_eq]
    exact isType
  have before := tidy.registeredName? isType
  rw [located.qualifiedName] at before
  unfold Graph.registeredName? at before ⊢
  rw [same,before]

theorem Tidy.addType (tidy : g.Tidy global) (located : g.Located container path)
    (clean : IsIdentifier s.name) (plain : s.metadataName = s.name) (kind : s.kind = .namedType)
    (hc : s.containing = some container) :
    ((g.addMember s).2.register container ⟨g.symbols.length⟩).Tidy global := by
  have added := extends_addMember g s
  have grows := added.congr (symbol?_register _ container ⟨g.symbols.length⟩)
  have new := symbol?_addMember_new g s
  have newest := (symbol?_register _ container ⟨g.symbols.length⟩ _).trans new
  have named : ofSymbol? s = some ⟨.typeName,s.name⟩ := by simp [ofSymbol?,kind]
  have inner := Located.inner (grows.located located) newest hc named (by simp [kind]) clean
  refine tidy.extend grows ?_ ?_ ?_ ?_ ?_
  · rintro _ t ⟨rfl,-⟩ ht
    obtain rfl := Option.some.inj (newest.symm.trans ht)
    exact clean.ne_empty
  · rintro _ ⟨rfl,-⟩
    exact ⟨_,inner⟩
  · rintro _ t container' ⟨rfl,-⟩ ht kind'
    obtain rfl := Option.some.inj (newest.symm.trans ht)
    simp [kind] at kind'
  · refine tidy.siblings.extend grows (fun _ _ new new' => new.1.trans new'.1.symm) ?_
    rintro _ other t u ⟨rfl,-⟩ ht kind'
    obtain rfl := Option.some.inj (newest.symm.trans ht)
    simp [kind] at kind'
  · intro type name
    have before := tidy.fullNamePrefix_extend added (names_addMember g s) located
    rw [names_register new,List.mem_cons,Prod.mk.injEq,names_addMember,before,plain]
    by_cases same : type = ⟨g.symbols.length⟩
    · subst same
      -- The new type has no earlier entry, since all entries are of types that were there before.
      have unknown : (⟨g.symbols.length⟩,name) ∉ g.names := by
        rw [tidy.names]
        simp [isType]
      have isType : ((g.addMember s).2.register container ⟨g.symbols.length⟩).isType
          ⟨g.symbols.length⟩ := isType_iff.2 ⟨s,newest,kind⟩
      rw [inner.qualifiedName,pathText_concat rfl]
      simp [unknown,isType]
    · rw [tidy.names_extend grows name fun new => absurd new.1 same]
      simp [same]

theorem Tidy.qualifiedName_inj {type other : SymbolId} (tidy : g.Tidy global)
    (types : g.SiblingsDiffer .namedType) (ht : g.isType type) (ho : g.isType other)
    (same : g.qualifiedName type = g.qualifiedName other) : type = other := by
  obtain ⟨s,hs,kind⟩ := isType_iff.1 ht
  obtain ⟨t,hs',kind'⟩ := isType_iff.1 ho
  obtain ⟨path,located⟩ := tidy.located hs (by rw [kind]; rfl)
  obtain ⟨path',located'⟩ := tidy.located hs' (by rw [kind']; rfl)
  have one : ∀ ⦃id other⦄, g.IsGlobal id → g.IsGlobal other → id = other := by
    rintro id other ⟨s,-,hs,kind,unnamed,-⟩ ⟨t,-,ht,kind',unnamed',-⟩
    rw [tidy.unnamed hs kind unnamed,tidy.unnamed ht kind' unnamed']
  rw [located.qualifiedName,located'.qualifiedName] at same
  refine located.injective one tidy.siblings types located' ?_ same
  rw [located.inType_eq,located'.inType_eq,ht,ho]

theorem Tidy.typeNamed?_iff (tidy : g.Tidy global) (types : g.SiblingsDiffer .namedType)
    (name : String) (type : SymbolId) :
    g.typeNamed? name = some type ↔ g.isType type ∧ name = g.qualifiedName type := by
  have found_iff : ∀ {type}, g.typeNamed? name = some type →
      g.isType type ∧ name = g.qualifiedName type := by
    intro type found
    obtain ⟨entry,first,rfl⟩ := Option.map_eq_some_iff.1 found
    have same : entry.2 = name := by simpa using List.find?_some first
    rw [← same]
    exact (tidy.names entry.1 entry.2).1 (List.mem_of_find?_eq_some first)
  refine ⟨found_iff,?_⟩
  rintro ⟨isType,same⟩
  have entered := (tidy.names type name).2 ⟨isType,same⟩
  cases found : g.typeNamed? name with
  | none =>
    have missing := List.find?_eq_none.1 (Option.map_eq_none_iff.1 found) _ entered
    simp at missing
  | some other =>
    obtain ⟨isType',same'⟩ := found_iff found
    rw [Tidy.qualifiedName_inj tidy types isType' isType (same'.symm.trans same)]

theorem isNamespace_register {new : SymbolId} (around : g.isNamespace id) :
    ((g.addMember s).2.register container new).isNamespace id :=
  ((extends_addMember g s).congr (symbol?_register _ container new)).isNamespace around

end Graph

namespace Builder

variable {b : Builder}

/-- Namespaces and types are put where they belong and named by identifiers: a namespace that does
not exist yet into a namespace, a type into a namespace or type, with its name as its metadata name. -/
def PlacesPlainly (b : Builder) : Call → Prop
  | .openNamespace parent name =>
    b.graph.childNamespace? parent name = none → b.graph.isNamespace parent ∧ IsIdentifier name
  | .openPath path => ∀ segment ∈ pathSegments path, IsIdentifier segment
  | .addType containing s =>
    (b.graph.isNamespace containing ∨ b.graph.isType containing) ∧ IsIdentifier s.name ∧
      s.metadataName = s.name
  | .addClass containing name _ | .addInterface containing name
  | .addAttributeClass containing name _ _ =>
    (b.graph.isNamespace containing ∨ b.graph.isType containing) ∧ IsIdentifier name
  | _ => True

def IsTidy (b : Builder) : Prop :=
  b.graph.Tidy b.globalNamespace

theorem IsTidy.openNamespace {parent : SymbolId} {name : String} (tidy : b.IsTidy)
    (placed : b.graph.childNamespace? parent name = none →
      b.graph.isNamespace parent ∧ IsIdentifier name) :
    (b.openNamespace parent name).2.IsTidy ∧
      (b.openNamespace parent name).2.graph.isNamespace (b.openNamespace parent name).1 := by
  cases found : b.graph.childNamespace? parent name with
  | some id =>
    rw [openNamespace_of_some found]
    exact ⟨tidy,Graph.childNamespace?_some found⟩
  | none =>
    obtain ⟨around,clean⟩ := placed found
    rw [openNamespace_of_none found]
    have new := Graph.symbol?_addMember_new b.graph (b.newNamespace parent name)
    exact ⟨Graph.Tidy.addNamespace tidy around found clean rfl rfl,
      Graph.isNamespace_iff.2 ⟨_,new,rfl⟩⟩

theorem IsTidy.openNamespaces {parent : SymbolId} {segments : List String} (tidy : b.IsTidy)
    (around : b.graph.isNamespace parent) (clean : ∀ segment ∈ segments, IsIdentifier segment) :
    (b.openNamespaces parent segments).2.IsTidy ∧
      (b.openNamespaces parent segments).2.graph.isNamespace (b.openNamespaces parent segments).1 := by
  induction segments generalizing b parent with
  | nil => exact ⟨tidy,around⟩
  | cons name rest ih =>
    have first := tidy.openNamespace fun _ => ⟨around,clean name List.mem_cons_self⟩
    exact ih first.1 first.2 fun segment member => clean segment (List.mem_cons_of_mem _ member)

theorem IsTidy.located {id : SymbolId} (tidy : b.IsTidy)
    (holds : b.graph.isNamespace id ∨ b.graph.isType id) : ∃ path, b.graph.Located id path := by
  rcases holds with isNamespace | isType
  · obtain ⟨s,hs,kind⟩ := Graph.isNamespace_iff.1 isNamespace
    exact Graph.Tidy.located tidy hs (by rw [kind]; rfl)
  · obtain ⟨s,hs,kind⟩ := Graph.isType_iff.1 isType
    exact Graph.Tidy.located tidy hs (by rw [kind]; rfl)

theorem IsTidy.addType {containing : SymbolId} {s : Symbol} (tidy : b.IsTidy)
    (placed : b.graph.isNamespace containing ∨ b.graph.isType containing)
    (clean : IsIdentifier s.name) (plain : s.metadataName = s.name) :
    (b.addType containing s).2.IsTidy := by
  obtain ⟨path,located⟩ := tidy.located placed
  rw [addType_eq]
  exact Graph.Tidy.addType tidy located clean plain rfl rfl

theorem IsTidy.addClass {containing : SymbolId} {name : String} {base : Option SymbolId}
    (tidy : b.IsTidy) (placed : b.graph.isNamespace containing ∨ b.graph.isType containing)
    (clean : IsIdentifier name) : (b.addClass containing name base).2.IsTidy :=
  tidy.addType placed clean rfl

theorem IsTidy.modify {id : SymbolId} {change : Symbol → Symbol} (tidy : b.IsTidy)
    (keeps : ∀ s, Symbol.Keeps s (change s)) : (b.modify id change).IsTidy :=
  Graph.Tidy.quiet tidy (Graph.extends_modify keeps) (fun _ h => h) rfl

theorem IsTidy.addMethod {type : SymbolId} {s : Symbol} (tidy : b.IsTidy) :
    (b.addMethod type s).2.IsTidy := by
  unfold Builder.addMethod
  rw [addMember_eq]
  refine Graph.Tidy.quiet tidy (Graph.extends_addMember ..) ?_ (Graph.names_addMember ..)
  rintro id ⟨-,holds⟩
  exact Bool.noConfusion holds

theorem IsTidy.addParameter {method : SymbolId} {name : String} {type : Option SymbolId}
    (tidy : b.IsTidy) : (b.addParameter method name type).2.IsTidy := by
  have added := Graph.extends_add b.graph
    { Symbol.ofName .parameter name b.language with
      containing := some method, parameterType := type }
  have kept := Graph.Tidy.quiet tidy added (fun _ h => Bool.noConfusion h.2) rfl
  exact Graph.Tidy.quiet kept (Graph.extends_modify fun s => ⟨rfl,rfl,rfl,List.Subset.refl _⟩)
    (fun _ h => h) rfl

theorem IsTidy.perform {call : Call} (placed : b.PlacesPlainly call) (tidy : b.IsTidy) :
    (b.perform call).IsTidy := by
  cases call with
  | setLanguage language => exact tidy
  | openNamespace parent name => exact (tidy.openNamespace placed).1
  | openPath path =>
    have global := Graph.Tidy.isGlobal tidy
    obtain ⟨s,-,hs,kind,-⟩ := global
    exact (tidy.openNamespaces (Graph.isNamespace_iff.2 ⟨s,hs,kind⟩) placed).1
  | addType containing s => exact tidy.addType placed.1 placed.2.1 placed.2.2
  | addClass containing name base => exact tidy.addClass placed.1 placed.2
  | addInterface containing name => exact tidy.addType placed.1 placed.2 rfl
  | addAttributeClass containing name base inherited =>
    cases inherited with
    | none => exact tidy.addClass placed.1 placed.2
    | some inherited =>
      exact (tidy.addClass placed.1 placed.2).modify fun s => ⟨rfl,rfl,rfl,List.Subset.refl _⟩
  | addMethod type s => exact tidy.addMethod
  | addPublicMethod type name overridden => exact tidy.addMethod
  | addParameter method name type => exact tidy.addParameter
  | apply target a => exact tidy.modify fun s => ⟨rfl,rfl,rfl,List.Subset.refl _⟩
  | declare document node s =>
    exact Graph.Tidy.quiet tidy (Graph.extends_of_symbol?_eq fun _ => rfl) (fun _ h => h) rfl

theorem IsTidy.finish (tidy : b.IsTidy) (anonymous : Bool) :
    (b.finish anonymous).Tidy b.globalNamespace := by
  cases anonymous with
  | false => exact tidy
  | true => exact Graph.Tidy.quiet tidy (Graph.extends_of_symbol?_eq fun _ => rfl) (fun _ h => h) rfl

theorem isTidy_empty (assembly : String) : (empty assembly).IsTidy := by
  have cases : ∀ {id : SymbolId} {s : Symbol}, (empty assembly).graph.symbol? id = some s →
      id = ⟨0⟩ ∧ s.kind = .assembly ∨
      id = ⟨1⟩ ∧ s.kind = .namespace ∧ s.containing = some ⟨0⟩ := by
    rintro ⟨i⟩ s hs
    match i with
    | 0 =>
      obtain rfl := Option.some.inj hs
      exact .inl ⟨rfl,rfl⟩
    | 1 =>
      obtain rfl := Option.some.inj hs
      exact .inr ⟨rfl,rfl,rfl⟩
    | i + 2 => exact absurd hs (by simp [Graph.symbol?,empty])
  have isGlobal : (empty assembly).graph.IsGlobal ⟨1⟩ :=
    ⟨_,⟨0⟩,rfl,rfl,rfl,rfl,_,rfl,rfl,rfl⟩
  refine ⟨isGlobal,?_,?_,?_,?_,?_⟩
  · intro id s hs kind _
    rcases cases hs with ⟨-,kind'⟩ | ⟨rfl,-⟩
    · simp [kind] at kind'
    · rfl
  · intro id s hs holds
    rcases cases hs with ⟨-,kind⟩ | ⟨rfl,-⟩
    · simp [kind,SymbolKind.isNamespaceOrType] at holds
    · exact ⟨[],.global isGlobal⟩
  · intro id s container hs kind hc
    rcases cases hs with ⟨-,kind'⟩ | ⟨rfl,-,hc'⟩
    · simp [kind] at kind'
    · obtain rfl := Option.some.inj (hc'.symm.trans hc)
      exact ⟨_,rfl,List.mem_singleton_self _⟩
  · intro id other s t hs ht kind kind' _ _
    rcases cases hs with ⟨-,h⟩ | ⟨rfl,-⟩
    · simp [kind] at h
    · rcases cases ht with ⟨-,h⟩ | ⟨rfl,-⟩
      · simp [kind'] at h
      · rfl
  · intro type name
    constructor
    · intro entered
      exact absurd entered (List.not_mem_nil)
    · rintro ⟨isType,-⟩
      obtain ⟨s,hs,kind⟩ := Graph.isType_iff.1 isType
      rcases cases hs with ⟨-,h⟩ | ⟨-,h,-⟩ <;> simp [kind] at h

theorem isNamespace_addClass {id containing : SymbolId} {name : String} {base : Option SymbolId}
    (around : b.graph.isNamespace id) :
    (b.addClass containing name base).2.graph.isNamespace id := by
  rw [addClass,addType_eq]
  exact Graph.isNamespace_register around

theorem IsTidy.withObject {system : SymbolId} (tidy : b.IsTidy)
    (around : b.graph.isNamespace system) :
    (b.withObject system).IsTidy ∧ (b.withObject system).graph.isNamespace system := by
  obtain ⟨path,located⟩ := tidy.located (.inl around)
  have clean : IsIdentifier "Object" := by decide
  unfold Builder.withObject
  rw [addMember_eq]
  exact ⟨Graph.Tidy.addType tidy located clean rfl rfl rfl,Graph.isNamespace_register around⟩

theorem IsTidy.withAttribute {system : SymbolId} (tidy : b.IsTidy)
    (around : b.graph.isNamespace system) :
    (b.withAttribute system).IsTidy ∧ (b.withAttribute system).graph.isNamespace system := by
  have added : (b.addClass system "Attribute" none).2.IsTidy :=
    tidy.addClass (.inl around) (by decide)
  have keeps : ∀ s : Symbol, s.Keeps { s with isAbstract := true } :=
    fun s => ⟨rfl,rfl,rfl,List.Subset.refl _⟩
  exact ⟨added.modify keeps,(Graph.extends_modify keeps).isNamespace (isNamespace_addClass around)⟩

theorem IsTidy.withAttributeUsage {system : SymbolId} (tidy : b.IsTidy)
    (around : b.graph.isNamespace system) : (b.withAttributeUsage system).IsTidy :=
  tidy.addClass (.inl around) (by decide)

theorem isTidy_ofAssembly (assembly : String) : (ofAssembly assembly).IsTidy := by
  have segments : pathSegments "System" = ["System"] := by decide
  have clean : ∀ segment ∈ pathSegments "System", IsIdentifier segment := by
    intro segment member
    rw [segments,List.mem_singleton] at member
    exact member ▸ by decide
  have global : (empty assembly).graph.isNamespace (empty assembly).globalNamespace := rfl
  obtain ⟨opened,around⟩ := (isTidy_empty assembly).openNamespaces global clean
  obtain ⟨tidy,around⟩ := opened.withObject around
  obtain ⟨tidy,around⟩ := tidy.withAttribute around
  rw [ofAssembly_eq]
  exact tidy.withAttributeUsage around

/-- In every graph that is built plainly and in which the types of a container differ in name, each
type is found by its qualified name, and what is found by a name has that qualified name. -/
theorem typeNamed?_qualifiedName {assembly : String} {calls : List Call} {anonymous : Bool}
    {g : Graph} (finished : ((ofAssembly assembly).run calls).finish anonymous = g)
    (plain : RunMeets PlacesPlainly (ofAssembly assembly) calls)
    (distinct : g.SiblingsDiffer .namedType) :
    (∀ type, g.isType type → g.typeNamed? (g.qualifiedName type) = some type) ∧
    ∀ name type, g.typeNamed? name = some type → g.isType type ∧ name = g.qualifiedName type := by
  subst finished
  have built : ((ofAssembly assembly).run calls).IsTidy :=
    run_keeps (fun _ _ placed tidy => tidy.perform placed) plain (isTidy_ofAssembly assembly)
  have tidy := built.finish anonymous
  constructor
  · intro type isType
    exact (tidy.typeNamed?_iff distinct _ type).2 ⟨isType,rfl⟩
  · intro name type found
    exact (tidy.typeNamed?_iff distinct name type).1 found

end Builder

def nestedCalls : List Builder.Call :=
  [.openPath "N.Sub",.addClass ⟨7⟩ "Outer" none,.addInterface ⟨8⟩ "Inner"]

theorem nestedCalls_plain :
    Builder.RunMeets Builder.PlacesPlainly (.ofAssembly "Tests") nestedCalls := by
  have segments : Builder.pathSegments "N.Sub" = ["N","Sub"] := by decide
  refine ⟨?_,⟨.inl rfl,by decide⟩,⟨.inr rfl,by decide⟩,trivial⟩
  intro segment member
  rw [segments,List.mem_cons,List.mem_singleton] at member
  rcases member with rfl | rfl <;> decide

def nestedGraph : Graph :=
  ((Builder.ofAssembly "Tests").run nestedCalls).finish false

theorem Graph.siblingsDiffer_of_pairwise {g : Graph} {kind : SymbolKind}
    (apart : g.symbols.Pairwise fun s t => s.kind = kind → t.kind = kind →
      s.containing = t.containing → s.name ≠ t.name) : g.SiblingsDiffer kind := by
  intro id other s t hs ht kind kind' containers names
  obtain ⟨hi,hs⟩ := List.getElem?_eq_some_iff.1 hs
  obtain ⟨hj,ht⟩ := List.getElem?_eq_some_iff.1 ht
  subst hs ht
  rw [List.pairwise_iff_getElem] at apart
  rcases Nat.lt_trichotomy id.index other.index with before | same | after
  · exact absurd names (apart _ _ hi hj before kind kind' containers)
  · exact congrArg SymbolId.mk same
  · exact absurd names.symm (apart _ _ hj hi after kind' kind containers.symm)

theorem typeNamed?_qualifiedName_nested :
    nestedGraph.typeNamed? "N.Sub.Outer+Inner" = some ⟨9⟩ := by
  have types : nestedGraph.SiblingsDiffer .namedType :=
    Graph.siblingsDiffer_of_pairwise (by decide)
  have name : nestedGraph.qualifiedName ⟨9⟩ = "N.Sub.Outer+Inner" := by cbv
  rw [← name]
  exact (Builder.typeNamed?_qualifiedName rfl nestedCalls_plain types).1 ⟨9⟩ rfl

end TestScout
