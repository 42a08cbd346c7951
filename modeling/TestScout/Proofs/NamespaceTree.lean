import TestScout.Proofs.GraphGrowth
set_option autoImplicit false

/-!
The tree of namespaces. In a graph whose lists of members and whose containers agree, a namespace is
reached by one path of names from the global namespace, and each path reaches one namespace at most.
What is added to the graph leaves the paths as they are.
-/

namespace TestScout

namespace Graph

variable {g h : Graph} {id other outer container : SymbolId} {name : String} {path : List String}
  {new : Option Symbol}

def IsNamespaceIn (g : Graph) (container : SymbolId) (name : String) (id : SymbolId) : Prop :=
  ∃ s, g.symbol? id = some s ∧ s.kind = .namespace ∧ s.name = name ∧ s.containing = some container

/-- The symbol that a path of names leads to: each name is that of a namespace in the one before. -/
inductive NamespaceAt (g : Graph) (outer : SymbolId) : List String → SymbolId → Prop where
  | here : NamespaceAt g outer [] outer
  | inside {path : List String} {container : SymbolId} {name : String} {id : SymbolId} :
      NamespaceAt g outer path container → g.IsNamespaceIn container name id →
      NamespaceAt g outer (path ++ [name]) id

/-- Members lie where they are listed, namespaces are listed where they lie, and those of one container
differ in name. -/
structure IsNested (g : Graph) : Prop where
  members : ∀ ⦃id s⦄, g.symbol? id = some s → ∀ member ∈ s.members,
    ∃ t, g.symbol? member = some t ∧ t.containing = some id
  listed : ∀ ⦃id s container⦄, g.symbol? id = some s → s.kind = .namespace →
    s.containing = some container → ∃ c, g.symbol? container = some c ∧ id ∈ c.members
  siblings : g.SiblingsDiffer .namespace

theorem IsOrdered.isNested (ordered : g.IsOrdered) : g.IsNested where
  members id s hs member inside := by
    rw [ordered.members hs] at inside
    obtain ⟨t,ht,holds⟩ := mem_idsWhere.1 inside
    exact ⟨t,ht,Symbol.containing_of_isMemberOf holds⟩
  listed id s container hs kind hc := by
    obtain ⟨c,found⟩ := Option.isSome_iff_exists.1
      ((g.mem_ids container).1 (ordered.containing_mem hs hc))
    refine ⟨c,found,?_⟩
    rw [ordered.members found,mem_idsWhere]
    exact ⟨s,hs,by simp [Symbol.isMemberOf,hc,kind]⟩
  siblings := ordered.namespaces

/-- A symbol that may be added: it lies in one that exists, has no members, and is no second namespace
of its name there. -/
structure Joins (g : Graph) (s : Symbol) : Prop where
  contained : ∃ container ∈ g.ids, s.containing = some container
  members : s.members = []
  named : s.kind = .namespace → ∀ ⦃container⦄, s.containing = some container →
    ∀ id, ¬g.IsNamespaceIn container s.name id

theorem Joins.of_plain {s : Symbol} (known : container ∈ g.ids) (hc : s.containing = some container)
    (members : s.members = []) (plain : s.kind ≠ .namespace) : g.Joins s where
  contained := ⟨container,known,hc⟩
  members := members
  named namespace_ := absurd namespace_ plain

theorem IsNested.edits (nested : g.IsNested) (edits : g.Edits h new) (joins : ∀ s ∈ new, g.Joins s) :
    h.IsNested where
  members id s hs member inside := by
    rcases edits.origin hs with ⟨-,rfl⟩ | ⟨p,hp,becomes⟩
    · simp [(joins s rfl).members] at inside
    · rw [becomes.members,List.mem_append] at inside
      rcases inside with old | added
      · obtain ⟨t,ht,hc⟩ := nested.members hp member old
        obtain ⟨t',ht',becomes'⟩ := edits.kept ht
        exact ⟨t',ht',becomes'.containing.trans hc⟩
      · obtain ⟨holds,rfl⟩ : new.any (Symbol.isMemberOf id) ∧ member = g.fresh := by
          unfold entry at added
          split at added
          · next holds => exact ⟨holds,List.mem_singleton.1 added⟩
          · simp at added
        obtain ⟨t,rfl,holds⟩ := (Option.any_eq_true ..).1 holds
        exact ⟨t,edits.added,Symbol.containing_of_isMemberOf holds⟩
  listed id s container hs kind hc := by
    rcases edits.origin hs with ⟨rfl,rfl⟩ | ⟨p,hp,becomes⟩
    · obtain ⟨container',known,hc'⟩ := (joins s rfl).contained
      obtain rfl := Option.some.inj (hc.symm.trans hc')
      obtain ⟨c,found⟩ := Option.isSome_iff_exists.1 ((g.mem_ids container).1 known)
      obtain ⟨c',found',becomes⟩ := edits.kept found
      refine ⟨c',found',?_⟩
      rw [becomes.members]
      exact List.mem_append_right _ (by simp [entry,Symbol.isMemberOf,hc,kind])
    · obtain ⟨c,found,member⟩ := nested.listed hp (becomes.kind ▸ kind) (becomes.containing ▸ hc)
      obtain ⟨c',found',becomes'⟩ := edits.kept found
      exact ⟨c',found',becomes'.members ▸ List.mem_append_left _ member⟩
  siblings := edits.siblingsDiffer nested.siblings fun s new kind id t ht kind' containers names => by
    have joined := joins s new
    obtain ⟨container,-,hc⟩ := joined.contained
    exact joined.named kind hc id ⟨t,ht,kind',names,containers.trans hc⟩

theorem IsNested.isNamespaceIn_unique (nested : g.IsNested) (first : g.IsNamespaceIn container name id)
    (second : g.IsNamespaceIn container name other) : id = other := by
  obtain ⟨s,hs,kind,named,hc⟩ := first
  obtain ⟨t,ht,kind',named',hc'⟩ := second
  exact nested.siblings hs ht kind kind' (hc.trans hc'.symm) (named.trans named'.symm)

theorem IsNested.childNamespace?_eq_some_iff (nested : g.IsNested) :
    g.childNamespace? container name = some id ↔ g.IsNamespaceIn container name id := by
  have sound : ∀ found, g.childNamespace? container name = some found →
      g.IsNamespaceIn container name found := by
    intro found search
    unfold childNamespace? at search
    cases hc : g.symbol? container with
    | none => simp [hc] at search
    | some c =>
      rw [hc] at search
      obtain ⟨t,ht,contained⟩ := nested.members hc found (List.mem_of_find?_eq_some search)
      have test := List.find?_some search
      simp only [ht,Option.any_some,Symbol.isNamespace,Bool.and_eq_true,beq_iff_eq] at test
      exact ⟨t,ht,test.1,test.2,contained⟩
  refine ⟨sound id,fun inside => ?_⟩
  obtain ⟨s,hs,kind,named,contained⟩ := inside
  obtain ⟨c,hc,member⟩ := nested.listed hs kind contained
  cases search : g.childNamespace? container name with
  | none => exact absurd named (childNamespace?_none hc search member hs kind)
  | some found =>
    exact congrArg some (nested.isNamespaceIn_unique (sound found search) ⟨s,hs,kind,named,contained⟩)

theorem IsNested.childNamespace?_eq_none_iff (nested : g.IsNested) :
    g.childNamespace? container name = none ↔ ∀ id, ¬g.IsNamespaceIn container name id := by
  simp only [← nested.childNamespace?_eq_some_iff,Option.eq_none_iff_forall_ne_some]

theorem IsNamespaceIn.known (inside : g.IsNamespaceIn container name id) : id ∈ g.ids := by
  obtain ⟨s,hs,-⟩ := inside
  exact mem_ids_of_symbol? hs

theorem IsGlobal.known (isGlobal : g.IsGlobal id) : id ∈ g.ids := by
  obtain ⟨s,-,hs,-⟩ := isGlobal
  exact mem_ids_of_symbol? hs

theorem IsGlobal.unnamed (isGlobal : g.IsGlobal id) {s : Symbol} (hs : g.symbol? id = some s) :
    s.name = "" := by
  obtain ⟨t,-,ht,-,empty,-⟩ := isGlobal
  obtain rfl := Option.some.inj (hs.symm.trans ht)
  exact empty

theorem IsNamespaceIn.extend (inside : g.IsNamespaceIn container name id) {fresh : SymbolId → Prop}
    (grows : g.Extends h fresh) : h.IsNamespaceIn container name id := by
  obtain ⟨s,hs,kind,named,contained⟩ := inside
  obtain ⟨t,ht,keeps⟩ := grows.kept hs
  exact ⟨t,ht,keeps.kind.trans kind,keeps.name.trans named,keeps.containing.trans contained⟩

theorem NamespaceAt.extend (located : g.NamespaceAt outer path id) {fresh : SymbolId → Prop}
    (grows : g.Extends h fresh) : h.NamespaceAt outer path id := by
  induction located with
  | here => exact .here
  | inside _ inner ih => exact .inside ih (inner.extend grows)

theorem NamespaceAt.unique (nested : g.IsNested) (first : g.NamespaceAt outer path id)
    (second : g.NamespaceAt outer path other) : id = other := by
  induction first generalizing other with
  | here =>
    generalize same : [] = empty at second
    cases second with
    | here => rfl
    | inside => simp at same
  | @inside path container name id _ inner ih =>
    generalize same : path ++ [name] = whole at second
    cases second with
    | here => simp at same
    | inside outer' inner' =>
      obtain ⟨rfl,last⟩ := List.append_inj' same rfl
      obtain rfl : name = _ := List.singleton_inj.1 last
      obtain rfl := ih outer'
      exact nested.isNamespaceIn_unique inner inner'

/-- Paths of names that are not empty lead to one symbol only if they are the same: the last name and
the container are those of the symbol, and the global namespace is unnamed. -/
theorem NamespaceAt.injective (isGlobal : g.IsGlobal outer)
    {path' : List String} (filled : ∀ name ∈ path, name ≠ "") (filled' : ∀ name ∈ path', name ≠ "")
    (first : g.NamespaceAt outer path id) (second : g.NamespaceAt outer path' id) :
    path = path' := by
  induction first generalizing path' with
  | here =>
    cases second with
    | here => rfl
    | inside _ inner =>
      obtain ⟨s,hs,-,rfl,-⟩ := inner
      exact absurd (isGlobal.unnamed hs) (filled' _ (by simp))
  | inside _ inner ih =>
    obtain ⟨s,hs,-,rfl,contained⟩ := inner
    cases second with
    | here => exact absurd (isGlobal.unnamed hs) (filled _ (by simp))
    | inside around' inner' =>
      obtain ⟨s',hs',-,rfl,contained'⟩ := inner'
      obtain rfl := Option.some.inj (hs.symm.trans hs')
      obtain rfl := Option.some.inj (contained.symm.trans contained')
      have front := ih (fun name member => filled name (List.mem_append_left _ member))
        (fun name member => filled' name (List.mem_append_left _ member)) around'
      rw [front]

theorem exists_deepest (g : Graph) (outer : SymbolId) (path : List String) :
    ∃ existing missing deepest, path = existing ++ missing ∧ g.NamespaceAt outer existing deepest ∧
      ∀ name ∈ missing.head?, ∀ id, ¬g.IsNamespaceIn deepest name id := by
  have deeper : ∀ (rest front : List String) (container : SymbolId),
      g.NamespaceAt outer front container → ∃ existing missing deepest,
        front ++ rest = existing ++ missing ∧ g.NamespaceAt outer existing deepest ∧
        ∀ name ∈ missing.head?, ∀ id, ¬g.IsNamespaceIn deepest name id := by
    intro rest
    induction rest with
    | nil => exact fun front container around => ⟨front,[],container,rfl,around,by simp⟩
    | cons name rest ih =>
      intro front container around
      by_cases inner : ∃ id, g.IsNamespaceIn container name id
      · obtain ⟨id,inner⟩ := inner
        rw [List.append_cons]
        exact ih _ id (around.inside inner)
      · refine ⟨front,name :: rest,container,rfl,around,?_⟩
        rintro _ ⟨⟩ id inside
        exact inner ⟨id,inside⟩
  exact deeper path [] outer .here

end Graph

end TestScout
