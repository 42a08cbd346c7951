import TestScout.Graph.Builder
import TestScout.Proofs.PathText
import TestScout.Proofs.Trail
set_option autoImplicit false

/-!
Where namespaces and types stand. In a graph whose namespaces stand in namespaces, up to the unnamed
one of the assembly, and whose types stand in namespaces or types, the qualified name of a symbol is
the text of its path, the same text is put before the names of what it contains when these are
registered, and symbols that share a container only under different names have different texts.
-/

namespace TestScout.Graph

open DisplayPart

variable {g h : Graph} {id other container : SymbolId} {path path' : List DisplayPart} {s : Symbol}
  {part : DisplayPart}

def isNamespace (g : Graph) (id : SymbolId) : Bool :=
  (g.symbol? id).any Symbol.isNamespace

def IsGlobal (g : Graph) (id : SymbolId) : Prop :=
  ∃ s root, g.symbol? id = some s ∧ s.kind = .namespace ∧ s.name = "" ∧ s.containing = some root ∧
    ∃ r, g.symbol? root = some r ∧ r.kind = .assembly ∧ r.containing = none

/-- The namespace or type is reached from the unnamed namespace along the parts of a path. -/
inductive Located (g : Graph) : SymbolId → List DisplayPart → Prop where
  | global {id : SymbolId} : g.IsGlobal id → Located g id []
  | inner {id container : SymbolId} {path : List DisplayPart} {s : Symbol} {part : DisplayPart} :
      Located g container path → g.symbol? id = some s → s.containing = some container →
      ofSymbol? s = some part → (s.kind = .namespace → g.isNamespace container) →
      IsIdentifier s.name → Located g id (path ++ [part])

theorem ofSymbol?_cases (named : ofSymbol? s = some part) :
    part.text = s.name ∧
      (s.kind = .namedType ∧ part.kind = .typeName ∨
        s.kind = .namespace ∧ part.kind = .namespaceName) := by
  unfold ofSymbol? at named
  split at named
  · next kind =>
    obtain rfl := Option.some.inj named
    exact ⟨rfl,.inl ⟨kind,rfl⟩⟩
  · next kind =>
    split at named
    · simp at named
    · obtain rfl := Option.some.inj named
      exact ⟨rfl,.inr ⟨kind,rfl⟩⟩
  · simp at named

theorem isSeparator_of_ofSymbol? (named : ofSymbol? s = some part) :
    part.kind.isSeparator = false := by
  obtain ⟨-,⟨-,h⟩ | ⟨-,h⟩⟩ := ofSymbol?_cases named <;> rw [h] <;> rfl

theorem isType_iff : g.isType id ↔ ∃ s, g.symbol? id = some s ∧ s.kind = .namedType := by
  simp [isType,Option.any_eq_true,Symbol.isType]

theorem isNamespace_iff : g.isNamespace id ↔ ∃ s, g.symbol? id = some s ∧ s.kind = .namespace := by
  simp [isNamespace,Option.any_eq_true,Symbol.isNamespace]

theorem mem_ids_of_symbol? (hs : g.symbol? id = some s) : id ∈ g.ids := by
  rw [mem_ids,hs]
  rfl

/-- A symbol with a location is a type if its path leads into one, and a namespace if not. -/
theorem Located.kind (located : g.Located id path) (hs : g.symbol? id = some s) :
    s.kind = if inType path then .namedType else .namespace := by
  induction located generalizing s with
  | global isGlobal =>
    obtain ⟨s',root,hs',kind,-⟩ := isGlobal
    obtain rfl := Option.some.inj (hs.symm.trans hs')
    exact kind
  | inner _ hs' _ named around _ ih =>
    obtain rfl := Option.some.inj (hs.symm.trans hs')
    obtain ⟨-,⟨kind,hk⟩ | ⟨kind,hk⟩⟩ := ofSymbol?_cases named
    · simp [kind,hk]
    · obtain ⟨c,hc,hck⟩ := isNamespace_iff.1 (around kind)
      have outside := ih hc
      rw [hck] at outside
      rw [kind,inType_concat,hk]
      simpa using outside

theorem Located.symbol? (located : g.Located id path) : ∃ s, g.symbol? id = some s := by
  cases located with
  | global isGlobal =>
    obtain ⟨s,root,hs,-⟩ := isGlobal
    exact ⟨s,hs⟩
  | inner _ hs _ _ _ _ => exact ⟨_,hs⟩

theorem Located.inType_eq (located : g.Located id path) : inType path = g.isType id := by
  obtain ⟨s,hs⟩ := located.symbol?
  have kind := located.kind hs
  cases hp : inType path <;> simp [hp] at kind <;> simp [isType,hs,Symbol.isType,kind]

theorem IsGlobal.not_isIdentifier (isGlobal : g.IsGlobal id) (hs : g.symbol? id = some s) :
    ¬IsIdentifier s.name := by
  obtain ⟨s',root,hs',-,unnamed,-⟩ := isGlobal
  obtain rfl := Option.some.inj (hs.symm.trans hs')
  exact fun clean => clean.ne_empty unnamed

theorem Located.unique (located : g.Located id path) (again : g.Located id path') :
    path = path' := by
  induction located generalizing path' with
  | global isGlobal =>
    cases again with
    | global _ => rfl
    | inner _ hs _ _ _ clean => exact absurd clean (isGlobal.not_isIdentifier hs)
  | inner _ hs hc named _ clean ih =>
    cases again with
    | global isGlobal => exact absurd clean (isGlobal.not_isIdentifier hs)
    | inner around hs' hc' named' _ _ =>
      obtain rfl := Option.some.inj (hs.symm.trans hs')
      obtain rfl := Option.some.inj (hc.symm.trans hc')
      rw [ih around,Option.some.inj (named.symm.trans named')]

theorem enclosing_of_containing (hs : g.symbol? id = some s) (hc : s.containing = some container)
    (fresh : id ∉ g.enclosing container) : g.enclosing id = id :: g.enclosing container := by
  have step : g.containing? id = some container := by simp [containing?,hs,hc]
  unfold enclosing at fresh ⊢
  rw [trail_of_mem (mem_ids_of_symbol? hs),step,trail_erase fresh]

theorem enclosingSymbols_of_containing (hs : g.symbol? id = some s)
    (hc : s.containing = some container) (fresh : id ∉ g.enclosing container) :
    g.enclosingSymbols id = s :: g.enclosingSymbols container := by
  rw [enclosingSymbols,enclosing_of_containing hs hc fresh,List.filterMap_cons_some hs]
  rfl

theorem IsGlobal.enclosing (isGlobal : g.IsGlobal id) :
    ∃ s r root, g.enclosing id = [id,root] ∧ g.enclosingSymbols id = [s,r] ∧
      s.kind = .namespace ∧ s.name = "" ∧ g.symbol? root = some r ∧ r.kind = .assembly := by
  obtain ⟨s,root,hs,kind,unnamed,hc,r,hr,root_kind,root_containing⟩ := isGlobal
  have alone : g.enclosing root = [root] := by
    have step : g.containing? root = none := by simp [containing?,hr,root_containing]
    rw [Graph.enclosing,trail_of_mem (mem_ids_of_symbol? hr),step,trail_none]
  have fresh : id ∉ g.enclosing root := by
    rw [alone,List.mem_singleton]
    rintro rfl
    obtain rfl := Option.some.inj (hs.symm.trans hr)
    simp [kind] at root_kind
  refine ⟨s,r,root,?_,?_,kind,unnamed,hr,root_kind⟩
  · rw [enclosing_of_containing hs hc fresh,alone]
  · rw [enclosingSymbols_of_containing hs hc fresh,enclosingSymbols,alone]
    simp [hr]

theorem Located.length_le (located : g.Located id path) (around : other ∈ g.enclosing id)
    (again : g.Located other path') : path'.length ≤ path.length := by
  induction located generalizing other path' with
  | global isGlobal =>
    obtain ⟨s,r,root,line,-,-,-,hr,kind⟩ := isGlobal.enclosing
    rw [line] at around
    rcases List.mem_cons.1 around with rfl | around
    · exact Nat.le_of_eq (congrArg List.length (again.unique (.global isGlobal)))
    · obtain rfl := List.mem_singleton.1 around
      have := again.kind hr
      rw [kind] at this
      split at this <;> simp at this
  | @inner id container path s part outer hs hc named flat clean ih =>
    have self : g.Located id (path ++ [part]) := .inner outer hs hc named flat clean
    have longer : (path ++ [part]).length = path.length + 1 := List.length_append
    -- Were the symbol around its own container, its path would be no longer than the container's.
    have fresh : id ∉ g.enclosing container := fun inside => by
      have := ih inside self
      omega
    rw [enclosing_of_containing hs hc fresh] at around
    rcases List.mem_cons.1 around with rfl | around
    · exact Nat.le_of_eq (congrArg List.length (again.unique self))
    · have := ih around again
      omega

theorem Located.not_mem_enclosing (outer : g.Located container path)
    (located : g.Located id (path ++ [part])) : id ∉ g.enclosing container := by
  intro inside
  have longer : (path ++ [part]).length = path.length + 1 := List.length_append
  have := outer.length_le inside located
  omega

theorem Located.parts (located : g.Located id path) :
    ((g.enclosingSymbols id).filterMap ofSymbol?).reverse = path := by
  induction located with
  | global isGlobal =>
    obtain ⟨s,r,root,-,line,kind,unnamed,-,root_kind⟩ := isGlobal.enclosing
    simp [line,ofSymbol?,kind,unnamed,root_kind]
  | inner outer hs hc named flat clean ih =>
    have fresh := outer.not_mem_enclosing (.inner outer hs hc named flat clean)
    rw [enclosingSymbols_of_containing hs hc fresh,List.filterMap_cons_some named,
      List.reverse_cons,ih]

theorem Located.qualifiedName (located : g.Located id path) : g.qualifiedName id = pathText path := by
  rw [Graph.qualifiedName,displayParts,located.parts]
  rfl

theorem Located.names (located : g.Located id path) (outside : inType path = false) :
    ((((g.enclosingSymbols id).takeWhile Symbol.isNamespace).map Symbol.name).filter
      fun name => name ≠ "").reverse = path.map text := by
  induction located with
  | global isGlobal =>
    obtain ⟨s,r,root,-,line,kind,unnamed,-,root_kind⟩ := isGlobal.enclosing
    simp [line,Symbol.isNamespace,kind,unnamed,root_kind]
  | inner outer hs hc named flat clean ih =>
    have fresh := outer.not_mem_enclosing (.inner outer hs hc named flat clean)
    rw [inType_concat,Bool.or_eq_false_iff] at outside
    obtain ⟨text,⟨-,hk⟩ | ⟨kind,-⟩⟩ := ofSymbol?_cases named
    · simp [hk] at outside
    · have isNamespace : Symbol.isNamespace _ := beq_iff_eq.2 kind
      have before := ih outside.1
      rw [enclosingSymbols_of_containing hs hc fresh,List.takeWhile_cons_of_pos isNamespace,
        List.map_cons,List.filter_cons_of_pos (by simpa using clean.ne_empty),List.reverse_cons,
        before,List.map_append,List.map_singleton,text]

theorem Located.join_eq_lead (located : g.Located id path) (outside : inType path = false) :
    String.join (path.map fun part => part.text ++ ".") = lead path := by
  induction located with
  | global _ => rfl
  | @inner id container path s part outer hs hc named flat clean ih =>
    have dot : separator (path ++ [part]) = "." := by rw [separator,outside]; rfl
    rw [inType_concat,Bool.or_eq_false_iff] at outside
    rw [List.map_append,String.join_append,ih outside.1,lead_of_ne_nil (List.concat_ne_nil part path),
      pathText_concat (isSeparator_of_ofSymbol? named),dot,String.append_assoc]
    simp [String.join_cons]

theorem Located.fullNamePrefix (located : g.Located id path)
    (registered : g.isType id → g.registeredName? id = some (pathText path)) :
    g.fullNamePrefix id = lead path := by
  obtain ⟨s,hs⟩ := located.symbol?
  have kind := located.kind hs
  unfold Graph.fullNamePrefix
  cases hp : inType path with
  | true =>
    have filled : path ≠ [] := by rintro rfl; simp [inType] at hp
    rw [hp] at kind
    simp only [hs,Option.map_some,kind,if_true]
    rw [registered (located.inType_eq ▸ hp),lead_of_ne_nil filled,separator,hp]
    rfl
  | false =>
    rw [hp] at kind
    simp only [hs,Option.map_some,kind,Bool.false_eq_true,if_false]
    rw [located.names hp,← located.join_eq_lead hp,List.map_map]
    rfl

/-- Among the namespaces, and among the types, of one container no two have the same name. -/
def SiblingsDiffer (g : Graph) (kind : SymbolKind) : Prop :=
  ∀ ⦃id other s t⦄, g.symbol? id = some s → g.symbol? other = some t → s.kind = kind →
    t.kind = kind → s.containing = t.containing → s.name = t.name → id = other

theorem Located.injective (unique : ∀ ⦃id other⦄, g.IsGlobal id → g.IsGlobal other → id = other)
    (namespaces : g.SiblingsDiffer .namespace) (types : g.SiblingsDiffer .namedType)
    (located : g.Located id path) (again : g.Located other path')
    (inside : inType path = inType path') (same : pathText path = pathText path') :
    id = other := by
  induction located generalizing other path' with
  | global isGlobal =>
    cases again with
    | global isGlobal' => exact unique isGlobal isGlobal'
    | inner _ _ _ named _ clean =>
      rw [pathText_concat (isSeparator_of_ofSymbol? named),(ofSymbol?_cases named).1] at same
      exact absurd same.symm (lead_append_ne_empty clean)
  | @inner id container path s part outer hs hc named flat clean ih =>
    have self : g.Located id (path ++ [part]) := .inner outer hs hc named flat clean
    rw [pathText_concat (isSeparator_of_ofSymbol? named),(ofSymbol?_cases named).1] at same
    cases again with
    | global _ => exact absurd same (lead_append_ne_empty clean)
    | @inner other container' path' t part' outer' hs' hc' named' flat' clean' =>
      have again : g.Located other (path' ++ [part']) := .inner outer' hs' hc' named' flat' clean'
      rw [pathText_concat (isSeparator_of_ofSymbol? named'),(ofSymbol?_cases named').1] at same
      -- The texts agree before the last identifier too, so the containers are the same by induction.
      obtain ⟨leads,names⟩ := lead_append_inj clean clean' same
      obtain ⟨texts,within⟩ := lead_inj leads
      obtain rfl := ih outer' within texts
      have kind := self.kind hs
      have kind' := again.kind hs'
      rw [← inside] at kind'
      have containers : s.containing = t.containing := by rw [hc,hc']
      split at kind
      · next h => exact types hs hs' kind (by rw [kind',if_pos h]) containers names
      · next h => exact namespaces hs hs' kind (by rw [kind',if_neg h]) containers names

end TestScout.Graph
