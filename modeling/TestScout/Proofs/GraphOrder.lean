import TestScout.Proofs.Location
import TestScout.Proofs.Trail
import TestScout.Reflection.Members
import Mathlib.Logic.Function.Iterate
set_option autoImplicit false

/-!
Graphs in order. Every symbol is listed where it says that it belongs and nowhere else, and all links
lead to earlier symbols. So every chain of links ends, and the walks along containing symbols and
bases meet nothing twice, whether they watch for it or not.
-/

namespace TestScout

def Symbol.isMemberOf (container : SymbolId) (s : Symbol) : Bool :=
  s.containing == some container && s.kind != .parameter

def Symbol.isParameterOf (container : SymbolId) (s : Symbol) : Bool :=
  s.containing == some container && s.kind == .parameter

theorem Symbol.containing_of_isMemberOf {container : SymbolId} {s : Symbol}
    (holds : s.isMemberOf container) : s.containing = some container :=
  beq_iff_eq.1 (Bool.and_eq_true_iff.1 holds).1

theorem Symbol.containing_of_isParameterOf {container : SymbolId} {s : Symbol}
    (holds : s.isParameterOf container) : s.containing = some container :=
  beq_iff_eq.1 (Bool.and_eq_true_iff.1 holds).1

def Descends (next : SymbolId → Option SymbolId) : Prop :=
  ∀ ⦃id before⦄, next id = some before → before.index < id.index

/-- Whoever follows the links from a symbol has come to their end after as many steps as there are
symbols up to that one. -/
def ChainsEnd (next : SymbolId → Option SymbolId) : Prop :=
  ∀ id : SymbolId, (fun link => link.bind next)^[id.index + 1] (some id) = none

section

variable {next : SymbolId → Option SymbolId} {fresh : List SymbolId}

@[simp] theorem iterate_bind_none (next : SymbolId → Option SymbolId) (n : Nat) :
    (fun link => link.bind next)^[n] none = none :=
  Function.iterate_fixed rfl n

theorem Descends.chainsEnd (descends : Descends next) : ChainsEnd next := by
  have ends : ∀ (n : Nat) (id : SymbolId), id.index < n →
      (fun link => link.bind next)^[n] (some id) = none := by
    intro n
    induction n with
    | zero => intro id below; exact absurd below (Nat.not_lt_zero _)
    | succ n ih =>
      intro id below
      rw [Function.iterate_succ_apply,Option.bind_some]
      cases step : next id with
      | none => exact iterate_bind_none next n
      | some before => exact ih before (Nat.lt_of_lt_of_le (descends step) (Nat.le_of_lt_succ below))
  exact fun id => ends _ id (Nat.lt_succ_self _)

theorem Descends.le_of_mem_trail (descends : Descends next) {start : Option SymbolId}
    {id other : SymbolId} (from_ : start = some id) (met : other ∈ trail next fresh start) :
    other.index ≤ id.index := by
  fun_induction trail next fresh start generalizing id with
  | case1 => simp at met
  | case2 fresh first entered ih =>
    obtain rfl := Option.some.inj from_
    rcases List.mem_cons.1 met with rfl | later
    · exact Nat.le_refl _
    · cases step : next first with
      | none => simp [step] at later
      | some before => exact Nat.le_trans (ih step later) (Nat.le_of_lt (descends step))
  | case3 => simp at met

/-- A trail of descending links is the plain walk along them: it need not give up what it entered. -/
theorem Descends.trail_eq (descends : Descends next) {id : SymbolId} (known : id ∈ fresh) :
    trail next fresh (some id) = id :: trail next fresh (next id) := by
  rw [trail_of_mem known,trail_erase]
  intro again
  cases step : next id with
  | none => simp [step] at again
  | some before =>
    have := descends.le_of_mem_trail step again
    exact absurd (descends step) (Nat.not_lt.2 this)

end

namespace Graph

variable {g : Graph} {id : SymbolId} {s : Symbol}

def idsWhere (g : Graph) (test : Symbol → Bool) : List SymbolId :=
  g.ids.filter fun id => (g.symbol? id).any test

theorem mem_ids_iff_lt : id ∈ g.ids ↔ id.index < g.symbols.length := by
  rw [mem_ids,symbol?]
  simp

/-- Every symbol is listed where it says that it belongs, and all links lead to earlier symbols. -/
structure IsOrdered (g : Graph) : Prop where
  root : ∃ s, g.symbol? g.assembly = some s ∧ s.containing = none
  contained : ∀ ⦃id s⦄, g.symbol? id = some s → id ≠ g.assembly →
    ∃ container, s.containing = some container ∧ container.index < id.index
  base : ∀ ⦃id s base⦄, g.symbol? id = some s → s.baseType = some base → base.index < id.index
  overridden : ∀ ⦃id s method⦄, g.symbol? id = some s → s.overriddenMethod = some method →
    method.index < id.index
  members : ∀ ⦃id s⦄, g.symbol? id = some s → s.members = g.idsWhere (Symbol.isMemberOf id)
  parameters : ∀ ⦃id s⦄, g.symbol? id = some s → s.parameters = g.idsWhere (Symbol.isParameterOf id)
  namespaces : g.SiblingsDiffer .namespace

@[simp] theorem mem_idsWhere {test : Symbol → Bool} :
    id ∈ g.idsWhere test ↔ ∃ s, g.symbol? id = some s ∧ test s := by
  rw [idsWhere,List.mem_filter,mem_ids,Option.any_eq_true]
  constructor
  · rintro ⟨-,holds⟩
    exact holds
  · rintro ⟨s,hs,holds⟩
    exact ⟨by rw [hs]; rfl,s,hs,holds⟩

theorem IsOrdered.descends_containing (ordered : g.IsOrdered) : Descends g.containing? := by
  intro id container link
  obtain ⟨s,hs,hc⟩ := Option.bind_eq_some_iff.1 link
  have apart : id ≠ g.assembly := by
    rintro rfl
    obtain ⟨r,hr,alone⟩ := ordered.root
    obtain rfl := Option.some.inj (hs.symm.trans hr)
    simp [alone] at hc
  obtain ⟨container',hc',before⟩ := ordered.contained hs apart
  exact Option.some.inj (hc.symm.trans hc') ▸ before

theorem IsOrdered.containing_mem {container : SymbolId} (ordered : g.IsOrdered)
    (hs : g.symbol? id = some s) (hc : s.containing = some container) : container ∈ g.ids := by
  have link : g.containing? id = some container := by rw [containing?,hs,Option.bind_some,hc]
  have inside := mem_ids_iff_lt.1 (mem_ids_of_symbol? hs)
  exact mem_ids_iff_lt.2 (Nat.lt_trans (ordered.descends_containing link) inside)

/-- Each symbol has its place: the assembly apart, it lies in an earlier symbol, is listed there
once and nowhere else, and refers back. Lists of members and of parameters are in increasing order. -/
structure IsLinked (g : Graph) : Prop where
  contained : ∀ ⦃id⦄, id ∈ g.ids → id ≠ g.assembly →
    ∃ container, g.containing? id = some container ∧ container.index < id.index
  members : ∀ ⦃id s⦄, g.symbol? id = some s → ∀ container,
    (g.members container).count id = if s.isMemberOf container then 1 else 0
  parameters : ∀ ⦃id s⦄, g.symbol? id = some s → ∀ container,
    (g.parameters container).count id = if s.isParameterOf container then 1 else 0
  rising : ∀ container, (g.members container).Pairwise (·.index < ·.index) ∧
    (g.parameters container).Pairwise (·.index < ·.index)
  known : ∀ container, g.members container ⊆ g.ids ∧ g.parameters container ⊆ g.ids
  namespaces : g.SiblingsDiffer .namespace
  base : Descends g.baseType?
  overridden : Descends g.overridden?

theorem pairwise_ids (g : Graph) : g.ids.Pairwise (·.index < ·.index) := by
  rw [ids,List.pairwise_map]
  exact List.pairwise_lt_range

theorem pairwise_idsWhere (g : Graph) (test : Symbol → Bool) :
    (g.idsWhere test).Pairwise (·.index < ·.index) :=
  g.pairwise_ids.filter _

theorem count_idsWhere (hs : g.symbol? id = some s) (test : Symbol → Bool) :
    (g.idsWhere test).count id = if test s then 1 else 0 := by
  have nodup : (g.idsWhere test).Nodup := (g.pairwise_idsWhere test).imp fun before same => by
    rw [same] at before
    exact Nat.lt_irrefl _ before
  rw [nodup.count]
  congr 1
  rw [mem_idsWhere,hs]
  simp

theorem IsOrdered.idsWhere_missing {container : SymbolId} (ordered : g.IsOrdered)
    (missing : g.symbol? container = none) {test : Symbol → Bool}
    (inside : ∀ s, test s → s.containing = some container) : g.idsWhere test = [] := by
  rw [List.eq_nil_iff_forall_not_mem]
  intro id member
  obtain ⟨s,hs,holds⟩ := mem_idsWhere.1 member
  have known := ordered.containing_mem hs (inside s holds)
  simp [missing] at known

theorem IsOrdered.members_eq (ordered : g.IsOrdered) (container : SymbolId) :
    g.members container = g.idsWhere (Symbol.isMemberOf container) := by
  unfold Graph.members
  cases hc : g.symbol? container with
  | some c => exact ordered.members hc
  | none => exact (ordered.idsWhere_missing hc fun _ => Symbol.containing_of_isMemberOf).symm

theorem IsOrdered.parameters_eq (ordered : g.IsOrdered) (container : SymbolId) :
    g.parameters container = g.idsWhere (Symbol.isParameterOf container) := by
  unfold Graph.parameters
  cases hc : g.symbol? container with
  | some c => exact ordered.parameters hc
  | none => exact (ordered.idsWhere_missing hc fun _ => Symbol.containing_of_isParameterOf).symm

theorem IsOrdered.descends_baseType (ordered : g.IsOrdered) : Descends g.baseType? := by
  intro id base link
  obtain ⟨s,hs,hb⟩ := Option.bind_eq_some_iff.1 link
  exact ordered.base hs hb

theorem IsOrdered.descends_overridden (ordered : g.IsOrdered) : Descends g.overridden? := by
  intro id method link
  obtain ⟨s,hs,hm⟩ := Option.bind_eq_some_iff.1 link
  exact ordered.overridden hs hm

theorem IsOrdered.isLinked (ordered : g.IsOrdered) : g.IsLinked where
  contained id known apart := by
    obtain ⟨s,hs⟩ := Option.isSome_iff_exists.1 ((g.mem_ids id).1 known)
    obtain ⟨container,hc,before⟩ := ordered.contained hs apart
    exact ⟨container,by rw [containing?,hs,Option.bind_some,hc],before⟩
  members id s hs container := by
    rw [ordered.members_eq]
    exact count_idsWhere hs _
  parameters id s hs container := by
    rw [ordered.parameters_eq]
    exact count_idsWhere hs _
  rising container := by
    rw [ordered.members_eq,ordered.parameters_eq]
    exact ⟨g.pairwise_idsWhere _,g.pairwise_idsWhere _⟩
  known container := by
    rw [ordered.members_eq,ordered.parameters_eq]
    exact ⟨List.filter_subset_self _,List.filter_subset_self _⟩
  namespaces := ordered.namespaces
  base := ordered.descends_baseType
  overridden := ordered.descends_overridden

theorem IsOrdered.enclosing_eq (ordered : g.IsOrdered) (known : id ∈ g.ids) :
    g.enclosing id = id :: ((g.containing? id).map g.enclosing).getD [] := by
  rw [enclosing,ordered.descends_containing.trail_eq known]
  cases g.containing? id with
  | none => rw [trail_none]; rfl
  | some container => rfl

theorem IsOrdered.lineage_eq {type base : SymbolId} (ordered : g.IsOrdered)
    (link : g.baseType? type = some base) : g.lineage type = type :: g.lineage base := by
  obtain ⟨s,hs,-⟩ := Option.bind_eq_some_iff.1 link
  have known : type ∈ g.derived :=
    List.mem_filter.2 ⟨mem_ids_of_symbol? hs,by rw [link]; rfl⟩
  rw [lineage,ordered.descends_baseType.trail_eq known,link]
  rfl

end Graph
end TestScout
