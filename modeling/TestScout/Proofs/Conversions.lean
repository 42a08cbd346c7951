import TestScout.Graph.Conversion
import TestScout.Proofs.Spread
import TestScout.Proofs.Visibility
set_option autoImplicit false

namespace TestScout.Graph

variable {g : Graph} {source middle target type : SymbolId}

def LiesAbove (g : Graph) (id other : SymbolId) : Prop :=
  ∃ s, g.symbol? id = some s ∧ (s.baseType = some other ∨ other ∈ s.interfaces)

def LeadsTo (g : Graph) : SymbolId → SymbolId → Prop :=
  Relation.ReflTransGen g.LiesAbove

theorem mem_supertypes_iff {id other : SymbolId} :
    other ∈ g.supertypes id ↔ g.LiesAbove id other := by
  unfold supertypes LiesAbove
  cases g.symbol? id with
  | none => simp
  | some s => simp

theorem mem_ids_of_liesAbove {id other : SymbolId} (link : g.LiesAbove id other) : id ∈ g.ids := by
  obtain ⟨s,found,-⟩ := link
  rw [mem_ids,found]
  rfl

theorem mem_spread_ids_iff {next : SymbolId → List SymbolId}
    (links : ∀ id other, other ∈ next id ↔ g.LiesAbove id other) (known : source ∈ g.ids) :
    target ∈ spread next g.ids [source] ↔ target ∈ g.ids ∧ g.LeadsTo source target := by
  constructor
  · intro met
    obtain ⟨first,waits,path⟩ := reaches_of_mem_spread met
    obtain rfl := List.mem_singleton.1 waits
    have up := Relation.ReflTransGen.mono (fun id other => (links id other).1) _ _ path
    exact ⟨mem_of_mem_spread met,up⟩
  · rintro ⟨inside,path⟩
    induction path with
    | refl => exact mem_spread_of_mem_pending known (List.mem_singleton_self source)
    | tail _ link ih =>
      -- Links lead on from symbols that exist only, so nothing on the way is missing.
      have met := ih (mem_ids_of_liesAbove link)
      exact mem_spread_of_link met ((links _ _).2 link) inside

theorem mem_above_iff (known : source ∈ g.ids) :
    target ∈ g.above source ↔ target ∈ g.ids ∧ g.LeadsTo source target :=
  mem_spread_ids_iff (fun _ _ => mem_supertypes_iff) known

theorem widens_iff :
    g.widens source target ↔ (g.isType source ∧ g.isType target) ∧ g.LeadsTo source target := by
  unfold widens
  rw [Bool.and_eq_true,Bool.and_eq_true,List.contains_iff_mem]
  refine and_congr_right fun types => ?_
  rw [mem_above_iff (mem_ids_of_isType types.1)]
  exact and_iff_right (mem_ids_of_isType types.2)

theorem widens_self (isType : g.isType type) : g.widens type type :=
  widens_iff.2 ⟨⟨isType,isType⟩,.refl⟩

theorem widens_trans (first : g.widens source middle) (second : g.widens middle target) :
    g.widens source target := by
  obtain ⟨⟨isType,-⟩,path⟩ := widens_iff.1 first
  obtain ⟨⟨-,isType'⟩,path'⟩ := widens_iff.1 second
  exact widens_iff.2 ⟨⟨isType,isType'⟩,path.trans path'⟩

theorem possible_iff :
    (g.csharpConversion source target).possible ↔
      (g.isType source ∧ g.isType target) ∧ (g.LeadsTo source target ∨ g.LeadsTo target source) := by
  unfold csharpConversion
  rw [Bool.or_eq_true,widens_iff,widens_iff]
  tauto

/-- Whether a search comes upon the target. It looks at one pending symbol after the other, the newest
first, and stops at the target before it has looked any further. -/
def comesUpon (g : Graph) (target : SymbolId) (fresh pending : List SymbolId) : Bool :=
  match pending with
  | [] => false
  | id :: rest =>
    if id = target then true
    else if _entered : id ∈ fresh then
      comesUpon g target (fresh.erase id) ((g.supertypes id).reverse ++ rest)
    else comesUpon g target fresh rest
  termination_by (fresh.length, pending.length)
  decreasing_by
    · have hp := List.length_pos_of_mem _entered
      rw [List.length_erase_of_mem _entered]
      apply Prod.Lex.left
      omega
    · apply Prod.Lex.right
      simp

theorem comesUpon_eq {fresh pending : List SymbolId} (inside : target ∈ fresh) :
    g.comesUpon target fresh pending =
      decide (target ∈ spread (fun id => (g.supertypes id).reverse) fresh pending) := by
  fun_induction comesUpon g target fresh pending with
  | case1 => simp [spread]
  | case2 fresh rest => simp [spread,inside]
  | case3 fresh id rest differs entered ih =>
    have kept : target ∈ fresh.erase id := (List.mem_erase_of_ne (Ne.symm differs)).2 inside
    rw [ih kept,spread,dif_pos entered]
    simp [Ne.symm differs]
  | case4 fresh id rest differs passed ih => rw [ih inside,spread,dif_neg passed]

def convertsByReference (g : Graph) (source target : SymbolId) : Bool :=
  g.comesUpon target g.ids [source]

theorem convertsByReference_eq (isType : g.isType source) (isType' : g.isType target) :
    g.convertsByReference source target = g.widens source target := by
  have links : ∀ id other, other ∈ (g.supertypes id).reverse ↔ g.LiesAbove id other := fun _ _ =>
    List.mem_reverse.trans mem_supertypes_iff
  rw [Bool.eq_iff_iff,convertsByReference,comesUpon_eq (mem_ids_of_isType isType'),decide_eq_true_eq,
    mem_spread_ids_iff links (mem_ids_of_isType isType),widens_iff]
  simp [isType,isType',mem_ids_of_isType isType']

theorem widens_cases (g : Graph) (source target : SymbolId) :
    ((!g.isType source || !g.isType target) = true ∧ g.widens source target = false ∧
      g.widens target source = false) ∨
    ((!g.isType source || !g.isType target) = false ∧
      g.convertsByReference source target = g.widens source target ∧
      g.convertsByReference target source = g.widens target source ∧
      (source = target → g.widens source target)) := by
  cases isType : g.isType source with
  | false => exact .inl ⟨rfl,by simp [widens,isType],by simp [widens,isType]⟩
  | true =>
    cases isType' : g.isType target with
    | false => exact .inl ⟨rfl,by simp [widens,isType'],by simp [widens,isType']⟩
    | true =>
      refine .inr ⟨rfl,convertsByReference_eq isType isType',convertsByReference_eq isType' isType,?_⟩
      rintro rfl
      exact widens_self isType

theorem csharpConversion_eq (g : Graph) (source target : SymbolId) :
    g.csharpConversion source target =
      if !g.isType source || !g.isType target then ⟨false,false,false⟩
      else if source = target then ⟨true,true,true⟩
      else if g.convertsByReference source target then ⟨true,false,true⟩
      else ⟨g.convertsByReference target source,false,false⟩ := by
  unfold csharpConversion
  rcases g.widens_cases source target with ⟨types,up,down⟩ | ⟨types,up,down,same⟩
  · simp [types,up,down]
  · rw [types,up,down]
    by_cases equal : source = target
    · simp [equal,equal ▸ same equal]
    · cases g.widens source target <;> simp [equal]

theorem visualBasicConversion_eq (g : Graph) (source target : SymbolId) :
    g.visualBasicConversion source target =
      if !g.isType source || !g.isType target then ⟨false,false,false,false⟩
      else if source = target then ⟨true,true,true,false⟩
      else if g.convertsByReference source target then ⟨true,false,true,false⟩
      else ⟨g.convertsByReference target source,false,false,g.convertsByReference target source⟩ := by
  unfold visualBasicConversion
  rcases g.widens_cases source target with ⟨types,up,down⟩ | ⟨types,up,down,same⟩
  · simp [types,up,down]
  · rw [types,up,down]
    by_cases equal : source = target
    · simp [equal,equal ▸ same equal]
    · cases g.widens source target <;> simp [equal]

/-- Conversions in either language are reachability along base types and interfaces. They make a
preorder of the types, and the search that decides them looks at no more ids than one and the number
of links. -/
theorem conversions_exact (g : Graph) :
    (∀ source target,
      let types := g.isType source ∧ g.isType target
      let cs := g.csharpConversion source target
      let vb := g.visualBasicConversion source target
      (cs.isImplicit ↔ types ∧ g.LeadsTo source target) ∧
      (vb.isWidening ↔ types ∧ g.LeadsTo source target) ∧
      (cs.isIdentity ↔ (types ∧ g.LeadsTo source target) ∧ source = target) ∧
      (vb.isIdentity ↔ (types ∧ g.LeadsTo source target) ∧ source = target) ∧
      (cs.possible ↔ types ∧ (g.LeadsTo source target ∨ g.LeadsTo target source)) ∧
      (vb.possible ↔ types ∧ (g.LeadsTo source target ∨ g.LeadsTo target source)) ∧
      cs.possible = (g.csharpConversion target source).possible ∧
      vb.possible = (g.visualBasicConversion target source).possible ∧
      (vb.isNarrowing ↔ vb.possible ∧ ¬vb.isWidening) ∧
      (vb.possible,vb.isIdentity,vb.isWidening) = (cs.possible,cs.isIdentity,cs.isImplicit)) ∧
    (∀ source, ∃ steps ≤ 1 + (g.ids.map fun id => (g.supertypes id).length).sum,
      (spreadStep g.supertypes)^[steps] (g.ids,[source]) = (g.ids.diff (g.above source),[])) ∧
    (∀ type, g.isType type → (g.csharpConversion type type).isImplicit) ∧
    ∀ source middle target, (g.csharpConversion source middle).isImplicit →
      (g.csharpConversion middle target).isImplicit →
      (g.csharpConversion source target).isImplicit := by
  refine ⟨?_,?_,fun _ => widens_self,fun _ _ _ => widens_trans⟩
  · intro source target types cs vb
    have reaches : g.widens source target ↔ types ∧ g.LeadsTo source target := widens_iff
    have identity : cs.isIdentity ↔ (types ∧ g.LeadsTo source target) ∧ source = target := by
      rw [← reaches]
      simp [cs,csharpConversion]
    have swap : cs.possible = (g.csharpConversion target source).possible :=
      Bool.or_comm (g.widens source target) (g.widens target source)
    have narrowing : vb.isNarrowing ↔ vb.possible ∧ ¬vb.isWidening := by
      simp only [vb,visualBasicConversion]
      cases g.widens source target <;> simp
    exact ⟨reaches,reaches,identity,identity,possible_iff,possible_iff,swap,swap,narrowing,rfl⟩
  · intro source
    exact iterate_spreadStep g.supertypes g.ids [source]

/-- A class over a diamond of interfaces that leads back to the class. The class also has a base that
no symbol is, and last there is a method. -/
def diamondGraph : Graph where
  assemblyName := none
  assembly := ⟨0⟩
  symbols :=
    [{ Symbol.ofName .namedType "Class" .cSharp with
       baseType := some ⟨9⟩, interfaces := [⟨1⟩,⟨2⟩] },
     { Symbol.ofName .namedType "ILeft" .cSharp with interfaces := [⟨3⟩] },
     { Symbol.ofName .namedType "IRight" .cSharp with interfaces := [⟨3⟩] },
     { Symbol.ofName .namedType "ITop" .cSharp with interfaces := [⟨0⟩] },
     Symbol.ofName .method "Method" .cSharp]

theorem conversions_exact_diamond :
    (diamondGraph.csharpConversion ⟨2⟩ ⟨3⟩).isImplicit ∧
    (diamondGraph.csharpConversion ⟨3⟩ ⟨1⟩).isImplicit ∧
    (diamondGraph.csharpConversion ⟨2⟩ ⟨1⟩).isImplicit ∧ diamondGraph.LeadsTo ⟨2⟩ ⟨1⟩ ∧
    ¬(diamondGraph.visualBasicConversion ⟨0⟩ ⟨4⟩).isWidening := by
  obtain ⟨classified,-,-,preorder⟩ := conversions_exact diamondGraph
  have up : (diamondGraph.csharpConversion ⟨2⟩ ⟨3⟩).isImplicit := by cbv
  have around : (diamondGraph.csharpConversion ⟨3⟩ ⟨1⟩).isImplicit := by cbv
  have across := preorder ⟨2⟩ ⟨3⟩ ⟨1⟩ up around
  have untyped : ¬diamondGraph.isType ⟨4⟩ := by decide
  refine ⟨up,around,across,((classified ⟨2⟩ ⟨1⟩).1.1 across).2,?_⟩
  intro widening
  exact untyped ((classified ⟨0⟩ ⟨4⟩).2.1.1 widening).1.2

end TestScout.Graph
