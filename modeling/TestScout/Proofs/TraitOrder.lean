import TestScout.Proofs.FactFindings
import TestScout.Proofs.FirstOccurrences
import TestScout.Report.TestCase
import Mathlib.Data.List.Permutation
set_option autoImplicit false

namespace TestScout

namespace TraitGroups

variable {names : List String} {name : String} {pairs : List (String × String)}

def namesOf (pairs : List (String × String)) : List String :=
  (pairs.map Prod.fst).eraseDups

def named (pairs : List (String × String)) (name : String) : List (String × String) :=
  pairs.filter fun pair => pair.1 = name

def grouped (pairs : List (String × String)) : List (String × String) :=
  (namesOf pairs).flatMap (named pairs)

theorem mem_namesOf_iff : name ∈ namesOf pairs ↔ ∃ pair ∈ pairs, pair.1 = name := by
  rw [namesOf,List.mem_eraseDups,List.mem_map]

theorem namesOf_nodup (pairs : List (String × String)) : (namesOf pairs).Nodup :=
  nodup_eraseDups _

theorem fst_of_mem_named {pair : String × String} (member : pair ∈ named pairs name) :
    pair.1 = name :=
  of_decide_eq_true (List.mem_filter.1 member).2

theorem named_eq_nil (absent : name ∉ namesOf pairs) : named pairs name = [] := by
  refine List.filter_eq_nil_iff.2 fun pair member same => absent ?_
  exact mem_namesOf_iff.2 ⟨pair,member,of_decide_eq_true same⟩

theorem named_concat (pairs : List (String × String)) (pair : String × String) (name : String) :
    named (pairs ++ [pair]) name = named pairs name ++ if pair.1 = name then [pair] else [] := by
  simp [named,List.filter_singleton]

/-- There is one group for each name, in the order of the names, and it holds the values of this name. -/
theorem ofPairs_eq (pairs : List (String × String)) :
    ofPairs pairs = (namesOf pairs).map fun name => (name,(named pairs name).map Prod.snd) := by
  induction pairs using List.reverseRecOn with
  | nil => rfl
  | append_singleton pairs pair ih =>
    have step : ofPairs (pairs ++ [pair]) = add pair.1 pair.2 (ofPairs pairs) := by
      simp [ofPairs]
    have values : ∀ name, (named (pairs ++ [pair]) name).map Prod.snd =
        (named pairs name).map Prod.snd ++ if pair.1 = name then [pair.2] else [] := by
      intro name
      rw [named_concat]
      split <;> simp
    have groupNames : (ofPairs pairs).map Prod.fst = namesOf pairs := by
      simp [ih,Function.comp_def]
    have names : namesOf (pairs ++ [pair]) =
        if pair.1 ∈ namesOf pairs then namesOf pairs else namesOf pairs ++ [pair.1] := by
      simp only [namesOf,List.map_append,List.map_singleton,eraseDups_concat,List.mem_eraseDups]
    rw [step,names]
    split
    · next known =>
      rw [add_of_mem (groupNames ▸ namesOf_nodup pairs) (groupNames ▸ known),ih,List.map_map]
      refine List.map_congr_left fun name _ => ?_
      by_cases here : name = pair.1 <;> simp [values,here,Ne.symm]
    · next new =>
      rw [add_of_not_mem (groupNames ▸ new),ih,List.map_append,List.map_singleton,values,
        named_eq_nil new,if_pos rfl]
      congr 1
      refine List.map_congr_left fun name member => ?_
      have other : pair.1 ≠ name := fun same => new (same ▸ member)
      rw [values,if_neg other,List.append_nil]

theorem toPairs_ofPairs (pairs : List (String × String)) :
    (ofPairs pairs).toPairs = grouped pairs := by
  rw [ofPairs_eq,toPairs,List.flatMap_map,grouped]
  refine List.flatMap_congr fun name _ => ?_
  have same : ∀ pair ∈ named pairs name, (name,pair.2) = pair := fun pair member =>
    Prod.ext (fst_of_mem_named member).symm rfl
  calc ((named pairs name).map Prod.snd).map (fun value => (name,value))
    _ = (named pairs name).map fun pair => (name,pair.2) := List.map_map ..
    _ = (named pairs name).map id := List.map_congr_left same
    _ = named pairs name := List.map_id _

theorem named_named (pairs : List (String × String)) (name other : String) :
    named (named pairs other) name = if other = name then named pairs name else [] := by
  split
  · next same =>
    subst same
    exact List.filter_eq_self.2 fun pair member => (List.mem_filter.1 member).2
  · next differs =>
    refine List.filter_eq_nil_iff.2 fun pair member same => differs ?_
    exact (fst_of_mem_named member).symm.trans (of_decide_eq_true same)

theorem flatMap_ite_eq (once : names.Nodup) (name : String) (list : List (String × String)) :
    (names.flatMap fun n => if n = name then list else []) = if name ∈ names then list else [] := by
  induction names with
  | nil => rfl
  | cons n rest ih =>
    obtain ⟨first,once'⟩ := List.nodup_cons.1 once
    rw [List.flatMap_cons,ih once']
    by_cases here : n = name
    · subst here
      simp [first]
    · simp [here,Ne.symm here]

@[simp] theorem named_grouped (pairs : List (String × String)) (name : String) :
    named (grouped pairs) name = named pairs name := by
  have parts : named (grouped pairs) name =
      (namesOf pairs).flatMap fun n => named (named pairs n) name := List.filter_flatMap
  simp only [parts,named_named]
  rw [flatMap_ite_eq (namesOf_nodup pairs)]
  split
  · rfl
  · next absent => exact (named_eq_nil absent).symm

@[simp] theorem namesOf_grouped (pairs : List (String × String)) :
    namesOf (grouped pairs) = namesOf pairs := by
  have single : ∀ name ∈ namesOf pairs, ((named pairs name).map Prod.fst).eraseDups = [name] := by
    intro name mentioned
    obtain ⟨pair,member,rfl⟩ := mem_namesOf_iff.1 mentioned
    refine eraseDups_eq_singleton ?_ ?_
    · exact List.mem_map_of_mem (List.mem_filter.2 ⟨member,decide_eq_true rfl⟩)
    · intro other inside
      obtain ⟨pair',member',rfl⟩ := List.mem_map.1 inside
      exact fst_of_mem_named member'
  calc namesOf (grouped pairs)
    _ = ((namesOf pairs).flatMap fun name => (named pairs name).map Prod.fst).eraseDups := by
      rw [namesOf,grouped,List.map_flatMap]
    _ = ((namesOf pairs).flatMap fun name => [name]).eraseDups := by
      rw [← eraseDups_flatMap_eraseDups,List.flatMap_congr single]
    _ = namesOf pairs := by
      rw [List.flatMap_singleton',namesOf,eraseDups_eraseDups]

@[simp] theorem grouped_grouped (pairs : List (String × String)) :
    grouped (grouped pairs) = grouped pairs := by
  rw [grouped,namesOf_grouped,grouped]
  exact List.flatMap_congr fun name _ => named_grouped pairs name

theorem grouped_perm (pairs : List (String × String)) : (grouped pairs).Perm pairs := by
  refine List.perm_iff_count.2 fun pair => ?_
  have count (list : List (String × String)) : (named list pair.1).count pair = list.count pair :=
    List.count_filter (decide_eq_true rfl)
  rw [← count,named_grouped,count]

theorem named_isInfix (pairs : List (String × String)) (name : String) :
    named pairs name <:+: grouped pairs := by
  by_cases mentioned : name ∈ namesOf pairs
  · obtain ⟨front,back,split⟩ := List.append_of_mem mentioned
    refine ⟨front.flatMap (named pairs),back.flatMap (named pairs),?_⟩
    rw [grouped,split,List.flatMap_append,List.flatMap_cons,List.append_assoc]
  · rw [named_eq_nil mentioned]
    exact List.nil_infix

end TraitGroups

theorem Facts.answers_findingOn (g : Graph) (type method : SymbolId) :
    Query.Answers g (do finding? g type (← traitsAt g type) method) (found? g type method) := by
  refine (answers_traitsAt type).bind ?_
  exact answers_finding? type method

namespace TestCase

/-- However the traits of a finding are mixed, its test has the same traits. Those of one name stand
together and in the order in which they were added, and the names in the order of their first mention.
Traits in this order keep it. So it is with the traits that the fact engine reads off a type and then
off one of its methods. -/
theorem traits_of_pairs (stamp : Stamp) (f : Finding) (pairs : List (String × String)) :
    let reported := fun pairs =>
      (ofFinding stamp { f with traits := TraitGroups.ofPairs pairs }).traits
    (reported pairs).Perm pairs ∧
    (∀ name, (reported pairs).filter (fun pair => pair.1 = name) <:+: reported pairs) ∧
    ((reported pairs).map Prod.fst).eraseDups = (pairs.map Prod.fst).eraseDups ∧
    (∀ name, (reported pairs).filter (fun pair => pair.1 = name) =
      pairs.filter fun pair => pair.1 = name) ∧
    reported (reported pairs) = reported pairs ∧
    ∀ (g : Graph) (m : Memory) (type method : SymbolId) (found : Finding), m.IsTrueTo g →
      ((do Facts.finding? g type (← Facts.traitsAt g type) method) m).1 = some found →
      (ofFinding stamp found).traits =
        reported ((Facts.traitsAt g type m).1 ++ (Facts.traitsAt g method m).1) := by
  intro reported
  have same (pairs : List (String × String)) : reported pairs = TraitGroups.grouped pairs :=
    TraitGroups.toPairs_ofPairs pairs
  have kept (name : String) : (TraitGroups.grouped pairs).filter (fun pair => pair.1 = name) =
      pairs.filter fun pair => pair.1 = name := TraitGroups.named_grouped pairs name
  simp only [same]
  refine ⟨TraitGroups.grouped_perm pairs,fun name => ?_,TraitGroups.namesOf_grouped pairs,kept,
    TraitGroups.grouped_grouped pairs,?_⟩
  · rw [kept name]
    exact TraitGroups.named_isInfix pairs name
  · intro g m type method found trusted finding
    rw [(Facts.answers_findingOn g type method m trusted).1] at finding
    obtain ⟨fact,-,rfl⟩ := Option.map_eq_some_iff.1 finding
    rw [(Facts.answers_traitsAt type m trusted).1,(Facts.answers_traitsAt method m trusted).1]
    exact TraitGroups.toPairs_ofPairs _

end TestCase

def namedTrait (name value : String) : Attribute :=
  { type := some ⟨3⟩, arguments := [.literal (.string name),.literal (.string value)] }

/-- A class and its one test, which both belong to a category and name an owner. -/
def ownedTestsGraph : Graph where
  assemblyName := none
  assembly := ⟨0⟩
  symbols :=
    [Symbol.ofName .namedType "Object" .cSharp,
     { Symbol.ofName .namedType "FactAttribute" .cSharp with baseType := some ⟨0⟩ },
     { Symbol.ofName .namedType "ITraitAttribute" .cSharp with typeKind := .interfaceType },
     { Symbol.ofName .namedType "TraitAttribute" .cSharp with
       baseType := some ⟨0⟩, interfaces := [⟨2⟩], attributes := [{ type := some ⟨4⟩ }] },
     { Symbol.ofName .namedType "TraitDiscovererAttribute" .cSharp with baseType := some ⟨0⟩ },
     { Symbol.ofName .namedType "Tests" .cSharp with
       baseType := some ⟨0⟩
       members := [⟨6⟩]
       attributes := [namedTrait "Category" "Math",namedTrait "Owner" "qa"] },
     { Symbol.ofName .method "Adds" .cSharp with
       containing := some ⟨5⟩
       attributes := [{ type := some ⟨1⟩ },namedTrait "Category" "Fast",namedTrait "Owner" "qa",
         namedTrait "Category" "Math"] }]
  names := [(⟨1⟩,Facts.factName),(⟨2⟩,Facts.traitName),(⟨4⟩,Facts.traitDiscovererName)]

theorem traits_of_pairs_owned :
    let query : Query (Option Finding) := do
      Facts.finding? ownedTestsGraph ⟨5⟩ (← Facts.traitsAt ownedTestsGraph ⟨5⟩) ⟨6⟩
    (Facts.traitsAt ownedTestsGraph ⟨5⟩ {}).1 ++ (Facts.traitsAt ownedTestsGraph ⟨6⟩ {}).1 =
      [("Category","Math"),("Owner","qa"),("Category","Fast"),("Owner","qa"),("Category","Math")] ∧
    ∃ found, (query {}).1 = some found ∧ (TestCase.ofFinding ⟨"executor","Tests"⟩ found).traits =
      [("Category","Math"),("Category","Fast"),("Category","Math"),("Owner","qa"),("Owner","qa")] := by
  intro query
  have trusted : ({} : Memory).IsTrueTo ownedTestsGraph := Memory.isTrueTo_empty _ []
  have mixed : (Facts.traitsAt ownedTestsGraph ⟨5⟩ {}).1 ++ (Facts.traitsAt ownedTestsGraph ⟨6⟩ {}).1 =
      [("Category","Math"),("Owner","qa"),("Category","Fast"),("Owner","qa"),("Category","Math")] := by
    rw [(Facts.answers_traitsAt ⟨5⟩ {} trusted).1,(Facts.answers_traitsAt ⟨6⟩ {} trusted).1]
    cbv
  have carries : (Facts.found? ownedTestsGraph ⟨5⟩ ⟨6⟩).isSome := by cbv
  obtain ⟨found,finding⟩ := Option.isSome_iff_exists.1 carries
  have answered : (query {}).1 = some found :=
    (Facts.answers_findingOn ownedTestsGraph ⟨5⟩ ⟨6⟩ {} trusted).1.trans finding
  obtain ⟨-,-,-,-,-,traits⟩ := TestCase.traits_of_pairs ⟨"executor","Tests"⟩ found []
  refine ⟨mixed,found,answered,?_⟩
  rw [traits ownedTestsGraph {} ⟨5⟩ ⟨6⟩ found trusted answered,mixed]
  rfl

end TestScout
