import TestScout.Reflection.Members
set_option autoImplicit false

namespace TestScout

abbrev TraitGroups :=
  List (String × List String)

namespace TraitGroups

def add (name value : String) : TraitGroups → TraitGroups
  | [] => [(name,[value])]
  | (n,values) :: rest =>
    if n = name then (n,values ++ [value]) :: rest else (n,values) :: add name value rest

def ofPairs (pairs : List (String × String)) : TraitGroups :=
  pairs.foldl (fun groups pair => add pair.1 pair.2 groups) []

def toPairs (groups : TraitGroups) : List (String × String) :=
  groups.flatMap fun (name,values) => values.map fun value => (name,value)

variable {groups : TraitGroups} {name value : String}

theorem add_of_not_mem (new : name ∉ groups.map Prod.fst) :
    add name value groups = groups ++ [(name,[value])] := by
  induction groups with
  | nil => rfl
  | cons group rest ih =>
    rw [List.map_cons,List.mem_cons,not_or] at new
    simp [add,Ne.symm new.1,ih new.2]

/-- A group stays where it is and takes a further value at its end. -/
theorem add_of_mem (once : (groups.map Prod.fst).Nodup) (known : name ∈ groups.map Prod.fst) :
    add name value groups =
      groups.map fun group => if group.1 = name then (name,group.2 ++ [value]) else group := by
  induction groups with
  | nil => cases known
  | cons group rest ih =>
    rw [List.map_cons,List.nodup_cons] at once
    by_cases here : group.1 = name
    · have others : rest.map (fun group => if group.1 = name then (name,group.2 ++ [value]) else group) =
          rest.map fun group => group := by
        refine List.map_congr_left fun other member => if_neg fun same => ?_
        exact once.1 (here.trans same.symm ▸ List.mem_map_of_mem member)
      simp [add,here,others]
    · have later : name ∈ rest.map Prod.fst := (List.mem_cons.1 known).resolve_left (Ne.symm here)
      simp [add,here,ih once.2 later]

@[simp] theorem lookup_add (name value : String) (groups : TraitGroups) (other : String) :
    (add name value groups).lookup other =
      if other = name then some ((groups.lookup name).getD [] ++ [value])
      else groups.lookup other := by
  have passed {other first : String} (differs : other ≠ first) (values : List String)
      (rest : TraitGroups) : List.lookup other ((first,values) :: rest) = rest.lookup other := by
    rw [List.lookup_cons,beq_eq_false_iff_ne.2 differs]
  induction groups with
  | nil => by_cases same : other = name <;> simp [add,same,passed]
  | cons group rest ih =>
    obtain ⟨first,values⟩ := group
    unfold add
    split
    · next here =>
      subst here
      by_cases same : other = first <;> simp [same,passed]
    · next differs =>
      by_cases here : other = first
      · subst here
        simp [differs]
      · simp [passed here,passed (Ne.symm differs),ih]

end TraitGroups

structure Location where
  file : Option String
  line : Option Nat
  deriving DecidableEq, Repr

structure Finding where
  type : SymbolId
  method : SymbolId
  typeName : String
  methodName : String
  displayName : String
  location : Option Location := none
  traits : TraitGroups := []
  deriving DecidableEq, Repr

namespace Finding

def ofMethod (g : Graph) (type method : SymbolId) (displayName : String) : Finding :=
  { type, method, typeName := g.qualifiedName type, methodName := g.methodName method, displayName }

def testName (f : Finding) : String :=
  f.typeName ++ "." ++ f.methodName

def describe (f : Finding) : String :=
  Text.wrapped "TestMethod" f.testName

end Finding

end TestScout
