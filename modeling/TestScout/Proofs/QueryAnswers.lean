import TestScout.Attribute.Matching
set_option autoImplicit false

namespace TestScout

def Memory.IsTrueTo (g : Graph) (m : Memory) : Prop :=
  ∀ entry ∈ m.resolved, entry.2 = g.typeNamed? entry.1

theorem Memory.isTrueTo_empty (g : Graph) (asked : List String) :
    Memory.IsTrueTo g { asked } := by
  intro entry member
  exact absurd member List.not_mem_nil

theorem Memory.IsTrueTo.known {g : Graph} {m : Memory} (h : m.IsTrueTo g) {name : String}
    {answer : Option SymbolId} (known : m.known? name = some answer) :
    answer = g.typeNamed? name := by
  obtain ⟨entry,found,rfl⟩ := Option.map_eq_some_iff.1 known
  have same : entry.1 = name := by simpa using List.find?_some found
  rw [h entry (List.mem_of_find?_eq_some found),same]

namespace Graph

def matching (g : Graph) (id : SymbolId) (name : String) : List Applied :=
  match (AttributeTypeName.parse? name).bind fun parsed => g.typeNamed? parsed.typeName with
  | none => []
  | some target =>
    (g.effective id).items.filter fun a => a.data.type.any fun type => g.isAssignable type target

def matchingOnType (g : Graph) (owner : SymbolId) (index : Nat) (name : String) : List Applied :=
  match g.attributeType? owner index with
  | none => []
  | some type => g.matching type name

end Graph

namespace Query

variable {α β : Type} {g : Graph}

/-- The query has this answer on every memory that is true to the graph, and leaves such a memory. -/
def Answers (g : Graph) (q : Query α) (answer : α) : Prop :=
  ∀ m : Memory, m.IsTrueTo g → (q m).1 = answer ∧ (q m).2.IsTrueTo g

theorem answers_pure (answer : α) : Answers g (pure answer) answer :=
  fun _ h => ⟨rfl,h⟩

theorem Answers.bind {q : Query α} {next : α → Query β} {answer : α} {answer' : β}
    (first : Answers g q answer) (second : Answers g (next answer) answer') :
    Answers g (q >>= next) answer' := by
  intro m h
  obtain ⟨same,kept⟩ := first m h
  have step : (q >>= next) m = next (q m).1 (q m).2 := rfl
  rw [step,same]
  exact second _ kept

theorem answers_ask (name : String) : Answers g (ask g name) (g.typeNamed? name) :=
  fun _ h => ⟨rfl,h⟩

theorem answers_resolve (name : String) : Answers g (resolve g name) (g.typeNamed? name) := by
  intro m h
  unfold resolve
  cases known : m.known? name with
  | some answer => exact ⟨h.known known,h⟩
  | none =>
    refine ⟨rfl,?_⟩
    intro entry member
    rcases List.mem_append.1 member with before | new
    · exact h entry before
    · obtain rfl := List.mem_singleton.1 new
      rfl

theorem effectiveUnder_of_no_donors {id : SymbolId} (alone : g.donors id = [])
    (usageType : Option SymbolId) : g.effectiveUnder usageType id = g.effective id := by
  simp [Graph.effective,Graph.effectiveUnder,alone]

theorem answers_effective (id : SymbolId) : Answers g (effective g id) (g.effective id) := by
  unfold effective
  by_cases alone : g.donors id = []
  · rw [if_pos (List.isEmpty_iff.2 alone),effectiveUnder_of_no_donors alone]
    exact answers_pure _
  · rw [if_neg (mt List.isEmpty_iff.1 alone)]
    exact (answers_ask attributeUsageName).bind (answers_pure _)

theorem answers_matching (id : SymbolId) (name : String) :
    Answers g (matching g id name) (g.matching id name) := by
  refine (answers_effective id).bind ?_
  unfold Graph.matching
  by_cases bare : (g.effective id).items = []
  -- Here the name is not even looked at, and nothing can be selected from nothing.
  · rw [if_pos (List.isEmpty_iff.2 bare),bare]
    simp only [List.filter_nil]
    split <;> exact answers_pure _
  · rw [if_neg (mt List.isEmpty_iff.1 bare)]
    cases AttributeTypeName.parse? name with
    | none => exact answers_pure _
    | some parsed =>
      refine (answers_resolve parsed.typeName).bind ?_
      rw [Option.bind_some]
      cases g.typeNamed? parsed.typeName with
      | none => exact answers_pure _
      | some target => exact answers_pure _

theorem answers_matchingOnType (owner : SymbolId) (index : Nat) (name : String) :
    Answers g (matchingOnType g owner index name) (g.matchingOnType owner index name) := by
  unfold matchingOnType Graph.matchingOnType
  cases g.attributeType? owner index with
  | none => exact answers_pure _
  | some type => exact answers_matching type name

end Query

end TestScout
