import TestScout.Proofs.TypeNameGrammar
set_option autoImplicit false

namespace TestScout

namespace AttributeTypeName

/-- A name that can be written without quotation: nothing in it separates, and no blank at its ends
would be trimmed. -/
structure IsPlain (name : String) : Prop where
  ne_empty : name ≠ ""
  unseparated : ∀ c ∈ name.toList, c ≠ ',' ∧ c ≠ '[' ∧ c ≠ ']'
  start : ∀ c ∈ name.toList.head?, ¬Text.isBlank c
  last : ∀ c ∈ name.toList.getLast?, ¬Text.isBlank c

theorem isPlain_iff (name : String) : IsPlain name ↔
    name ≠ "" ∧ (name.toList.all fun c => c != ',' && c != '[' && c != ']') = true ∧
      (name.toList.head?.all fun c => !Text.isBlank c) = true ∧
        (name.toList.getLast?.all fun c => !Text.isBlank c) = true := by
  simp only [List.all_eq_true,Option.all_eq_true,Bool.and_eq_true,bne_iff_ne,Bool.not_eq_true',
    ← Bool.not_eq_true,and_assoc]
  exact ⟨fun h => ⟨h.ne_empty,h.unseparated,h.start,h.last⟩,fun h => ⟨h.1,h.2.1,h.2.2.1,h.2.2.2⟩⟩

instance (name : String) : Decidable (IsPlain name) :=
  decidable_of_iff _ (isPlain_iff name).symm

theorem IsPlain.writes {name : String} (plain : IsPlain name) : Writes name.toList name :=
  ⟨plain.ne_empty,Text.isPadded_self _,plain.start,plain.last⟩

theorem IsPlain.parse?_append {name suffix : String} (plain : IsPlain name) (h : IsSuffix suffix) :
    ∃ assemblyName, parse? (name ++ suffix) = some ⟨name,assemblyName⟩ := by
  have free : ',' ∉ name.toList := fun member => (plain.unseparated _ member).1 rfl
  have writes : Writes (typePart (name ++ suffix)) name := by
    rw [typePart_append free h]
    exact plain.writes
  obtain ⟨n,found⟩ := Option.isSome_iff_exists.1
    (isSome_parse?_iff.2 ⟨name,writes,fun c member => (plain.unseparated c member).2⟩)
  obtain rfl := (parse?_eq_some_iff.1 found).type.unique writes
  exact ⟨n.assemblyName,found⟩

end AttributeTypeName

end TestScout
