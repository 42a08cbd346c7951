import TestScout.Proofs.Overrides
set_option autoImplicit false

namespace TestScout

section MostDerived

variable {overrides : SymbolId → Option SymbolId}

/-- A position is superseded if a method anywhere in the stream overrides the method there, or if a
method at an earlier position overrides what this one overrides. -/
def IsSuperseded (overrides : SymbolId → Option SymbolId) (stream : List SymbolId) (k : Nat) : Prop :=
  ∃ m ∈ stream[k]?, (∃ y ∈ stream, overrides y = some m) ∨
    ∃ y ∈ stream.take k, ∃ b ∈ overrides m, overrides y = some b

instance (overrides : SymbolId → Option SymbolId) (stream : List SymbolId) (k : Nat) :
    Decidable (IsSuperseded overrides stream k) :=
  inferInstanceAs (Decidable (∃ m ∈ stream[k]?, (∃ y ∈ stream, overrides y = some m) ∨
    ∃ y ∈ stream.take k, ∃ b ∈ overrides m, overrides y = some b))

theorem isSuperseded_iff {stream : List SymbolId} {k : Nat} {m : SymbolId}
    (first : ∀ y ∈ stream, ∀ b ∈ stream, y ≠ b → overrides y = some b →
      stream.idxOf y < stream.idxOf b)
    (here : stream[k]? = some m) :
    IsSuperseded overrides stream k ↔
      ¬(IsListedAt overrides [] m ∧ ∀ y ∈ stream.take k, ¬Supersedes overrides y m) := by
  have member : m ∈ stream := List.mem_of_getElem? here
  constructor
  · rintro ⟨m',here',superseded⟩ ⟨⟨-,proper,-⟩,free⟩
    obtain rfl : m = m' := Option.some.inj (here.symm.trans here')
    rcases superseded with ⟨y,hy,link⟩ | ⟨y,hy,b,link,link'⟩
    · have other : y ≠ m := by
        rintro rfl
        exact proper link
      have before := first y hy m member other link
      have reached := idxOf_le_of_getElem? here
      have earlier : y ∈ stream.take k := (List.mem_take_iff_idxOf_lt hy).2 (by omega)
      exact free y earlier (.inl link)
    · exact free y hy (.inr ⟨b,link,link'⟩)
  · intro unlisted
    refine ⟨m,here,?_⟩
    by_contra kept
    rw [not_or] at kept
    obtain ⟨free,free'⟩ := kept
    refine unlisted ⟨⟨List.not_mem_nil,?_,fun _ _ => List.not_mem_nil⟩,?_⟩
    · exact fun link => free ⟨m,member,link⟩
    · rintro y hy (link | ⟨b,link,link'⟩)
      · exact free ⟨y,List.mem_of_mem_take hy,link⟩
      · exact free' ⟨y,hy,b,link,link'⟩

end MostDerived

namespace Graph

/-- If the methods of the stream stand before the other methods of the stream that they override, a
type lists exactly the positions that are not superseded, in their order. -/
theorem methods_exact (g : Graph) (includePrivate : Bool) (type : SymbolId)
    (first : ∀ m ∈ g.methodStream includePrivate type, ∀ b ∈ g.methodStream includePrivate type,
      m ≠ b → g.Overrides m b →
      (g.methodStream includePrivate type).idxOf m <
        (g.methodStream includePrivate type).idxOf b) :
    g.methods includePrivate type =
      entriesAt (fun k => ¬IsSuperseded g.overridden? (g.methodStream includePrivate type) k)
        (g.methodStream includePrivate type) := by
  unfold methods
  rw [mostDerived_eq_entriesAt]
  refine entriesAt_congr fun k inside => ?_
  have here := List.getElem?_eq_getElem inside
  rw [isSuperseded_iff first here,not_not,here]
  simp

end Graph

/-- A class derived from another one. Of its public methods two override one method of the base, one
overrides a method from elsewhere that the base overrides too, and one overrides itself; a private one
overrides a method that the base lists twice. -/
def twoLevelGraph : Graph where
  assemblyName := none
  assembly := ⟨0⟩
  symbols :=
    let publicMethod := { Symbol.ofName .method "M" .cSharp with accessibility := .publicAccess }
    [Symbol.ofName .namedType "Object" .cSharp,
     { Symbol.ofName .namedType "A" .cSharp with
       baseType := some ⟨0⟩, members := [⟨3⟩,⟨4⟩,⟨5⟩,⟨5⟩] },
     { Symbol.ofName .namedType "B" .cSharp with
       baseType := some ⟨1⟩, members := [⟨6⟩,⟨7⟩,⟨8⟩,⟨9⟩,⟨10⟩] },
     publicMethod,
     { publicMethod with overriddenMethod := some ⟨11⟩ },
     publicMethod,
     { publicMethod with overriddenMethod := some ⟨3⟩ },
     { publicMethod with overriddenMethod := some ⟨3⟩ },
     { publicMethod with overriddenMethod := some ⟨11⟩ },
     { publicMethod with overriddenMethod := some ⟨9⟩ },
     { Symbol.ofName .method "M" .cSharp with
       accessibility := .privateAccess, overriddenMethod := some ⟨5⟩ }]

theorem methods_exact_twoLevel :
    twoLevelGraph.methodStream false ⟨2⟩ = [⟨6⟩,⟨7⟩,⟨8⟩,⟨9⟩,⟨3⟩,⟨4⟩,⟨5⟩,⟨5⟩] ∧
    twoLevelGraph.methods false ⟨2⟩ = [⟨6⟩,⟨8⟩,⟨5⟩,⟨5⟩] := by
  have stream : twoLevelGraph.methodStream false ⟨2⟩ = [⟨6⟩,⟨7⟩,⟨8⟩,⟨9⟩,⟨3⟩,⟨4⟩,⟨5⟩,⟨5⟩] := by
    cbv
  have first : ∀ m ∈ twoLevelGraph.methodStream false ⟨2⟩,
      ∀ b ∈ twoLevelGraph.methodStream false ⟨2⟩, m ≠ b → twoLevelGraph.Overrides m b →
      (twoLevelGraph.methodStream false ⟨2⟩).idxOf m <
        (twoLevelGraph.methodStream false ⟨2⟩).idxOf b := by
    rw [stream]
    unfold Graph.Overrides
    decide
  refine ⟨stream,?_⟩
  rw [Graph.methods_exact twoLevelGraph false ⟨2⟩ first,stream]
  decide

end TestScout
