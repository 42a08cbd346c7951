import TestScout.Proofs.Overrides
set_option autoImplicit false

namespace TestScout

section MostDerived

variable {overrides : SymbolId → Option SymbolId} {shows : SymbolId → Bool}
  {hidden hidden' stream : List SymbolId}

/-- The two lists of hidden methods may differ on methods that are not shown. -/
def AgreeOnShown (shows : SymbolId → Bool) (hidden hidden' : List SymbolId) : Prop :=
  ∀ m, shows m → (m ∈ hidden ↔ m ∈ hidden')

theorem AgreeOnShown.skip (agree : AgreeOnShown shows hidden hidden') {m : SymbolId}
    (same : ∀ b, overrides m = some b → shows b = shows m) (unshown : shows m = false) :
    AgreeOnShown shows hidden (hiddenAfter overrides hidden' m) := by
  intro x shown
  rw [agree x shown,hiddenAfter,List.mem_append,Option.mem_toList,iff_or_self]
  intro link
  rw [same x link,unshown] at shown
  cases shown

theorem AgreeOnShown.step (agree : AgreeOnShown shows hidden hidden') (m : SymbolId) :
    AgreeOnShown shows (hiddenAfter overrides hidden m) (hiddenAfter overrides hidden' m) := by
  intro x shown
  simp only [hiddenAfter,List.mem_append,agree x shown]

theorem AgreeOnShown.isListedAt_iff (agree : AgreeOnShown shows hidden hidden') {m : SymbolId}
    (same : ∀ b, overrides m = some b → shows b = shows m) (shown : shows m) :
    IsListedAt overrides hidden m ↔ IsListedAt overrides hidden' m := by
  have overridden : ∀ b, overrides m = some b → (b ∈ hidden ↔ b ∈ hidden') := fun b link =>
    agree b ((same b link).trans shown)
  unfold IsListedAt
  rw [agree m shown]
  simp +contextual only [overridden]

theorem mostDerived_filter (same : ∀ m ∈ stream, ∀ b, overrides m = some b → shows b = shows m)
    (agree : AgreeOnShown shows hidden hidden') :
    mostDerived overrides hidden (stream.filter shows) =
      (mostDerived overrides hidden' stream).filter shows := by
  induction stream generalizing hidden hidden' with
  | nil => rfl
  | cons m rest ih =>
    obtain ⟨here,later⟩ := List.forall_mem_cons.1 same
    rw [mostDerived_cons,List.filter_append]
    cases shown : shows m with
    | false =>
      -- On the left the method is skipped; on the right it may be listed, and the filter drops it.
      have dropped : (if IsListedAt overrides hidden' m then [m] else []).filter shows = [] := by
        split <;> simp [shown]
      rw [List.filter_cons_of_neg (by simp [shown]),dropped,List.nil_append]
      exact ih later (agree.skip here shown)
    | true =>
      have kept : (if IsListedAt overrides hidden' m then [m] else []).filter shows =
          if IsListedAt overrides hidden m then [m] else [] := by
        simp only [agree.isListedAt_iff here shown]
        split <;> simp [shown]
      rw [List.filter_cons_of_pos shown,mostDerived_cons,kept,ih later (agree.step m)]

end MostDerived

namespace Graph

variable {g : Graph} {type : SymbolId}

theorem methodStream_false (g : Graph) (type : SymbolId) :
    g.methodStream false type = (g.methodStream true type).filter g.isPublic := by
  unfold methodStream
  rw [List.filter_flatMap]
  refine List.flatMap_congr fun level _ => ?_
  rw [List.filter_filter]
  refine List.filter_congr fun id _ => ?_
  simp [showsMethod_eq,Bool.and_comm]

/-- If every method of the hierarchy that overrides another one is public exactly when the other one
is, the methods listed for the public are the public ones among all listed methods, in the same order.
Methods may be repeated, override one another in circles or override methods from elsewhere, and the
bases of the type may form a cycle. -/
theorem methods_false_eq_filter (g : Graph) (type : SymbolId)
    (same : ∀ m ∈ g.methodStream true type, ∀ b, g.Overrides m b → (g.isPublic b ↔ g.isPublic m)) :
    g.methods false type = (g.methods true type).filter g.isPublic := by
  unfold methods
  rw [methodStream_false]
  refine mostDerived_filter ?_ fun _ _ => Iff.rfl
  intro m member b link
  exact Bool.eq_iff_iff.2 (same m member b link)

end Graph

/-- Two classes, each the base of the other. A public and a private method are overridden by methods
like them, two public ones override each other, a private one overrides itself, and a public one is
listed twice among the members. -/
def mutualGraph : Graph where
  assemblyName := none
  assembly := ⟨0⟩
  symbols :=
    let publicMethod := { Symbol.ofName .method "M" .cSharp with accessibility := .publicAccess }
    let privateMethod := { Symbol.ofName .method "N" .cSharp with accessibility := .privateAccess }
    [Symbol.ofName .namedType "Object" .cSharp,
     { Symbol.ofName .namedType "A" .cSharp with
       baseType := some ⟨2⟩, members := [⟨3⟩,⟨4⟩,⟨5⟩,⟨5⟩,⟨6⟩] },
     { Symbol.ofName .namedType "B" .cSharp with
       baseType := some ⟨1⟩, members := [⟨7⟩,⟨8⟩,⟨9⟩,⟨10⟩] },
     publicMethod,
     privateMethod,
     publicMethod,
     { publicMethod with overriddenMethod := some ⟨10⟩ },
     { publicMethod with overriddenMethod := some ⟨3⟩ },
     { privateMethod with overriddenMethod := some ⟨4⟩ },
     { privateMethod with overriddenMethod := some ⟨9⟩ },
     { publicMethod with overriddenMethod := some ⟨6⟩ }]

theorem methods_false_eq_filter_mutual :
    mutualGraph.methodStream true ⟨2⟩ = [⟨7⟩,⟨8⟩,⟨9⟩,⟨10⟩,⟨3⟩,⟨4⟩,⟨5⟩,⟨5⟩,⟨6⟩] ∧
    mutualGraph.methods true ⟨2⟩ = [⟨7⟩,⟨8⟩,⟨10⟩,⟨5⟩,⟨5⟩] ∧
    mutualGraph.methods false ⟨2⟩ = [⟨7⟩,⟨10⟩,⟨5⟩,⟨5⟩] := by
  have stream : mutualGraph.methodStream true ⟨2⟩ =
      [⟨7⟩,⟨8⟩,⟨9⟩,⟨10⟩,⟨3⟩,⟨4⟩,⟨5⟩,⟨5⟩,⟨6⟩] := by
    cbv
  have everything : mutualGraph.methods true ⟨2⟩ = [⟨7⟩,⟨8⟩,⟨10⟩,⟨5⟩,⟨5⟩] := by cbv
  have same : ∀ m ∈ mutualGraph.methodStream true ⟨2⟩, ∀ b, mutualGraph.Overrides m b →
      (mutualGraph.isPublic b ↔ mutualGraph.isPublic m) := by
    rw [stream]
    have agree : ∀ m ∈ [(⟨7⟩ : SymbolId),⟨8⟩,⟨9⟩,⟨10⟩,⟨3⟩,⟨4⟩,⟨5⟩,⟨5⟩,⟨6⟩],
        ∀ b ∈ mutualGraph.overridden? m, mutualGraph.isPublic b = mutualGraph.isPublic m := by
      decide
    intro m member b link
    rw [agree m member b link]
  refine ⟨stream,everything,?_⟩
  rw [Graph.methods_false_eq_filter mutualGraph ⟨2⟩ same,everything]
  decide

end TestScout
