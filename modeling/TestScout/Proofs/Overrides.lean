import TestScout.Reflection.Members
import TestScout.Proofs.Positions
import TestScout.Proofs.Visibility
import Mathlib.Data.List.Basic
import Mathlib.Data.List.Flatten
import Mathlib.Logic.Relation
set_option autoImplicit false

/-!
Which methods of a hierarchy are listed, in terms of their places in the stream of its methods, and
when two links of one chain of overrides are both listed.
-/

namespace TestScout

section MostDerived

variable {overrides : SymbolId → Option SymbolId}

theorem mostDerived_congr {hidden hidden' : List SymbolId} (same : ∀ m, m ∈ hidden ↔ m ∈ hidden')
    (stream : List SymbolId) :
    mostDerived overrides hidden stream = mostDerived overrides hidden' stream := by
  induction stream generalizing hidden hidden' with
  | nil => rfl
  | cons m rest ih =>
    have step (b : SymbolId) : ∀ x, x ∈ b :: hidden ↔ x ∈ b :: hidden' := by
      simp [same]
    simp only [mostDerived,same,List.mem_cons]
    cases overrides m with
    | none => simp only [ih same]
    | some b => simp only [ih same,ih (step b)]

def hiddenAfter (overrides : SymbolId → Option SymbolId) (hidden : List SymbolId) (m : SymbolId) :
    List SymbolId :=
  (overrides m).toList ++ hidden

/-- A method is listed where it is met if it is not hidden, does not override itself and overrides
nothing that is hidden. -/
def IsListedAt (overrides : SymbolId → Option SymbolId) (hidden : List SymbolId) (m : SymbolId) :
    Prop :=
  m ∉ hidden ∧ overrides m ≠ some m ∧ ∀ b, overrides m = some b → b ∉ hidden

instance (overrides : SymbolId → Option SymbolId) (hidden : List SymbolId) (m : SymbolId) :
    Decidable (IsListedAt overrides hidden m) :=
  inferInstanceAs
    (Decidable (m ∉ hidden ∧ overrides m ≠ some m ∧ ∀ b ∈ overrides m, b ∉ hidden))

def Supersedes (overrides : SymbolId → Option SymbolId) (y m : SymbolId) : Prop :=
  overrides y = some m ∨ ∃ b, overrides m = some b ∧ overrides y = some b

instance (overrides : SymbolId → Option SymbolId) (y m : SymbolId) :
    Decidable (Supersedes overrides y m) :=
  inferInstanceAs
    (Decidable (overrides y = some m ∨ ∃ b ∈ overrides m, overrides y = some b))

/-- The first method, when it is met before the second, keeps it from being listed: it overrides it,
or it overrides what the second overrides. -/
def Hides (overrides : SymbolId → Option SymbolId) (y m : SymbolId) : Prop :=
  y ≠ m ∧ (overrides y = some m ∨ ∃ b, overrides m = some b ∧ overrides y = some b)

/-- What the first method of a stream does to the list: it is listed or not, and what it overrides is
hidden from then on. -/
theorem mostDerived_cons (hidden rest : List SymbolId) (x : SymbolId) :
    mostDerived overrides hidden (x :: rest) =
      (if IsListedAt overrides hidden x then [x] else []) ++
        mostDerived overrides (hiddenAfter overrides hidden x) rest := by
  cases h : overrides x with
  | none =>
    by_cases hx : x ∈ hidden <;> simp [mostDerived,IsListedAt,hiddenAfter,h,hx]
  | some b =>
    by_cases hb : b ∈ hidden
    · have same : ∀ y, y ∈ hidden ↔ y ∈ b :: hidden := by
        intro y
        rw [List.mem_cons]
        constructor
        · exact .inr
        · rintro (rfl | hy)
          · exact hb
          · exact hy
      simp [mostDerived,IsListedAt,hiddenAfter,h,hb,mostDerived_congr same]
    · by_cases hx : x ∈ b :: hidden
      · have unlisted : ¬IsListedAt overrides hidden x := by
          rintro ⟨unhidden,proper,-⟩
          rcases List.mem_cons.1 hx with rfl | hx
          · exact proper h
          · exact unhidden hx
        simp only [mostDerived,h,if_neg hb,if_pos hx,if_neg unlisted]
        simp [hiddenAfter,h]
      · rw [List.mem_cons,not_or] at hx
        simp [mostDerived,IsListedAt,hiddenAfter,h,hb,hx,Ne.symm hx.1]

theorem mostDerived_sublist (hidden stream : List SymbolId) :
    (mostDerived overrides hidden stream).Sublist stream := by
  induction stream generalizing hidden with
  | nil => exact .slnil
  | cons m rest ih =>
    rw [mostDerived_cons]
    split
    · exact (ih _).cons_cons m
    · exact (ih _).cons m

theorem isListedAt_hiddenAfter_iff {hidden : List SymbolId} {m x : SymbolId} :
    IsListedAt overrides (hiddenAfter overrides hidden x) m ↔
      IsListedAt overrides hidden m ∧ ¬Supersedes overrides x m := by
  simp only [IsListedAt,hiddenAfter,Supersedes,List.mem_append,Option.mem_toList,not_or,not_and,
    not_exists]
  constructor
  · rintro ⟨⟨free,unhidden⟩,proper,free'⟩
    exact ⟨⟨unhidden,proper,fun b h => (free' b h).2⟩,free,fun b h => (free' b h).1⟩
  · rintro ⟨⟨unhidden,proper,unhidden'⟩,free,free'⟩
    exact ⟨⟨free,unhidden⟩,proper,fun b h => ⟨free' b h,unhidden' b h⟩⟩

theorem mostDerived_eq_entriesAt (hidden stream : List SymbolId) :
    mostDerived overrides hidden stream =
      entriesAt (fun k => ∃ m ∈ stream[k]?, IsListedAt overrides hidden m ∧
        ∀ y ∈ stream.take k, ¬Supersedes overrides y m) stream := by
  induction stream generalizing hidden with
  | nil => rfl
  | cons x rest ih =>
    rw [mostDerived_cons,entriesAt_cons,ih]
    congr 1
    · simp
    · refine entriesAt_congr fun k _ => ?_
      simp only [List.getElem?_cons_succ,List.take_succ_cons,List.forall_mem_cons,
        isListedAt_hiddenAfter_iff,and_assoc]

theorem mem_mostDerived_iff (hidden stream : List SymbolId) (m : SymbolId) :
    m ∈ mostDerived overrides hidden stream ↔
      m ∈ stream ∧ IsListedAt overrides hidden m ∧
      ∀ y ∈ stream, Hides overrides y m → stream.idxOf m < stream.idxOf y := by
  rw [mostDerived_eq_entriesAt,mem_entriesAt_iff]
  constructor
  · rintro ⟨k,⟨m',here',listed,free⟩,here⟩
    obtain rfl : m = m' := Option.some.inj (here.symm.trans here')
    have member := List.mem_of_getElem? here
    refine ⟨member,listed,fun y hy ⟨differs,supersedes⟩ => ?_⟩
    have reached := idxOf_le_of_getElem? here
    have late : ¬stream.idxOf y < k := fun early =>
      free y ((List.mem_take_iff_idxOf_lt hy).2 early) supersedes
    have distinct := mt (List.idxOf_inj hy).1 differs
    omega
  · rintro ⟨member,listed,first⟩
    -- Where it is met first, what was met before does not supersede it.
    have here : stream[stream.idxOf m]? = some m := List.getElem?_idxOf member
    refine ⟨stream.idxOf m,⟨m,here,listed,fun y earlier supersedes => ?_⟩,here⟩
    have hy := List.mem_of_mem_take earlier
    have before := (List.mem_take_iff_idxOf_lt hy).1 earlier
    by_cases same : y = m
    · subst same
      omega
    · have := first y hy ⟨same,supersedes⟩
      omega

end MostDerived

namespace Graph

def isMethod (g : Graph) (id : SymbolId) : Bool :=
  (g.symbol? id).any Symbol.isMethod

def levelMethods (g : Graph) (level : SymbolId) : List SymbolId :=
  (g.members level).filter g.isMethod

def Overrides (g : Graph) (m overridden : SymbolId) : Prop :=
  g.overridden? m = some overridden

/-- Every method of a level that overrides something overrides a method of a level further up. -/
def OverridesUpward (g : Graph) : List SymbolId → Prop
  | [] => True
  | level :: above =>
    (∀ m ∈ g.levelMethods level, ∀ b, g.Overrides m b → b ∈ above.flatMap g.levelMethods) ∧
    g.OverridesUpward above

/-- Two different links of one chain of overrides are both listed. -/
def ListsChainTwice (g : Graph) (includePrivate : Bool) (type : SymbolId) : Prop :=
  ∃ m ∈ g.methods includePrivate type, ∃ b ∈ g.methods includePrivate type,
    m ≠ b ∧ Relation.TransGen g.Overrides m b

variable {g : Graph} {levels : List SymbolId} {includePrivate : Bool} {type m b : SymbolId}

theorem showsMethod_eq (g : Graph) (includePrivate : Bool) (id : SymbolId) :
    g.showsMethod includePrivate id = (g.isMethod id && (includePrivate || g.isPublic id)) := by
  cases h : g.symbol? id <;> simp [showsMethod,isMethod,isPublic,h]

def shownMethods (g : Graph) (includePrivate : Bool) (levels : List SymbolId) : List SymbolId :=
  levels.flatMap fun level => (g.members level).filter (g.showsMethod includePrivate)

theorem shownMethods_true (g : Graph) (levels : List SymbolId) :
    g.shownMethods true levels = levels.flatMap g.levelMethods := by
  have same : g.showsMethod true = g.isMethod := by
    funext id
    simp [showsMethod_eq]
  simp only [shownMethods,same]
  rfl

theorem methodStream_sublist (g : Graph) (includePrivate : Bool) (type : SymbolId) :
    (g.methodStream includePrivate type).Sublist (g.methodStream true type) := by
  refine List.Sublist.flatMap_right _ fun level _ => List.monotone_filter_right _ fun id shown => ?_
  rw [showsMethod_eq,Bool.and_eq_true] at shown ⊢
  exact ⟨shown.1,rfl⟩

theorem methods_nodup (once : (g.methodStream true type).Nodup) (includePrivate : Bool) :
    (g.methods includePrivate type).Nodup :=
  ((mostDerived_sublist [] _).trans (g.methodStream_sublist includePrivate type)).nodup once

theorem mem_shownMethods_iff :
    m ∈ g.shownMethods includePrivate levels ↔
      m ∈ levels.flatMap g.levelMethods ∧ (includePrivate || g.isPublic m) := by
  simp only [shownMethods,levelMethods,List.mem_flatMap,List.mem_filter,showsMethod_eq,
    Bool.and_eq_true]
  constructor
  · rintro ⟨level,inside,member,method,shown⟩
    exact ⟨⟨level,inside,member,method⟩,shown⟩
  · rintro ⟨⟨level,inside,member,method⟩,shown⟩
    exact ⟨level,inside,member,method,shown⟩

theorem OverridesUpward.mem_of_chain (up : g.OverridesUpward levels)
    (member : m ∈ levels.flatMap g.levelMethods) (chain : Relation.ReflTransGen g.Overrides m b) :
    b ∈ levels.flatMap g.levelMethods := by
  have step : ∀ x y, x ∈ levels.flatMap g.levelMethods → g.Overrides x y →
      y ∈ levels.flatMap g.levelMethods := by
    clear member chain
    induction levels with
    | nil => simp
    | cons level above ih =>
      intro x y hx link
      rw [List.flatMap_cons,List.mem_append] at hx ⊢
      rcases hx with hx | hx
      · exact .inr (up.1 x hx y link)
      · exact .inr (ih up.2 x y hx link)
  induction chain with
  | refl => exact member
  | tail _ link ih => exact step _ _ ih link

theorem OverridesUpward.acyclic (up : g.OverridesUpward levels)
    (member : m ∈ levels.flatMap g.levelMethods) : ¬Relation.TransGen g.Overrides m m := by
  induction levels with
  | nil => simp at member
  | cons level above ih =>
    intro chain
    rw [List.flatMap_cons,List.mem_append] at member
    rcases member with member | member
    · obtain ⟨next,link,rest⟩ := Relation.TransGen.head'_iff.1 chain
      exact ih up.2 (up.2.mem_of_chain (up.1 m member next link) rest) chain
    · exact ih up.2 member chain

theorem OverridesUpward.idxOf_lt (up : g.OverridesUpward levels)
    (nodup : (levels.flatMap g.levelMethods).Nodup)
    (hm : m ∈ g.shownMethods includePrivate levels) (hb : b ∈ g.shownMethods includePrivate levels)
    (link : g.Overrides m b) :
    (g.shownMethods includePrivate levels).idxOf m <
      (g.shownMethods includePrivate levels).idxOf b := by
  induction levels with
  | nil => simp [shownMethods] at hm
  | cons level above ih =>
    have split : g.shownMethods includePrivate (level :: above) =
        g.shownMethods includePrivate [level] ++ g.shownMethods includePrivate above := by
      simp [shownMethods]
    rw [List.flatMap_cons,List.nodup_append] at nodup
    obtain ⟨-,nodup,apart⟩ := nodup
    have shown : includePrivate || g.isPublic b := (mem_shownMethods_iff.1 hb).2
    have higher : b ∈ above.flatMap g.levelMethods := by
      have inside := (mem_shownMethods_iff.1 hm).1
      rw [List.flatMap_cons,List.mem_append] at inside
      rcases inside with inside | inside
      · exact up.1 m inside b link
      · exact up.2.mem_of_chain inside (.single link)
    have hb' : b ∈ g.shownMethods includePrivate above := mem_shownMethods_iff.2 ⟨higher,shown⟩
    have absent : b ∉ g.shownMethods includePrivate [level] := by
      intro other
      have lower := (mem_shownMethods_iff.1 other).1
      rw [List.flatMap_singleton] at lower
      exact apart b lower b higher rfl
    rw [split,List.idxOf_append_of_notMem absent]
    -- The overriding method stands on this level, before all above it, or on a level above.
    by_cases first : m ∈ g.shownMethods includePrivate [level]
    · rw [List.idxOf_append_of_mem first]
      have := List.idxOf_lt_length_of_mem first
      omega
    · rw [List.idxOf_append_of_notMem first]
      rw [split,List.mem_append] at hm
      have := ih up.2 nodup (hm.resolve_left first) hb'
      omega

theorem mem_methods_iff (up : g.OverridesUpward (g.lineage type)) :
    m ∈ g.methods includePrivate type ↔
      m ∈ g.methodStream includePrivate type ∧
      ∀ y ∈ g.methodStream includePrivate type, Hides g.overridden? y m →
        (g.methodStream includePrivate type).idxOf m <
          (g.methodStream includePrivate type).idxOf y := by
  rw [methods,mem_mostDerived_iff]
  refine and_congr_right fun member => ?_
  have inside := (mem_shownMethods_iff.1 member).1
  have proper : g.overridden? m ≠ some m := fun link => up.acyclic inside (.single link)
  simp [IsListedAt,proper]

theorem exists_listed_above (up : g.OverridesUpward (g.lineage type))
    (member : m ∈ g.methodStream includePrivate type) (chain : Relation.TransGen g.Overrides m b) :
    ∃ top ∈ g.methods includePrivate type, Relation.TransGen g.Overrides top b := by
  induction place : (g.methodStream includePrivate type).idxOf m using Nat.strongRecOn
    generalizing m with
  | ind place ih =>
    by_cases listed : m ∈ g.methods includePrivate type
    · exact ⟨m,listed,chain⟩
    · rw [mem_methods_iff up] at listed
      push Not at listed
      obtain ⟨y,hy,⟨differs,hides⟩,before⟩ := listed member
      have distinct := mt (List.idxOf_inj hy).1 differs
      have chain' : Relation.TransGen g.Overrides y b := by
        rcases hides with link | ⟨a,link,link'⟩
        · exact .head link chain
        · obtain ⟨next,first,rest⟩ := Relation.TransGen.head'_iff.1 chain
          obtain rfl : a = next := Option.some.inj (link.symm.trans first)
          exact Relation.TransGen.head'_iff.2 ⟨a,link',rest⟩
      exact ih _ (by omega) hy chain' rfl

theorem listsChainTwice_iff_first (up : g.OverridesUpward (g.lineage type)) :
    g.ListsChainTwice includePrivate type ↔
      ∃ m ∈ g.methodStream includePrivate type, ∃ b ∈ g.methodStream includePrivate type,
        Relation.TransGen g.Overrides m b ∧
        ∀ y ∈ g.methodStream includePrivate type, Hides g.overridden? y b →
          (g.methodStream includePrivate type).idxOf b <
            (g.methodStream includePrivate type).idxOf y := by
  constructor
  · rintro ⟨m,hm,b,hb,-,chain⟩
    obtain ⟨shown,first⟩ := (mem_methods_iff up).1 hb
    exact ⟨m,((mem_methods_iff up).1 hm).1,b,shown,chain,first⟩
  · rintro ⟨m,hm,b,hb,chain,first⟩
    obtain ⟨top,listed,chain'⟩ := exists_listed_above up hm chain
    refine ⟨top,listed,b,(mem_methods_iff up).2 ⟨hb,first⟩,?_,chain'⟩
    rintro rfl
    exact up.acyclic (mem_shownMethods_iff.1 hb).1 chain'

theorem first_iff (up : g.OverridesUpward (g.lineage type))
    (nodup : (g.methodStream true type).Nodup) (hb : b ∈ g.methodStream includePrivate type) :
    (∀ y ∈ g.methodStream includePrivate type, Hides g.overridden? y b →
      (g.methodStream includePrivate type).idxOf b <
        (g.methodStream includePrivate type).idxOf y) ↔
    (∀ y ∈ g.methodStream includePrivate type, ¬g.Overrides y b) ∧
    ∀ y ∈ g.methodStream includePrivate type, ∀ a, g.Overrides b a → g.Overrides y a →
      (g.methodStream includePrivate type).idxOf b ≤
        (g.methodStream includePrivate type).idxOf y := by
  have inside := (mem_shownMethods_iff.1 hb).1
  have all : ((g.lineage type).flatMap g.levelMethods).Nodup := by
    rw [← shownMethods_true]
    exact nodup
  constructor
  · intro first
    constructor
    · intro y hy link
      have before := up.idxOf_lt all hy hb link
      have differs : y ≠ b := by
        rintro rfl
        exact up.acyclic inside (.single link)
      have := first y hy ⟨differs,.inl link⟩
      unfold methodStream at this
      unfold shownMethods at before
      omega
    · intro y hy a link link'
      by_cases same : y = b
      · exact Nat.le_of_eq (by rw [same])
      · exact Nat.le_of_lt (first y hy ⟨same,.inr ⟨a,link,link'⟩⟩)
  · rintro ⟨free,before⟩ y hy ⟨differs,link | ⟨a,link,link'⟩⟩
    · exact absurd link (free y hy)
    · have distinct := mt (List.idxOf_inj hy).1 differs
      have := before y hy a link link'
      omega

/-- Under the assumption that overriding goes up the levels, a chain is listed twice exactly when
some shown method leads to another one that is met before every shown method that hides it. Without
repeated methods this never happens when all methods are shown; when only public ones are, it happens
if the methods that override the other one directly are all not public. -/
theorem listsChainTwice_iff (g : Graph) (type : SymbolId)
    (up : g.OverridesUpward (g.lineage type)) :
    (∀ includePrivate, g.ListsChainTwice includePrivate type ↔
      ∃ m ∈ g.methodStream includePrivate type, ∃ b ∈ g.methodStream includePrivate type,
        Relation.TransGen g.Overrides m b ∧
        ∀ y ∈ g.methodStream includePrivate type, Hides g.overridden? y b →
          (g.methodStream includePrivate type).idxOf b <
            (g.methodStream includePrivate type).idxOf y) ∧
    ((g.methodStream true type).Nodup →
      ¬g.ListsChainTwice true type ∧
      (g.ListsChainTwice false type ↔
        ∃ m ∈ g.methodStream false type, ∃ b ∈ g.methodStream false type,
          Relation.TransGen g.Overrides m b ∧
          (∀ y ∈ g.methodStream true type, g.Overrides y b → ¬g.isPublic y) ∧
          ∀ y ∈ g.methodStream false type, ∀ a, g.Overrides b a → g.Overrides y a →
            (g.methodStream false type).idxOf b ≤ (g.methodStream false type).idxOf y)) := by
  refine ⟨fun _ => listsChainTwice_iff_first up,fun nodup => ⟨?_,?_⟩⟩
  · rw [listsChainTwice_iff_first up]
    rintro ⟨m,hm,b,hb,chain,first⟩
    obtain ⟨free,-⟩ := (first_iff up nodup hb).1 first
    -- The last link of the chain is shown as well, and it overrides the other end.
    obtain ⟨last,front,link⟩ := Relation.TransGen.tail'_iff.1 chain
    have member := up.mem_of_chain (mem_shownMethods_iff.1 hm).1 front
    exact free last (mem_shownMethods_iff.2 ⟨member,rfl⟩) link
  · rw [listsChainTwice_iff_first up]
    refine exists_congr fun m => and_congr_right fun hm => exists_congr fun b =>
      and_congr_right fun hb => and_congr_right fun chain => ?_
    rw [first_iff up nodup hb]
    refine and_congr_left fun _ => ?_
    constructor
    · intro free y hy link isPublic
      exact free y (mem_shownMethods_iff.2 ⟨(mem_shownMethods_iff.1 hy).1,by simpa using isPublic⟩) link
    · intro hidden y hy link
      obtain ⟨member,shown⟩ := mem_shownMethods_iff.1 hy
      exact hidden y (mem_shownMethods_iff.2 ⟨member,rfl⟩) link (by simpa using shown)

end Graph

/-- Three classes, each derived from the one before, with a method that is public, overridden by one
that is not, and overridden again by a public one. -/
def hiddenLinkGraph : Graph where
  assemblyName := none
  assembly := ⟨0⟩
  symbols :=
    [Symbol.ofName .namedType "Object" .cSharp,
     { Symbol.ofName .namedType "A" .cSharp with baseType := some ⟨0⟩, members := [⟨4⟩] },
     { Symbol.ofName .namedType "B" .cSharp with baseType := some ⟨1⟩, members := [⟨5⟩] },
     { Symbol.ofName .namedType "C" .cSharp with baseType := some ⟨2⟩, members := [⟨6⟩] },
     { Symbol.ofName .method "M" .cSharp with accessibility := .publicAccess },
     { Symbol.ofName .method "M" .cSharp with
       accessibility := .privateAccess, overriddenMethod := some ⟨4⟩ },
     { Symbol.ofName .method "M" .cSharp with
       accessibility := .publicAccess, overriddenMethod := some ⟨5⟩ }]

theorem hiddenLinkGraph_lineage : hiddenLinkGraph.lineage ⟨3⟩ = [⟨3⟩,⟨2⟩,⟨1⟩] := by
  cbv

theorem hiddenLinkGraph_methods : hiddenLinkGraph.methods false ⟨3⟩ = [⟨6⟩,⟨4⟩] := by
  cbv

theorem hiddenLinkGraph_upward :
    hiddenLinkGraph.OverridesUpward (hiddenLinkGraph.lineage ⟨3⟩) := by
  rw [hiddenLinkGraph_lineage]
  refine ⟨?_,?_,?_,trivial⟩
  all_goals
    intro m member b link
    obtain rfl := List.mem_singleton.1 member
    cases link <;> decide

theorem hiddenLinkGraph_chain : Relation.TransGen hiddenLinkGraph.Overrides ⟨6⟩ ⟨4⟩ := by
  have first : hiddenLinkGraph.Overrides ⟨6⟩ ⟨5⟩ := rfl
  have second : hiddenLinkGraph.Overrides ⟨5⟩ ⟨4⟩ := rfl
  exact .tail (.single first) second

/-- A chain of overrides need not be listed only once: a link that is not shown lets both ends
through. -/
theorem not_forall_not_listsChainTwice :
    ¬∀ (g : Graph) (includePrivate : Bool) (type : SymbolId),
      g.OverridesUpward (g.lineage type) → ¬g.ListsChainTwice includePrivate type := by
  intro once
  refine once hiddenLinkGraph false ⟨3⟩ hiddenLinkGraph_upward
    ⟨⟨6⟩,?_,⟨4⟩,?_,by decide,hiddenLinkGraph_chain⟩
  all_goals
    rw [hiddenLinkGraph_methods]
    decide

theorem listsChainTwice_iff_hiddenLink :
    hiddenLinkGraph.OverridesUpward (hiddenLinkGraph.lineage ⟨3⟩) ∧
    (hiddenLinkGraph.methodStream true ⟨3⟩).Nodup ∧
    ¬hiddenLinkGraph.ListsChainTwice true ⟨3⟩ ∧ hiddenLinkGraph.ListsChainTwice false ⟨3⟩ := by
  have everything : hiddenLinkGraph.methodStream true ⟨3⟩ = [⟨6⟩,⟨5⟩,⟨4⟩] := by cbv
  have nodup : (hiddenLinkGraph.methodStream true ⟨3⟩).Nodup := by
    rw [everything]
    decide
  have stream : hiddenLinkGraph.methodStream false ⟨3⟩ = [⟨6⟩,⟨4⟩] := by cbv
  obtain ⟨all,shown⟩ :=
    (Graph.listsChainTwice_iff hiddenLinkGraph ⟨3⟩ hiddenLinkGraph_upward).2 nodup
  refine ⟨hiddenLinkGraph_upward,nodup,all,shown.2 ?_⟩
  rw [stream]
  refine ⟨⟨6⟩,by decide,⟨4⟩,by decide,hiddenLinkGraph_chain,?_,?_⟩
  · intro y member link
    rw [everything] at member
    simp only [List.mem_cons,List.not_mem_nil,or_false] at member
    rcases member with rfl | rfl | rfl
    · cases link
    · decide
    · cases link
  · intro y _ a link
    cases link

end TestScout
