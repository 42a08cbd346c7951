import TestScout.Attribute.Effective
import Mathlib.Data.List.Basic
set_option autoImplicit false

namespace TestScout

namespace Applied

variable {seen : List SymbolId} {list : List Applied} {type : SymbolId}

theorem firstOfEachType_sublist (seen : List SymbolId) (list : List Applied) :
    (firstOfEachType seen list).Sublist list := by
  induction list generalizing seen with
  | nil => exact .slnil
  | cons a rest ih =>
    unfold firstOfEachType
    split
    · exact (ih _).cons a
    · split
      · exact (ih _).cons a
      · exact (ih _).cons_cons a

theorem exists_firstOfEachType_iff :
    (∃ a ∈ firstOfEachType seen list, a.data.type = some type) ↔
      type ∉ seen ∧ ∃ a ∈ list, a.data.type = some type := by
  induction list generalizing seen with
  | nil => simp [firstOfEachType]
  | cons a rest ih =>
    unfold firstOfEachType
    cases bound : a.data.type with
    | none => simp [bound,ih]
    | some other =>
      dsimp only
      rw [List.exists_mem_cons_iff,bound,Option.some.injEq]
      split
      · next known =>
        have differs : type ∉ seen → other ≠ type := fun unseen same => unseen (same ▸ known)
        rw [ih]
        exact and_congr_right fun unseen => by simp [differs unseen]
      · next unknown =>
        rw [List.exists_mem_cons_iff,bound,Option.some.injEq,ih,List.mem_cons,not_or]
        by_cases same : other = type
        · subst same
          simp [unknown]
        · simp [same,Ne.symm same]

end Applied

namespace Graph

variable {g : Graph} {id owner : SymbolId} {a : Applied} {usageType : Option SymbolId}

theorem mem_applied_iff :
    a ∈ g.applied owner ↔ a.owner = owner ∧ g.attribute? owner a.index = some a.data := by
  unfold applied attribute?
  rw [List.mem_mapIdx]
  constructor
  · rintro ⟨i,inside,rfl⟩
    exact ⟨rfl,List.getElem?_eq_getElem inside⟩
  · rintro ⟨rfl,written⟩
    obtain ⟨inside,same⟩ := List.getElem?_eq_some_iff.1 written
    exact ⟨a.index,inside,by rw [same]⟩

theorem attribute?_of_mem_items (member : a ∈ (g.effectiveUnder usageType id).items) :
    g.attribute? a.owner a.index = some a.data := by
  have place : ∃ owner, a ∈ g.applied owner := by
    rcases List.mem_append.1 member with own | inherited
    · exact ⟨id,own⟩
    · have flowing := (Applied.firstOfEachType_sublist _ _).mem inherited
      obtain ⟨level,-,written⟩ := List.mem_flatMap.1 (List.mem_filter.1 flowing).1
      exact ⟨level,written⟩
  obtain ⟨owner,written⟩ := place
  obtain ⟨rfl,written⟩ := mem_applied_iff.1 written
  exact written

theorem exists_applied_iff {p : Attribute → Prop} :
    (∃ a ∈ g.applied owner, p a.data) ↔ ∃ a ∈ g.attributes owner, p a := by
  constructor
  · rintro ⟨a,member,holds⟩
    exact ⟨a.data,List.mem_of_getElem? (mem_applied_iff.1 member).2,holds⟩
  · rintro ⟨a,member,holds⟩
    obtain ⟨index,written⟩ := List.mem_iff_getElem?.1 member
    exact ⟨⟨owner,index,a⟩,mem_applied_iff.2 ⟨rfl,written⟩,holds⟩

/-- The classes of the effective attributes: those applied on the symbol, and the inheritable ones
applied on a symbol from which attributes may flow to it. -/
theorem exists_items_iff (g : Graph) (usageType : Option SymbolId) (id type : SymbolId) :
    (∃ a ∈ (g.effectiveUnder usageType id).items, a.data.type = some type) ↔
      (∃ a ∈ g.attributes id, a.type = some type) ∨
        g.isInheritable usageType type ∧
          ∃ donor ∈ g.donors id, ∃ a ∈ g.attributes donor, a.type = some type := by
  have own : (∃ a ∈ g.applied id, a.data.type = some type) ↔
      ∃ a ∈ g.attributes id, a.type = some type :=
    exists_applied_iff (p := fun a => a.type = some type)
  have seen : type ∈ (g.attributes id).filterMap Attribute.type ↔
      ∃ a ∈ g.attributes id, a.type = some type := List.mem_filterMap
  have flowing : (∃ a ∈ ((g.donors id).flatMap g.applied).filter fun a =>
        a.data.type.any (g.isInheritable usageType), a.data.type = some type) ↔
      g.isInheritable usageType type ∧
        ∃ donor ∈ g.donors id, ∃ a ∈ g.attributes donor, a.type = some type := by
    constructor
    · rintro ⟨a,member,bound⟩
      obtain ⟨written,inheritable⟩ := List.mem_filter.1 member
      obtain ⟨donor,gives,written⟩ := List.mem_flatMap.1 written
      rw [bound] at inheritable
      exact ⟨inheritable,donor,gives,
        (exists_applied_iff (p := fun a => a.type = some type)).1 ⟨a,written,bound⟩⟩
    · rintro ⟨inheritable,donor,gives,applied⟩
      obtain ⟨a,written,bound⟩ :=
        (exists_applied_iff (p := fun a => a.type = some type)).2 applied
      refine ⟨a,List.mem_filter.2 ⟨List.mem_flatMap.2 ⟨donor,gives,written⟩,?_⟩,bound⟩
      rw [bound]
      exact inheritable
  unfold EffectiveAttributes.items effectiveUnder
  simp only [List.mem_append,or_and_right,exists_or,own,Applied.exists_firstOfEachType_iff,seen,
    flowing]
  -- A class that is applied on the symbol itself arrives anyhow.
  by_cases applied : ∃ a ∈ g.attributes id, a.type = some type
  · simp [applied]
  · simp [applied]

end Graph

/-- The attributes of a symbol as they are handed out: the list that is written on it, or a new list of
its own and of inherited ones. -/
inductive AttributeSet where
  | direct (owner : SymbolId) (attributes : List Attribute)
  | withInherited (applied : List Applied)
  deriving Repr

namespace AttributeSet

def items : AttributeSet → List Applied
  | direct owner attributes => attributes.mapIdx fun index a => ⟨owner,index,a⟩
  | withInherited applied => applied

def size : AttributeSet → Nat
  | direct _ attributes => attributes.length
  | withInherited applied => applied.length

def isEmpty (s : AttributeSet) : Bool :=
  s.size == 0

def hasInherited : AttributeSet → Bool
  | direct .. => false
  | withInherited _ => true

end AttributeSet

/-- What is at hand while the levels above a symbol are read. Neither list is made before there is
something to look up in it or to add to it. -/
structure Gathering where
  classes : Option (List SymbolId) := none
  collected : Option (List Applied) := none

namespace Graph

def take (g : Graph) (usageType : Option SymbolId) (id : SymbolId) (c : Gathering) (a : Applied) :
    Gathering :=
  match a.data.type with
  | none => c
  | some type =>
    if g.isInheritable usageType type then
      let classes := c.classes.getD ((g.attributes id).filterMap Attribute.type)
      if type ∈ classes then { c with classes := some classes }
      else ⟨some (type :: classes),some (c.collected.getD (g.applied id) ++ [a])⟩
    else c

def gather (g : Graph) (usageType : Option SymbolId) (id : SymbolId) : AttributeSet :=
  let c := (g.donors id).foldl (fun c level => (g.applied level).foldl (g.take usageType id) c) {}
  match c.collected with
  | none => .direct id (g.attributes id)
  | some applied => .withInherited applied

theorem collected_foldl_take (g : Graph) (usageType : Option SymbolId) (id : SymbolId) (c : Gathering)
    (list : List Applied) :
    (list.foldl (g.take usageType id) c).collected =
      match Applied.firstOfEachType (c.classes.getD ((g.attributes id).filterMap Attribute.type))
        (list.filter fun a => a.data.type.any (g.isInheritable usageType)) with
      | [] => c.collected
      | new => some (c.collected.getD (g.applied id) ++ new) := by
  -- The known classes grow along the list, so the induction is over every state.
  induction list generalizing c with
  | nil => rfl
  | cons a rest ih =>
    rw [List.foldl_cons,ih]
    cases bound : a.data.type with
    | none => simp [take,bound]
    | some type =>
      by_cases flows : g.isInheritable usageType type
      · rw [List.filter_cons_of_pos (by simp [bound,flows]),Applied.firstOfEachType,bound]
        by_cases known : type ∈ c.classes.getD ((g.attributes id).filterMap Attribute.type)
        · simp [take,bound,flows,known]
        · simp only [take,bound,flows,known,if_true,if_false,Option.getD_some]
          split
          · next none_ => rw [none_]
          · simp
      · simp [take,bound,flows]

/-- Reading level by level gives the effective attributes, and says rightly how many they are and whether
any were inherited. -/
theorem gather_eq (g : Graph) (usageType : Option SymbolId) (id : SymbolId) :
    (g.gather usageType id).items = (g.effectiveUnder usageType id).items ∧
    (g.gather usageType id).size = (g.effectiveUnder usageType id).size ∧
    (g.gather usageType id).isEmpty = (g.effectiveUnder usageType id).isEmpty ∧
    (g.gather usageType id).hasInherited = (g.effectiveUnder usageType id).hasInherited := by
  have own : (g.applied id).length = (g.attributes id).length := List.length_mapIdx
  have collected := collected_foldl_take g usageType id {} ((g.donors id).flatMap g.applied)
  rw [List.foldl_flatMap] at collected
  unfold gather effectiveUnder
  dsimp only
  rw [collected]
  cases inherited : Applied.firstOfEachType ((g.attributes id).filterMap Attribute.type)
    (((g.donors id).flatMap g.applied).filter fun a => a.data.type.any (g.isInheritable usageType)) with
  | nil =>
    -- Nothing was collected, and the list that is handed out is the one written on the symbol.
    have written : AttributeSet.items (.direct id (g.attributes id)) = g.applied id := rfl
    simp [written,AttributeSet.size,AttributeSet.isEmpty,AttributeSet.hasInherited,
      EffectiveAttributes.items,EffectiveAttributes.size,EffectiveAttributes.isEmpty,
      EffectiveAttributes.hasInherited,own,inherited]
  | cons a rest =>
    simp [AttributeSet.items,AttributeSet.size,AttributeSet.isEmpty,AttributeSet.hasInherited,
      EffectiveAttributes.items,EffectiveAttributes.size,EffectiveAttributes.isEmpty,
      EffectiveAttributes.hasInherited,own,inherited]

end Graph

end TestScout
