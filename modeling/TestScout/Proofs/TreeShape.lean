import TestScout.SyntaxTree
import Mathlib.Data.List.Nodup
import Mathlib.Data.List.Perm.Basic
set_option autoImplicit false

namespace TestScout

namespace Forest

/-- All nodes in the order of `ids`, each behind its parent. The topmost ones have `parent`. -/
def links (parent : NodeId) : Forest → List (NodeId × NodeId)
  | nil => []
  | cons id _ children rest => (parent,id) :: (children.links id ++ rest.links parent)

@[simp] theorem map_snd_links (parent : NodeId) (f : Forest) : (f.links parent).map Prod.snd = f.ids := by
  induction f generalizing parent with
  | nil => rfl
  | cons i k children rest hc hr => simp [links,ids,hc,hr]

@[simp] theorem links_snoc (parent id : NodeId) (kind : NodeKind) (f : Forest) :
    (f.snoc id kind).links parent = f.links parent ++ [(parent,id)] := by
  induction f with
  | nil => rfl
  | cons i k children rest _ ih => simp [snoc,links,ih]

theorem graft_of_not_mem {parent : NodeId} (id : NodeId) (kind : NodeKind) {f : Forest}
    (h : parent ∉ f.ids) : f.graft parent id kind = f := by
  induction f with
  | nil => rfl
  | cons i k children rest hc hr =>
    simp only [ids,List.mem_cons,List.mem_append,not_or] at h
    obtain ⟨differs,above,beside⟩ := h
    simp [graft,Ne.symm differs,hc above,hr beside]

theorem links_graft {parent : NodeId} (id : NodeId) (kind : NodeKind) {f : Forest} (top : NodeId)
    (nodup : f.ids.Nodup) (h : parent ∈ f.ids) :
    ((f.graft parent id kind).links top).Perm ((parent,id) :: f.links top) := by
  induction f generalizing top with
  | nil => simp [ids] at h
  | cons i k children rest hc hr =>
    simp only [ids,List.nodup_cons,List.nodup_append] at nodup
    obtain ⟨fresh,nodupc,nodupr,apart⟩ := nodup
    by_cases same : i = parent
    · subst same
      simp only [graft,if_true,links,links_snoc]
      grind
    · have below : parent ∈ children.ids ∨ parent ∈ rest.ids := by
        simpa [ids,Ne.symm same] using h
      simp only [graft,if_neg same,links]
      rcases below with below | below
      · have absent : parent ∉ rest.ids := fun other => apart _ below _ other rfl
        rw [graft_of_not_mem id kind absent]
        have grown := ((hc i nodupc below).append_right (rest.links top)).cons (top,i)
        exact grown.trans (List.Perm.swap _ _ _)
      · have absent : parent ∉ children.ids := fun other => apart _ other _ below rfl
        rw [graft_of_not_mem id kind absent]
        have grown := ((hr top nodupr below).append_left (children.links i)).cons (top,i)
        exact grown.trans ((List.perm_middle.cons _).trans (List.Perm.swap _ _ _))

theorem mem_ids_of_link {top p n : NodeId} {f : Forest} (h : (p,n) ∈ f.links top) :
    p = top ∨ p ∈ f.ids := by
  induction f generalizing top with
  | nil => simp [links] at h
  | cons i k children rest hc hr =>
    simp only [links,List.mem_cons,List.mem_append,Prod.mk.injEq] at h
    simp only [ids,List.mem_cons,List.mem_append]
    rcases h with ⟨rfl,-⟩ | h | h
    · exact .inl rfl
    · have := hc h
      tauto
    · have := hr h
      tauto

theorem mem_ids_of_find? {p : NodeId} {f : Forest} (h : (f.find? p).isSome) : p ∈ f.ids := by
  induction f with
  | nil => simp [find?] at h
  | cons i k children rest hc hr =>
    simp only [ids,List.mem_cons,List.mem_append]
    by_cases same : i = p
    · exact .inl same.symm
    · simp only [find?,if_neg same,Option.isSome_or,Bool.or_eq_true] at h
      rcases h with h | h
      · exact .inr (.inl (hc h))
      · exact .inr (.inr (hr h))

theorem link_top_iff {top : NodeId} (n : NodeId) {f : Forest} (h : top ∉ f.ids) :
    (top,n) ∈ f.links top ↔ n ∈ f.heads := by
  induction f with
  | nil => simp [links,heads]
  | cons i k children rest _ hr =>
    simp only [ids,List.mem_cons,List.mem_append,not_or] at h
    obtain ⟨differs,above,beside⟩ := h
    have none : (top,n) ∉ children.links i := by
      intro link
      rcases mem_ids_of_link link with same | member
      · exact differs same
      · exact above member
    simp only [links,heads,List.mem_cons,List.mem_append,Prod.mk.injEq,none,false_or,hr beside,
      true_and]

theorem link_iff {top p : NodeId} (n : NodeId) {f : Forest} (nodup : f.ids.Nodup) (h : p ≠ top) :
    (p,n) ∈ f.links top ↔ ∃ found, f.find? p = some found ∧ n ∈ found.2.heads := by
  induction f generalizing top with
  | nil => simp [links,find?]
  | cons i k children rest hc hr =>
    simp only [ids,List.nodup_cons,List.nodup_append,List.mem_append,not_or] at nodup
    obtain ⟨⟨above,beside⟩,nodupc,nodupr,apart⟩ := nodup
    simp only [links,List.mem_cons,List.mem_append,Prod.mk.injEq,h,false_and,false_or]
    by_cases same : i = p
    · subst same
      have none : (i,n) ∉ rest.links top := by
        intro link
        rcases mem_ids_of_link link with same | member
        · exact h same
        · exact beside member
      simp [find?,link_top_iff n above,none]
    · rw [hc nodupc (Ne.symm same),hr nodupr h]
      simp only [find?,if_neg same]
      cases inner : children.find? p with
      | none => simp
      | some found =>
        have member := mem_ids_of_find? (f := children) (p := p) (by rw [inner]; rfl)
        have absent : rest.find? p = none := by
          rw [← Option.not_isSome_iff_eq_none]
          intro other
          exact apart _ member _ (mem_ids_of_find? other) rfl
        simp [absent]

end Forest

namespace SyntaxTree

inductive Grown : SyntaxTree → Prop where
  | start (document : DocumentId) (path : String) : Grown { document, path }
  | addNode {t : SyntaxTree} (parent : NodeId) (kind : NodeKind) : Grown t →
      Grown (t.addNode parent kind).2

def links (t : SyntaxTree) : List (NodeId × NodeId) :=
  t.top.links root

/-- The nodes below the root are the numbers up to the size, each once. -/
structure WellFormed (t : SyntaxTree) : Prop where
  nodup : t.top.ids.Nodup
  mem_ids (id : NodeId) : id ∈ t.top.ids ↔ 0 < id.index ∧ id.index < t.size

theorem WellFormed.root_not_mem {t : SyntaxTree} (h : t.WellFormed) : root ∉ t.top.ids := by
  simp [h.mem_ids,root]

theorem addNode_cases (t : SyntaxTree) (h : t.WellFormed) (parent : NodeId) (kind : NodeKind) :
    (t.size ≤ parent.index ∧ t.addNode parent kind = (none,t)) ∨
    (parent.index < t.size ∧ (t.addNode parent kind).1 = some ⟨t.size⟩ ∧
      (t.addNode parent kind).2.size = t.size+1 ∧
      (t.addNode parent kind).2.links.Perm ((parent,⟨t.size⟩) :: t.links)) := by
  by_cases hp : parent.index < t.size
  · refine .inr ⟨hp,by simp [addNode,hp],by simp [addNode,hp],?_⟩
    simp only [addNode,if_pos hp,links]
    by_cases atRoot : parent = root
    · rw [if_pos atRoot,Forest.links_snoc,atRoot]
      exact List.perm_append_singleton _ _
    · rw [if_neg atRoot]
      have positive : 0 < parent.index := by
        cases parent with
        | mk index =>
          have : index ≠ 0 := fun zero => atRoot (by rw [zero]; rfl)
          exact Nat.pos_of_ne_zero this
      exact Forest.links_graft _ kind root h.nodup ((h.mem_ids parent).2 ⟨positive,hp⟩)
  · exact .inl ⟨by omega,by simp [addNode,hp]⟩

theorem WellFormed.addNode {t : SyntaxTree} (h : t.WellFormed) (parent : NodeId) (kind : NodeKind) :
    (t.addNode parent kind).2.WellFormed := by
  rcases addNode_cases t h parent kind with ⟨-,refused⟩ | ⟨hp,-,size,grown⟩
  · rw [refused]
    exact h
  · have perm : (t.addNode parent kind).2.top.ids.Perm (⟨t.size⟩ :: t.top.ids) := by
      have := grown.map Prod.snd
      simpa [links,Forest.map_snd_links] using this
    constructor
    · rw [perm.nodup_iff,List.nodup_cons]
      exact ⟨by simp [h.mem_ids],h.nodup⟩
    · intro id
      rw [perm.mem_iff,List.mem_cons,h.mem_ids,size]
      cases id with
      | mk index =>
        simp only [NodeId.mk.injEq]
        omega

theorem Grown.wellFormed {t : SyntaxTree} (h : t.Grown) : t.WellFormed := by
  induction h with
  | start document path =>
    constructor
    · exact List.nodup_nil
    · intro id
      simp only [Forest.ids,List.not_mem_nil,false_iff]
      omega
  | addNode parent kind _ ih => exact ih.addNode parent kind

theorem WellFormed.mem_children_iff {t : SyntaxTree} (h : t.WellFormed) (p n : NodeId) :
    n ∈ t.children p ↔ (p,n) ∈ t.links := by
  unfold children node? links
  by_cases atRoot : p = root
  · subst atRoot
    simp [Forest.link_top_iff n h.root_not_mem]
  · rw [Forest.link_iff n h.nodup atRoot,if_neg atRoot]
    cases t.top.find? p <;> simp

theorem WellFormed.parent_unique {t : SyntaxTree} (h : t.WellFormed) {p q n : NodeId}
    (hp : n ∈ t.children p) (hq : n ∈ t.children q) : p = q := by
  rw [h.mem_children_iff] at hp hq
  have nodup : (t.links.map Prod.snd).Nodup := by
    rw [links,Forest.map_snd_links]
    exact h.nodup
  have same := List.inj_on_of_nodup_map nodup hp hq rfl
  exact congrArg Prod.fst same

end SyntaxTree

end TestScout
