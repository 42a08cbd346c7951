import TestScout.Project.Scope
import TestScout.Proofs.Positions
import Mathlib.Data.List.Induction
import Mathlib.Data.List.Nodup
set_option autoImplicit false

/-!
What a project holds after any edits of its documents. The last edit of an id decides what is held
under it, and the ids stand in the order in which they came in to stay. Nothing else of the past
matters, and the trees in scope are those of the parsed documents in that order.
-/

namespace TestScout

namespace Project

theorem document?_of_mem {p : Project} {d : Document} (once : p.ids.Nodup)
    (member : d ∈ p.documents) : p.document? d.id = some d := by
  obtain ⟨e,found⟩ := Option.isSome_iff_exists.1 (mem_ids_iff.1 (List.mem_map_of_mem member))
  have same : e.id = d.id := by simpa using List.find?_some found
  rw [found,List.inj_on_of_nodup_map once (List.mem_of_find?_eq_some found) member same]

theorem documents_eq_filterMap {p : Project} (once : p.ids.Nodup) :
    p.documents = p.ids.filterMap p.document? := by
  have each : p.documents.filterMap (fun d => p.document? d.id) = p.documents.filterMap some :=
    List.filterMap_congr fun d member => document?_of_mem once member
  rw [ids,List.filterMap_map]
  exact (List.filterMap_some.symm.trans each.symm)

inductive Edit where
  | addDocument (tree : SyntaxTree)
  | addUnparsed (id : DocumentId) (path : String)
  | removeDocument (id : DocumentId)
  deriving DecidableEq, Repr

namespace Edit

variable {e : Edit} {edits : List Edit} {d : Document} {id : DocumentId} {j k : Nat}

def about : Edit → DocumentId
  | addDocument tree => tree.document
  | addUnparsed id _ => id
  | removeDocument id => id

def document? : Edit → Option Document
  | addDocument tree => some (.ofTree tree)
  | addUnparsed id path => some { id, path, tree := none }
  | removeDocument _ => none

theorem id_of_document? (brings : e.document? = some d) : d.id = e.about := by
  cases e with
  | addDocument tree => obtain rfl := Option.some.inj brings; rfl
  | addUnparsed id path => obtain rfl := Option.some.inj brings; rfl
  | removeDocument id => cases brings

theorem eq_removeDocument (brings : e.document? = none) : e = .removeDocument e.about := by
  cases e with
  | addDocument tree => cases brings
  | addUnparsed id path => cases brings
  | removeDocument id => rfl

/-- What the last edit of an id brought in. -/
def latest? (edits : List Edit) (id : DocumentId) : Option Document :=
  (edits.filter fun e => e.about = id).getLast?.bind document?

@[simp] theorem latest?_concat (edits : List Edit) (e : Edit) (id : DocumentId) :
    latest? (edits ++ [e]) id = if e.about = id then e.document? else latest? edits id := by
  unfold latest?
  rw [List.filter_append]
  by_cases same : e.about = id <;> simp [same]

def AddsAt (edits : List Edit) (k : Nat) (id : DocumentId) : Prop :=
  ∃ e d, edits[k]? = some e ∧ e.document? = some d ∧ d.id = id

def RemovesAt (edits : List Edit) (k : Nat) (id : DocumentId) : Prop :=
  edits[k]? = some (.removeDocument id)

/-- The edit at a position is the first to bring in a document of the id since the id was last
removed. -/
structure EntersAt (edits : List Edit) (k : Nat) (id : DocumentId) : Prop where
  adds : AddsAt edits k id
  stays : ∀ j, k < j → ¬RemovesAt edits j id
  first : ∀ j, j < k → AddsAt edits j id → ∃ r, j < r ∧ r < k ∧ RemovesAt edits r id

theorem AddsAt.lt (adds : AddsAt edits k id) : k < edits.length := by
  obtain ⟨e,-,here,-⟩ := adds
  exact (List.getElem?_eq_some_iff.1 here).1

theorem RemovesAt.lt (removes : RemovesAt edits k id) : k < edits.length :=
  (List.getElem?_eq_some_iff.1 removes).1

theorem AddsAt.about_eq (adds : AddsAt edits k id) : (edits.map about)[k]? = some id := by
  obtain ⟨e,d,here,brings,rfl⟩ := adds
  rw [List.getElem?_map,here,id_of_document? brings]
  rfl

theorem addsAt_concat : AddsAt (edits ++ [e]) k id ↔
    AddsAt edits k id ∨ k = edits.length ∧ ∃ d, e.document? = some d ∧ d.id = id := by
  simp only [AddsAt,getElem?_concat_eq_some_iff]
  constructor
  · rintro ⟨f,d,here | ⟨last,rfl⟩,brings⟩
    · exact .inl ⟨f,d,here,brings⟩
    · exact .inr ⟨last,d,brings⟩
  · rintro (⟨f,d,here,brings⟩ | ⟨last,d,brings⟩)
    · exact ⟨f,d,.inl here,brings⟩
    · exact ⟨e,d,.inr ⟨last,rfl⟩,brings⟩

theorem removesAt_concat : RemovesAt (edits ++ [e]) k id ↔
    RemovesAt edits k id ∨ k = edits.length ∧ e = .removeDocument id :=
  getElem?_concat_eq_some_iff

theorem latest?_eq_none_iff : latest? edits id = none ↔
    ∀ j, AddsAt edits j id → ∃ r, j < r ∧ RemovesAt edits r id := by
  -- Edits are made at the end of the history, so it is taken apart from there.
  induction edits using List.reverseRecOn with
  | nil =>
    refine iff_of_true rfl fun j adds => ?_
    exact absurd adds.lt (Nat.not_lt_zero j)
  | append_singleton edits e ih =>
    rw [latest?_concat]
    split
    · next same =>
      cases brings : e.document? with
      | some d =>
        refine iff_of_false (Option.some_ne_none d) fun all => ?_
        have adds : AddsAt (edits ++ [e]) edits.length id :=
          addsAt_concat.2 (.inr ⟨rfl,d,brings,(id_of_document? brings).trans same⟩)
        obtain ⟨r,later,removes⟩ := all _ adds
        have inside := removes.lt
        rw [List.length_append,List.length_singleton] at inside
        omega
      | none =>
        refine iff_of_true rfl fun j adds => ?_
        have removes : e = .removeDocument id := same ▸ eq_removeDocument brings
        refine ⟨edits.length,?_,removesAt_concat.2 (.inr ⟨rfl,removes⟩)⟩
        rcases addsAt_concat.1 adds with adds | ⟨-,d,brings',-⟩
        · exact adds.lt
        · rw [brings] at brings'
          cases brings'
    · next differs =>
      have adds (j : Nat) : AddsAt (edits ++ [e]) j id ↔ AddsAt edits j id := by
        refine addsAt_concat.trans (or_iff_left ?_)
        rintro ⟨-,d,brings,same⟩
        exact differs ((id_of_document? brings).symm.trans same)
      have removes (r : Nat) : RemovesAt (edits ++ [e]) r id ↔ RemovesAt edits r id := by
        refine removesAt_concat.trans (or_iff_left ?_)
        rintro ⟨-,rfl⟩
        exact differs rfl
      simp only [ih,adds,removes]

theorem entersAt_concat : EntersAt (edits ++ [e]) k id ↔
    EntersAt edits k id ∧ e ≠ .removeDocument id ∨
    k = edits.length ∧ (∃ d, e.document? = some d ∧ d.id = id) ∧ latest? edits id = none := by
  have earlier {r : Nat} (before : r < edits.length) :
      RemovesAt (edits ++ [e]) r id ↔ RemovesAt edits r id :=
    removesAt_concat.trans (or_iff_left fun h => Nat.ne_of_lt before h.1)
  constructor
  · intro h
    rcases addsAt_concat.1 h.adds with adds | ⟨rfl,brings⟩
    · have inside := adds.lt
      refine .inl ⟨⟨adds,?_,?_⟩,?_⟩
      · exact fun j later removes => h.stays j later (removesAt_concat.2 (.inl removes))
      · intro j before adds'
        obtain ⟨r,after,before',removes⟩ := h.first j before (addsAt_concat.2 (.inl adds'))
        exact ⟨r,after,before',(earlier (by omega)).1 removes⟩
      · exact fun removes => h.stays edits.length inside (removesAt_concat.2 (.inr ⟨rfl,removes⟩))
    · refine .inr ⟨rfl,brings,latest?_eq_none_iff.2 fun j adds => ?_⟩
      obtain ⟨r,after,before,removes⟩ := h.first j adds.lt (addsAt_concat.2 (.inl adds))
      exact ⟨r,after,(earlier before).1 removes⟩
  · rintro (⟨h,stays⟩ | ⟨rfl,brings,none⟩)
    · have inside := h.adds.lt
      refine ⟨addsAt_concat.2 (.inl h.adds),?_,?_⟩
      · intro j later removes
        rcases removesAt_concat.1 removes with removes | ⟨-,removes⟩
        · exact h.stays j later removes
        · exact stays removes
      · intro j before adds
        rcases addsAt_concat.1 adds with adds | ⟨last,-⟩
        · obtain ⟨r,after,before',removes⟩ := h.first j before adds
          exact ⟨r,after,before',removesAt_concat.2 (.inl removes)⟩
        · omega
    · refine ⟨addsAt_concat.2 (.inr ⟨rfl,brings⟩),?_,?_⟩
      · intro j later removes
        have inside := removes.lt
        rw [List.length_append,List.length_singleton] at inside
        omega
      · intro j before adds
        rcases addsAt_concat.1 adds with adds | ⟨last,-⟩
        · obtain ⟨r,after,removes⟩ := latest?_eq_none_iff.1 none j adds
          exact ⟨r,after,removes.lt,removesAt_concat.2 (.inl removes)⟩
        · omega

open Classical in
/-- The ids that came in to stay, in the order in which they did. -/
noncomputable def entered (edits : List Edit) : List DocumentId :=
  entriesAt (fun k => ∃ id, EntersAt edits k id) (edits.map about)

theorem entered_concat_of_document? (brings : e.document? = some d) :
    entered (edits ++ [e]) =
      if latest? edits d.id = none then entered edits ++ [d.id] else entered edits := by
  classical
  have stays (id : DocumentId) : e ≠ .removeDocument id := by
    rintro rfl
    cases brings
  have before : ∀ k, k < (edits.map about).length →
      ((∃ id, EntersAt (edits ++ [e]) k id) ↔ ∃ id, EntersAt edits k id) := by
    intro k inside
    rw [List.length_map] at inside
    simp [entersAt_concat,stays,Nat.ne_of_lt inside]
  have last : (∃ id, EntersAt (edits ++ [e]) (edits.map about).length id) ↔
      latest? edits d.id = none := by
    rw [List.length_map]
    constructor
    · rintro ⟨id,enters⟩
      rcases entersAt_concat.1 enters with ⟨enters,-⟩ | ⟨-,⟨c,brings',rfl⟩,none⟩
      · exact absurd enters.adds.lt (Nat.lt_irrefl _)
      · rw [brings] at brings'
        rwa [Option.some.inj brings']
    · exact fun none => ⟨d.id,entersAt_concat.2 (.inr ⟨rfl,⟨d,brings,rfl⟩,none⟩)⟩
  unfold entered
  rw [List.map_append,List.map_singleton,entriesAt_concat,entriesAt_congr before,if_congr last rfl rfl,
    id_of_document? brings]
  split <;> simp

theorem entered_concat_removeDocument (edits : List Edit) (id : DocumentId) :
    entered (edits ++ [.removeDocument id]) = (entered edits).filter (· != id) := by
  classical
  have last : ¬∃ other, EntersAt (edits ++ [.removeDocument id]) (edits.map about).length other := by
    rintro ⟨other,enters⟩
    rw [List.length_map] at enters
    rcases entersAt_concat.1 enters with ⟨enters,-⟩ | ⟨-,⟨d,brings,-⟩,-⟩
    · exact absurd enters.adds.lt (Nat.lt_irrefl _)
    · cases brings
  unfold entered
  rw [List.map_append,List.map_singleton,entriesAt_concat,if_neg last,List.append_nil]
  refine (filter_entriesAt fun k other here => ?_).symm
  have same {a : DocumentId} (enters : EntersAt edits k a) : a = other :=
    Option.some.inj (enters.adds.about_eq.symm.trans here)
  constructor
  · rintro ⟨a,enters⟩
    rcases entersAt_concat.1 enters with ⟨before,stays⟩ | ⟨-,⟨d,brings,-⟩,-⟩
    · refine ⟨⟨a,before⟩,bne_iff_ne.2 ?_⟩
      rintro rfl
      exact stays (congrArg removeDocument (same before).symm)
    · cases brings
  · rintro ⟨⟨a,enters⟩,differs⟩
    obtain rfl := same enters
    refine ⟨a,entersAt_concat.2 (.inl ⟨enters,fun removes => ?_⟩)⟩
    cases removes
    exact bne_iff_ne.1 differs rfl

end Edit

open Edit

variable {p : Project} {e : Edit} {edits : List Edit} {d : Document}

def perform (p : Project) : Edit → Option Document × Project
  | .addDocument tree => (some (.ofTree tree),p.add (.ofTree tree))
  | .addUnparsed id path => (some { id, path, tree := none },p.add { id, path, tree := none })
  | .removeDocument id => p.extract id

def after (p : Project) (edits : List Edit) : Project :=
  edits.foldl (fun p e => (p.perform e).2) p

@[simp] theorem after_concat (p : Project) (edits : List Edit) (e : Edit) :
    p.after (edits ++ [e]) = ((p.after edits).perform e).2 := by
  simp [after]

theorem perform_of_document? (brings : e.document? = some d) : p.perform e = (some d,p.add d) := by
  cases e with
  | addDocument tree => obtain rfl := Option.some.inj brings; rfl
  | addUnparsed id path => obtain rfl := Option.some.inj brings; rfl
  | removeDocument id => cases brings

theorem perform_cases (once : p.ids.Nodup) (e : Edit) :
    (∃ d, e.document? = some d ∧ d.id = e.about ∧ (p.perform e).2 = p.add d) ∨
    (e = .removeDocument e.about ∧ (p.perform e).2 = p.remove e.about) := by
  cases brings : e.document? with
  | some d => exact .inl ⟨d,rfl,id_of_document? brings,by rw [perform_of_document? brings]⟩
  | none =>
    have removes := eq_removeDocument brings
    refine .inr ⟨removes,?_⟩
    rw [removes]
    exact congrArg Prod.snd (extract_eq once _)

theorem nodup_ids_perform (once : p.ids.Nodup) (e : Edit) : (p.perform e).2.ids.Nodup := by
  rcases perform_cases once e with ⟨d,-,-,step⟩ | ⟨-,step⟩
  · rw [step]
    exact nodup_ids_add once d
  · rw [step,ids_remove]
    exact once.filter _

theorem nodup_ids_after (once : p.ids.Nodup) (edits : List Edit) : (p.after edits).ids.Nodup := by
  induction edits using List.reverseRecOn with
  | nil => exact once
  | append_singleton edits e ih =>
    rw [after_concat]
    exact nodup_ids_perform ih e

theorem document?_perform (once : p.ids.Nodup) (e : Edit) (id : DocumentId) :
    (p.perform e).2.document? id = if e.about = id then e.document? else p.document? id := by
  rcases perform_cases once e with ⟨d,brings,same,step⟩ | ⟨removes,step⟩
  · rw [step,document?_add,same,brings]
  · have nothing : e.document? = none := by rw [removes]; rfl
    rw [step,document?_remove,nothing]

theorem document?_after (empty : p.documents = []) (edits : List Edit) (id : DocumentId) :
    (p.after edits).document? id = latest? edits id := by
  induction edits using List.reverseRecOn with
  | nil => simp [after,document?,empty,latest?]
  | append_singleton edits e ih =>
    have once : p.ids.Nodup := by simp [ids,empty]
    rw [after_concat,document?_perform (nodup_ids_after once edits),ih,latest?_concat]

theorem ids_after (empty : p.documents = []) (edits : List Edit) :
    (p.after edits).ids = entered edits := by
  have once : p.ids.Nodup := by simp [ids,empty]
  induction edits using List.reverseRecOn with
  | nil => simp [after,ids,empty,entered,entriesAt]
  | append_singleton edits e ih =>
    rw [after_concat]
    rcases perform_cases (nodup_ids_after once edits) e with ⟨d,brings,-,step⟩ | ⟨removes,step⟩
    · have held : d.id ∈ (p.after edits).ids ↔ latest? edits d.id ≠ none := by
        rw [mem_ids_iff,document?_after empty,Option.isSome_iff_ne_none]
      rw [step,entered_concat_of_document? brings,← ih]
      split
      · next none => exact ids_add_of_not_mem fun member => held.1 member none
      · next some => exact ids_add_of_mem (nodup_ids_after once edits) (held.2 some)
    · rw [step,ids_remove,ih,removes,entered_concat_removeDocument]
      rfl

/-- After any edits a project that began without documents lists each id once that came in to stay, in the
order in which they did, and these are the ids whose last edit brought something in. A lookup finds what
that edit brought in, and the trees in scope are those of the parsed documents in that order. From there
a document replaces the one of its id in place, and one that is removed is what a lookup would have found;
the others stay in their order. -/
theorem documents_exact (id : ProjectId) (name : String) (compilation : Option Compilation)
    (edits : List Edit) :
    let p := ({ id, name, compilation } : Project).after edits
    p.documents.map Document.id = entered edits ∧ (entered edits).Nodup ∧
    (∀ id, id ∈ entered edits ↔ (latest? edits id).isSome) ∧
    (∀ id, p.document? id = latest? edits id) ∧
    p.documents = (entered edits).filterMap (latest? edits) ∧
    (Scope.project p).trees false =
      (entered edits).filterMap (fun id => (latest? edits id).bind Document.tree) ∧
    (∀ e d, e.document? = some d → d.id ∈ entered edits →
      (p.perform e).2.documents = p.documents.map fun c => if c.id = d.id then d else c) ∧
    ∀ id, (p.perform (.removeDocument id)).1 = p.document? id ∧
      (p.perform (.removeDocument id)).2.documents = p.documents.filter fun c => c.id ≠ id := by
  intro p
  have listed : p.ids = entered edits := ids_after rfl edits
  have found : ∀ id, p.document? id = latest? edits id := document?_after rfl edits
  have start : ({ id, name, compilation } : Project).ids.Nodup := List.nodup_nil
  have once : p.ids.Nodup := nodup_ids_after start edits
  have documents : p.documents = (entered edits).filterMap (latest? edits) := by
    rw [documents_eq_filterMap once,listed]
    exact List.filterMap_congr fun id _ => found id
  refine ⟨listed,listed ▸ once,?_,found,documents,?_,?_,?_⟩
  · intro id
    rw [← listed,mem_ids_iff,found]
  · have trees : (Scope.project p).trees false = p.documents.filterMap Document.tree := rfl
    rw [trees,documents,List.filterMap_filterMap]
  · intro e d brings known
    rw [← listed] at known
    rw [perform_of_document? brings]
    exact insertInto_of_mem once known
  · intro id
    have taken : p.perform (.removeDocument id) = (p.document? id,p.remove id) := extract_eq once id
    rw [taken]
    refine ⟨rfl,List.filter_congr fun c _ => ?_⟩
    by_cases same : c.id = id <;> simp [same]

/-! Three documents, of which one is parsed later, one loses its tree and one leaves and comes back. -/

def treeOf (document : Nat) (path : String) : SyntaxTree :=
  { document := ⟨document⟩, path }

def threeEdits : List Edit :=
  [.addDocument (treeOf 2 "B"),.addUnparsed ⟨3⟩ "C",.addUnparsed ⟨1⟩ "A",.addDocument (treeOf 1 "A"),
   .addUnparsed ⟨2⟩ "B",.removeDocument ⟨3⟩,.addDocument (treeOf 3 "C")]

theorem documents_exact_threeEdits :
    let p := ({ id := ⟨0⟩, name := "Tests" } : Project).after threeEdits
    entered threeEdits = [⟨2⟩,⟨1⟩,⟨3⟩] ∧ (⟨1⟩ : DocumentId) ∈ entered threeEdits ∧
    (Edit.addUnparsed ⟨1⟩ "D").document? = some { id := ⟨1⟩, path := "D", tree := none } ∧
    p.document? ⟨1⟩ = some (.ofTree (treeOf 1 "A")) ∧
    (Scope.project p).trees false = [treeOf 1 "A",treeOf 3 "C"] ∧
    (p.perform (.addUnparsed ⟨1⟩ "D")).2.documents.map Document.path = ["B","D","C"] ∧
    (p.perform (.removeDocument ⟨1⟩)).1 = some (.ofTree (treeOf 1 "A")) ∧
    (p.perform (.removeDocument ⟨1⟩)).2.documents.map Document.id = [⟨2⟩,⟨3⟩] := by
  intro p
  obtain ⟨listed,-,isLive,found,-,trees,replaces,removes⟩ := documents_exact ⟨0⟩ "Tests" none threeEdits
  have order : entered threeEdits = [⟨2⟩,⟨1⟩,⟨3⟩] := listed.symm
  have known : (⟨1⟩ : DocumentId) ∈ entered threeEdits := (isLive ⟨1⟩).2 rfl
  obtain ⟨answer,others⟩ := removes ⟨1⟩
  refine ⟨order,known,rfl,(found ⟨1⟩).trans rfl,?_,?_,answer.trans rfl,?_⟩
  · rw [trees,order]
    rfl
  · rw [replaces (.addUnparsed ⟨1⟩ "D") { id := ⟨1⟩, path := "D", tree := none } rfl known]
    rfl
  · rw [others]
    rfl

end Project

end TestScout
