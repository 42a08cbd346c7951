import TestScout.Graph.Basic
import TestScout.SyntaxTree
set_option autoImplicit false

namespace TestScout

structure Compilation where
  serial : Nat
  graph : Graph
  deriving Repr

structure Document where
  id : DocumentId
  path : String
  tree : Option SyntaxTree
  deriving DecidableEq, Repr

def Document.ofTree (t : SyntaxTree) : Document :=
  { id := t.document, path := t.path, tree := some t }

def Document.tree? (d : Document) (cancelled : Bool) : Option SyntaxTree :=
  if cancelled then none else d.tree

structure Project where
  id : ProjectId
  name : String
  compilation : Option Compilation := none
  documents : List Document := []
  deriving Repr

namespace Project

def compilation? (p : Project) (cancelled : Bool) : Option Compilation :=
  if cancelled then none else p.compilation

def document? (p : Project) (id : DocumentId) : Option Document :=
  p.documents.find? fun d => d.id == id

/-- Puts a document in the place of the one with its id, or behind all others. -/
def insertInto (d : Document) : List Document → List Document
  | [] => [d]
  | e :: rest => if e.id = d.id then d :: rest else e :: insertInto d rest

/-- Takes out the document with an id; those behind it move up. -/
def extractFrom (id : DocumentId) : List Document → Option Document × List Document
  | [] => (none,[])
  | d :: rest =>
    if d.id = id then (some d,rest)
    else
      let (found,others) := extractFrom id rest
      (found,d :: others)

def add (p : Project) (d : Document) : Project :=
  { p with documents := insertInto d p.documents }

def extract (p : Project) (id : DocumentId) : Option Document × Project :=
  let (found,documents) := extractFrom id p.documents
  (found,{ p with documents })

def remove (p : Project) (id : DocumentId) : Project :=
  { p with documents := p.documents.filter fun d => d.id != id }

variable {d : Document} {id : DocumentId} {docs : List Document} {p : Project}

def ids (p : Project) : List DocumentId :=
  p.documents.map Document.id

theorem insertInto_of_mem (once : (docs.map Document.id).Nodup) (known : d.id ∈ docs.map Document.id) :
    insertInto d docs = docs.map fun e => if e.id = d.id then d else e := by
  induction docs with
  | nil => cases known
  | cons e rest ih =>
    rw [List.map_cons,List.nodup_cons] at once
    by_cases here : e.id = d.id
    · have others : rest.map (fun f => if f.id = d.id then d else f) = rest.map fun f => f := by
        refine List.map_congr_left fun f member => if_neg fun same => ?_
        exact once.1 (here.trans same.symm ▸ List.mem_map_of_mem member)
      simp [insertInto,here,others]
    · have later : d.id ∈ rest.map Document.id := (List.mem_cons.1 known).resolve_left (Ne.symm here)
      simp [insertInto,here,ih once.2 later]

theorem insertInto_of_not_mem (new : d.id ∉ docs.map Document.id) : insertInto d docs = docs ++ [d] := by
  induction docs with
  | nil => rfl
  | cons e rest ih =>
    rw [List.map_cons,List.mem_cons,not_or] at new
    simp [insertInto,Ne.symm new.1,ih new.2]

theorem find?_insertInto (d : Document) (docs : List Document) (id : DocumentId) :
    (insertInto d docs).find? (fun e => e.id == id) =
      if d.id = id then some d else docs.find? fun e => e.id == id := by
  induction docs with
  | nil => simp [insertInto,List.find?_singleton]
  | cons e rest ih =>
    unfold insertInto
    split
    · next here => by_cases same : d.id = id <;> simp [here,same]
    · next differs =>
      by_cases same : e.id = id
      · have other : d.id ≠ id := fun also => differs (same.trans also.symm)
        simp [same,other]
      · simp [same,ih]

theorem extractFrom_eq (once : (docs.map Document.id).Nodup) (id : DocumentId) :
    extractFrom id docs = (docs.find? fun d => d.id == id,docs.filter fun d => d.id != id) := by
  induction docs with
  | nil => rfl
  | cons d rest ih =>
    rw [List.map_cons,List.nodup_cons] at once
    by_cases here : d.id = id
    · have others : rest.filter (fun e => e.id != id) = rest := by
        refine List.filter_eq_self.2 fun e member => bne_iff_ne.2 fun same => ?_
        exact once.1 (here.trans same.symm ▸ List.mem_map_of_mem member)
      simp [extractFrom,here,others]
    · simp [extractFrom,here,ih once.2]

theorem extract_eq (once : p.ids.Nodup) (id : DocumentId) :
    p.extract id = (p.document? id,p.remove id) := by
  simp only [extract,extractFrom_eq once,document?,remove]

theorem mem_ids_iff : id ∈ p.ids ↔ (p.document? id).isSome := by
  simp [ids,document?,List.find?_isSome]

@[simp] theorem document?_add (p : Project) (d : Document) (id : DocumentId) :
    (p.add d).document? id = if d.id = id then some d else p.document? id :=
  find?_insertInto d p.documents id

@[simp] theorem document?_remove (p : Project) (gone id : DocumentId) :
    (p.remove gone).document? id = if gone = id then none else p.document? id := by
  simp only [document?,remove,List.find?_filter]
  split
  · next same =>
    subst same
    simp
  · next differs =>
    congr 1
    funext d
    by_cases here : d.id = id <;> simp [here,Ne.symm differs]

theorem ids_add_of_mem (once : p.ids.Nodup) (known : d.id ∈ p.ids) : (p.add d).ids = p.ids := by
  rw [ids,add,insertInto_of_mem once known,List.map_map]
  refine List.map_congr_left fun e _ => ?_
  simp only [Function.comp_apply]
  split
  · next same => exact same.symm
  · rfl

theorem ids_add_of_not_mem (new : d.id ∉ p.ids) : (p.add d).ids = p.ids ++ [d.id] := by
  simp [ids,add,insertInto_of_not_mem new]

@[simp] theorem ids_remove (p : Project) (id : DocumentId) : (p.remove id).ids = p.ids.filter (· != id) := by
  simp only [ids,remove,List.filter_map]
  rfl

theorem nodup_ids_add (once : p.ids.Nodup) (d : Document) : (p.add d).ids.Nodup := by
  by_cases known : d.id ∈ p.ids
  · rwa [ids_add_of_mem once known]
  · rw [ids_add_of_not_mem known,List.nodup_append]
    refine ⟨once,by simp,fun id inside other last => ?_⟩
    obtain rfl := List.mem_singleton.1 last
    exact fun same => known (same ▸ inside)

end Project

end TestScout
