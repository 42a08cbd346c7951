import TestScout.Graph.QualifiedName
import TestScout.Proofs.Visibility
import Mathlib.Data.List.Perm.Subperm
import Mathlib.Logic.Function.Iterate
set_option autoImplicit false

/-!
The climb from a symbol along its containing symbols, one after the other. Unlike the walk up the
bases it keeps no record of what it has met, so it comes to no end where the containing links run in
a circle. If it ends, it has passed what `Graph.enclosing` lists up to there.
-/

namespace TestScout

structure Climb where
  next : Option SymbolId
  passed : List SymbolId := []
  deriving DecidableEq, Repr

namespace Climb

/-- One step outward, past a symbol that is `open_`. A missing symbol ends the climb and so does one
that is not open, but not one that was passed before. -/
def step (g : Graph) (open_ : Symbol → Bool) : Climb → Climb
  | ⟨none,passed⟩ => ⟨none,passed⟩
  | ⟨some id,passed⟩ =>
    match g.symbol? id with
    | none => ⟨some id,passed⟩
    | some s => if open_ s then ⟨s.containing,passed ++ [id]⟩ else ⟨some id,passed⟩

def isOver (g : Graph) (open_ : Symbol → Bool) (c : Climb) : Bool :=
  !(c.next.bind g.symbol?).any open_

end Climb

/-- A climb passes some symbols, in order, and is over at the last, which it does not pass. -/
inductive Graph.Climbs (g : Graph) (open_ : Symbol → Bool) :
    Option SymbolId → List SymbolId → Option SymbolId → Prop where
  | finished {last : Option SymbolId} : (last.bind g.symbol?).any open_ = false →
      Climbs g open_ last [] last
  | past {id : SymbolId} {s : Symbol} {passed : List SymbolId} {last : Option SymbolId} :
      g.symbol? id = some s → open_ s → Climbs g open_ s.containing passed last →
      Climbs g open_ (some id) (id :: passed) last

namespace Climb

variable {g : Graph} {open_ : Symbol → Bool} {c : Climb} {id : SymbolId} {s : Symbol}
  {next last : Option SymbolId} {passed before : List SymbolId}

theorem step_over (finished : c.isOver g open_) : c.step g open_ = c := by
  obtain ⟨_ | id,passed⟩ := c
  · rfl
  · cases found : g.symbol? id with
    | none => simp [step,found]
    | some s =>
      have closed : open_ s = false := by simpa [isOver,found] using finished
      simp [step,found,closed]

theorem step_past (found : g.symbol? id = some s) (passes : open_ s) :
    step g open_ ⟨some id,before⟩ = ⟨s.containing,before ++ [id]⟩ := by
  simp [step,found,passes]

theorem iterate_step_over (finished : c.isOver g open_) (n : Nat) : (step g open_)^[n] c = c :=
  Function.iterate_fixed (step_over finished) n

theorem iterate_step (climbs : g.Climbs open_ next passed last) {n : Nat} (far : passed.length ≤ n) :
    (step g open_)^[n] ⟨next,before⟩ = ⟨last,before ++ passed⟩ := by
  induction climbs generalizing before n with
  | @finished last closed =>
    rw [List.append_nil]
    exact iterate_step_over (by simp [isOver,closed]) n
  | past found passes _ ih =>
    cases n with
    | zero => exact absurd far (Nat.not_succ_le_zero _)
    | succ n =>
      rw [Function.iterate_succ_apply,step_past found passes,ih (Nat.le_of_succ_le_succ far)]
      simp

theorem climbs_of_isOver {n : Nat} (finished : ((step g open_)^[n] ⟨next,before⟩).isOver g open_) :
    ∃ passed, ((step g open_)^[n] ⟨next,before⟩).passed = before ++ passed ∧
      g.Climbs open_ next passed ((step g open_)^[n] ⟨next,before⟩).next := by
  induction n generalizing next before with
  | zero => exact ⟨[],(List.append_nil _).symm,.finished (by simpa [isOver] using finished)⟩
  | succ n ih =>
    cases stands : (next.bind g.symbol?).any open_ with
    | false =>
      rw [iterate_step_over (by simp [isOver,stands])]
      exact ⟨[],(List.append_nil _).symm,.finished stands⟩
    | true =>
      obtain ⟨s,found,passes⟩ := (Option.any_eq_true _ _).1 stands
      obtain ⟨id,rfl,found⟩ := Option.bind_eq_some_iff.1 found
      rw [Function.iterate_succ_apply,step_past found passes] at finished ⊢
      obtain ⟨passed,whole,climbs⟩ := ih finished
      exact ⟨id :: passed,by rw [whole,← List.append_cons],.past found passes climbs⟩

end Climb

namespace Graph

variable {g : Graph} {open_ : Symbol → Bool} {id : SymbolId} {s : Symbol}
  {next last last' : Option SymbolId} {passed passed' fresh : List SymbolId}

theorem Climbs.unique (first : g.Climbs open_ next passed last)
    (second : g.Climbs open_ next passed' last') : passed = passed' ∧ last = last' := by
  induction first generalizing passed' with
  | finished closed =>
    cases second with
    | finished => exact ⟨rfl,rfl⟩
    | past found passes => simp [found,passes] at closed
  | past found passes _ ih =>
    cases second with
    | finished closed => simp [found,passes] at closed
    | past found' _ later =>
      obtain rfl := Option.some.inj (found.symm.trans found')
      obtain ⟨rfl,rfl⟩ := ih later
      exact ⟨rfl,rfl⟩

theorem Climbs.last_closed (climbs : g.Climbs open_ next passed last) :
    (last.bind g.symbol?).any open_ = false := by
  induction climbs with
  | finished closed => exact closed
  | past _ _ _ ih => exact ih

theorem Climbs.passed_open (climbs : g.Climbs open_ next passed last) (member : id ∈ passed) :
    (g.symbol? id).any open_ := by
  induction climbs with
  | finished => cases member
  | past found passes _ ih =>
    rcases List.mem_cons.1 member with rfl | later
    · simp [found,passes]
    · exact ih later

theorem Climbs.from_passed (climbs : g.Climbs open_ next passed last) (member : id ∈ passed) :
    ∃ rest, rest.length ≤ passed.length ∧ g.Climbs open_ (some id) rest last := by
  induction climbs with
  | finished => cases member
  | past found passes later ih =>
    rcases List.mem_cons.1 member with rfl | inside
    · exact ⟨_,Nat.le_refl _,.past found passes later⟩
    · obtain ⟨rest,shorter,climbs⟩ := ih inside
      exact ⟨rest,Nat.le_succ_of_le shorter,climbs⟩

/-- A climb that ends passes nothing twice, or else it would go round for ever. -/
theorem Climbs.nodup (climbs : g.Climbs open_ next passed last) : passed.Nodup := by
  induction climbs with
  | finished => exact List.nodup_nil
  | past found passes later ih =>
    refine List.nodup_cons.2 ⟨fun again => ?_,ih⟩
    obtain ⟨rest,shorter,climbs⟩ := later.from_passed again
    obtain ⟨rfl,-⟩ := climbs.unique (.past found passes later)
    exact absurd shorter (by simp)

theorem Climbs.passed_subset (climbs : g.Climbs open_ next passed last) : passed ⊆ g.ids := by
  intro id member
  obtain ⟨s,found,-⟩ := (Option.any_eq_true _ _).1 (climbs.passed_open member)
  rw [mem_ids,found]
  rfl

theorem Climbs.length_le (climbs : g.Climbs open_ next passed last) :
    passed.length ≤ g.symbols.length := by
  have fits := (List.subperm_of_subset climbs.nodup climbs.passed_subset).length_le
  simpa [ids] using fits

theorem Climbs.trail_eq (climbs : g.Climbs open_ next passed last) (inside : passed ⊆ fresh) :
    trail g.containing? fresh next = passed ++ trail g.containing? (fresh.diff passed) last := by
  have once := climbs.nodup
  induction climbs generalizing fresh with
  | finished => simp
  | @past id s passed last found passes later ih =>
    rw [List.nodup_cons] at once
    have outward : g.containing? id = s.containing := by simp [containing?,found]
    have kept : passed ⊆ fresh.erase id := by
      intro other member
      have differs : other ≠ id := fun same => once.1 (same ▸ member)
      exact (List.mem_erase_of_ne differs).2 (inside (List.mem_cons_of_mem _ member))
    rw [trail_of_mem (inside List.mem_cons_self),outward,ih kept once.2,List.diff_cons,
      List.cons_append]

theorem Climbs.exists_enclosing_eq (climbs : g.Climbs open_ (some id) passed last) :
    ∃ rest, g.enclosing id = passed ++ rest ∧
      rest.head? = last.filter fun other => (g.symbol? other).isSome := by
  refine ⟨_,climbs.trail_eq climbs.passed_subset,?_⟩
  cases last with
  | none => simp
  | some other =>
    have closed : (g.symbol? other).any open_ = false := climbs.last_closed
    by_cases inside : other ∈ g.ids.diff passed
    · have known := (g.mem_ids other).1 (List.diff_subset _ _ inside)
      rw [trail_of_mem inside,List.head?_cons,Option.filter_some,if_pos known]
    · -- The last symbol is not among those passed, so it is missing altogether.
      have missing : (g.symbol? other).isSome = false := by
        refine Bool.eq_false_iff.2 fun known => inside ?_
        have unpassed : other ∉ passed := fun member => by simp [climbs.passed_open member] at closed
        exact List.mem_diff_of_mem ((g.mem_ids other).2 known) unpassed
      rw [trail_of_not_mem inside,List.head?_nil,Option.filter_some,missing]
      rfl

theorem Climbs.enclosing_eq (climbs : g.Climbs (fun _ => true) (some id) passed last) :
    g.enclosing id = passed := by
  obtain ⟨rest,whole,first⟩ := climbs.exists_enclosing_eq
  have closed := climbs.last_closed
  cases last with
  | none => rw [whole,List.head?_eq_none_iff.1 first,List.append_nil]
  | some other =>
    have missing : g.symbol? other = none := by
      cases found : g.symbol? other <;> simp [found] at closed ⊢
    simp only [Option.filter_some,missing,Option.isSome_none,Bool.false_eq_true,if_false] at first
    rw [whole,List.head?_eq_none_iff.1 first,List.append_nil]

/-- Whoever follows the containing links from a symbol comes to their end. -/
def IsContained (g : Graph) (id : SymbolId) : Prop :=
  ∃ n, (fun link => link.bind g.containing?)^[n] (some id) = none

theorem isContained_of_forall_ids {n : Nat}
    (ends : ∀ id ∈ g.ids, (fun link => link.bind g.containing?)^[n] (some id) = none) (id : SymbolId) :
    g.IsContained id := by
  by_cases known : id ∈ g.ids
  · exact ⟨n,ends id known⟩
  · have missing : g.symbol? id = none := by simpa using known
    exact ⟨1,by simp [containing?,missing]⟩

theorem IsContained.exists_climbs (contained : g.IsContained id) (open_ : Symbol → Bool) :
    ∃ passed last, g.Climbs open_ (some id) passed last := by
  obtain ⟨n,ends⟩ := contained
  generalize some id = next at ends ⊢
  induction n generalizing next with
  | zero => exact ⟨[],next,.finished (by simp [show next = none from ends])⟩
  | succ n ih =>
    cases stands : (next.bind g.symbol?).any open_ with
    | false => exact ⟨[],next,.finished stands⟩
    | true =>
      obtain ⟨s,leads,passes⟩ := (Option.any_eq_true _ _).1 stands
      obtain ⟨id,rfl,found⟩ := Option.bind_eq_some_iff.1 leads
      have outward : (some id).bind g.containing? = s.containing := by simp [containing?,found]
      rw [Function.iterate_succ_apply,outward] at ends
      obtain ⟨passed,last,climbs⟩ := ih s.containing ends
      exact ⟨id :: passed,last,.past found passes climbs⟩

def climbWithin (g : Graph) (open_ : Symbol → Bool) (steps : Nat) (id : SymbolId) : Option Climb :=
  let c := (Climb.step g open_)^[steps] ⟨some id,[]⟩
  if c.isOver g open_ then some c else none

theorem climbs_of_climbWithin {steps : Nat} {c : Climb} (ends : g.climbWithin open_ steps id = some c) :
    g.Climbs open_ (some id) c.passed c.next := by
  unfold climbWithin at ends
  dsimp only at ends
  split at ends
  · next finished =>
    obtain ⟨passed,whole,climbs⟩ := Climb.climbs_of_isOver finished
    obtain rfl := Option.some.inj ends
    rw [List.nil_append] at whole
    rwa [whole]
  · cases ends

/-- No climb that ends takes more steps than there are symbols. -/
theorem Climbs.climbWithin_eq (climbs : g.Climbs open_ (some id) passed last) {steps : Nat}
    (many : g.symbols.length ≤ steps) : g.climbWithin open_ steps id = some ⟨last,passed⟩ := by
  have reached : (Climb.step g open_)^[steps] ⟨some id,[]⟩ = ⟨last,[] ++ passed⟩ :=
    Climb.iterate_step climbs (Nat.le_trans climbs.length_le many)
  rw [List.nil_append] at reached
  simp [climbWithin,reached,Climb.isOver,climbs.last_closed]

theorem climbWithin_eq_none (found : g.symbol? id = some s) (passes : open_ s)
    (around : s.containing = some id) (steps : Nat) : g.climbWithin open_ steps id = none := by
  rw [Option.eq_none_iff_forall_ne_some]
  intro c ends
  have climbs := climbs_of_climbWithin ends
  obtain ⟨longer,-⟩ := climbs.unique (.past found passes (around ▸ climbs))
  exact absurd (congrArg List.length longer) (by simp)

/-- Whether a type is visible outside, if the climb that decides it is over within some steps. It
passes public types, and a type that is left in its way is not public. -/
def isVisibleWithin (g : Graph) (steps : Nat) (type : SymbolId) : Option Bool :=
  (g.climbWithin (fun s => s.isType && s.isPublic) steps type).map fun c =>
    !(c.next.bind g.symbol?).any Symbol.isType

def qualifiedNameWithin (g : Graph) (steps : Nat) (id : SymbolId) : Option String :=
  (g.climbWithin (fun _ => true) steps id).map fun c =>
    DisplayPart.render
      (((c.passed.filterMap g.symbol?).filterMap DisplayPart.ofSymbol?).reverse.intersperse .dot)

theorem isVisibleWithin_eq {steps : Nat} {type : SymbolId} {answer : Bool}
    (ends : g.isVisibleWithin steps type = some answer) : g.isVisible type = answer := by
  obtain ⟨c,climbed,rfl⟩ := Option.map_eq_some_iff.1 ends
  have climbs := climbs_of_climbWithin climbed
  obtain ⟨rest,whole,first⟩ := climbs.exists_enclosing_eq
  have closed := climbs.last_closed
  have exist : ∀ id ∈ g.enclosing type, id ∈ g.ids := fun _ => mem_of_mem_trail
  have front : ∀ id ∈ c.passed, g.isType id ∧ g.isPublic id := by
    intro id member
    obtain ⟨s,found,passes⟩ := (Option.any_eq_true _ _).1 (climbs.passed_open member)
    simpa [isType,isPublic,found] using passes
  unfold isVisible enclosingSymbols
  rw [all_public_front g _ exist,whole,List.takeWhile_append_of_pos fun id member => (front id member).1,
    List.all_append,List.all_eq_true.2 fun id member => (front id member).2,Bool.true_and]
  cases rest with
  | nil =>
    have none_ : c.next.bind g.symbol? = none := by
      cases h : c.next with
      | none => rfl
      | some other => cases found : g.symbol? other <;> simp [h,Option.filter_some,found] at first ⊢
    simp [none_]
  | cons other rest =>
    obtain ⟨here,known⟩ := Option.filter_eq_some_iff.1 first.symm
    obtain ⟨s,found⟩ := Option.isSome_iff_exists.1 known
    rw [here,Option.bind_some,found,Option.any_some] at closed ⊢
    have type_ : g.isType other = s.isType := by simp [isType,found]
    have public_ : g.isPublic other = s.isPublic := by simp [isPublic,found]
    rw [List.takeWhile_cons,type_]
    cases isType : s.isType with
    | false => rfl
    | true =>
      have hidden : s.isPublic = false := by simpa [isType] using closed
      simp [public_,hidden]

theorem qualifiedNameWithin_eq {steps : Nat} {name : String}
    (ends : g.qualifiedNameWithin steps id = some name) : g.qualifiedName id = name := by
  obtain ⟨c,climbed,rfl⟩ := Option.map_eq_some_iff.1 ends
  rw [qualifiedName,displayParts,enclosingSymbols,(climbs_of_climbWithin climbed).enclosing_eq]

theorem IsContained.climbWithin_isSome (contained : g.IsContained id) (open_ : Symbol → Bool)
    {steps : Nat} (many : g.symbols.length ≤ steps) : (g.climbWithin open_ steps id).isSome := by
  obtain ⟨passed,last,climbs⟩ := contained.exists_climbs open_
  rw [climbs.climbWithin_eq many]
  rfl

end Graph

end TestScout
