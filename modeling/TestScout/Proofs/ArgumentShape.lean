import TestScout.Graph.Builder
import TestScout.Reflection.Argument
import Mathlib.Data.Option.Basic
import Mathlib.Data.List.Forall2
set_option autoImplicit false

namespace TestScout

variable {nameOf : SymbolId → String} {c d : Constant} {x y : Argument}

namespace Constant

/-- What stands at a place of a constant: the path says which item of each array to go into. -/
def at? : Constant → List Nat → Option Constant
  | c, [] => some c
  | .array items, i :: path => items[i]?.bind fun c => c.at? path
  | _, _ :: _ => none

@[elab_as_elim]
theorem induction {motive : Constant → Prop} (literal : ∀ value, motive (.literal value))
    (enumMember : ∀ type value, motive (.enumMember type value))
    (typeOperand : ∀ type, motive (.typeOperand type))
    (array : ∀ items, (∀ c ∈ items, motive c) → motive (.array items)) (c : Constant) : motive c := by
  refine @Constant.rec motive (fun items => ∀ c ∈ items, motive c) literal enumMember typeOperand
    array ?_ ?_ c
  · intro c member
    cases member
  · intro first rest holds later c member
    rcases List.mem_cons.1 member with rfl | member
    · exact holds
    · exact later c member

/-- The constants differ at most in the types of enum members and in type operands of the same name. -/
inductive Alike (nameOf : SymbolId → String) : Constant → Constant → Prop where
  | literal (value : Literal) : Alike nameOf (.literal value) (.literal value)
  | enumMember (type other : SymbolId) (value : Int64) :
      Alike nameOf (.enumMember type value) (.enumMember other value)
  | typeOperand {type other : Option SymbolId} : type.map nameOf = other.map nameOf →
      Alike nameOf (.typeOperand type) (.typeOperand other)
  | array {items others : List Constant} : items.length = others.length →
      (∀ (i : Nat) (c d : Constant), items[i]? = some c → others[i]? = some d → Alike nameOf c d) →
      Alike nameOf (.array items) (.array others)

end Constant

namespace Argument

def at? : Argument → List Nat → Option Argument
  | x, [] => some x
  | .array items, i :: path => items[i]?.bind fun x => x.at? path
  | _, _ :: _ => none

/-- At every place the argument has what the constant has there: an array of the same length, the same
literal, the value of the enum member, or the name of the type if there is one. -/
structure Mirrors (nameOf : SymbolId → String) (x : Argument) (c : Constant) : Prop where
  array : ∀ path size, (∃ items, x.at? path = some (.array items) ∧ items.length = size) ↔
    ∃ items, c.at? path = some (.array items) ∧ items.length = size
  literal : ∀ path value, x.at? path = some (.literal value) ↔ c.at? path = some (.literal value)
  enumValue : ∀ path value, x.at? path = some (.enumValue value) ↔
    ∃ type, c.at? path = some (.enumMember type value)
  typeName : ∀ path name, x.at? path = some (.typeName name) ↔
    ∃ type, c.at? path = some (.typeOperand type) ∧ type.map nameOf = name

end Argument

@[simp] theorem Constant.argument_at? (nameOf : SymbolId → String) (c : Constant) (path : List Nat) :
    (c.argument nameOf).at? path = (c.at? path).map (Constant.argument nameOf) := by
  induction path generalizing c with
  | nil => rfl
  | cons i path ih =>
    cases c with
    | array items =>
      rw [argument,argumentsOf_eq_map,Argument.at?,at?,List.getElem?_map]
      cases items[i]? with
      | none => rfl
      | some c => exact ih c
    | literal value => rfl
    | enumMember type value => rfl
    | typeOperand type => rfl

theorem Constant.argument_mirrors (nameOf : SymbolId → String) (c : Constant) :
    (c.argument nameOf).Mirrors nameOf c := by
  constructor
  all_goals
    intro path
    rw [c.argument_at? nameOf path]
    cases c.at? path with
    | none => simp
    | some c => cases c <;> simp [argument]

theorem Argument.mirrors_iff : x.Mirrors nameOf c ↔ x = c.argument nameOf := by
  refine ⟨fun mirrors => ?_,fun equal => equal ▸ c.argument_mirrors nameOf⟩
  induction c using Constant.induction generalizing x with
  | literal value => simpa [at?,Constant.at?,Constant.argument] using mirrors.literal [] value
  | enumMember type value =>
    simpa [at?,Constant.at?,Constant.argument] using mirrors.enumValue [] value
  | typeOperand type =>
    simpa [at?,Constant.at?,Constant.argument] using mirrors.typeName [] (type.map nameOf)
  | array others ih =>
    obtain ⟨items,here,lengths⟩ := (mirrors.array [] others.length).2 ⟨others,rfl,rfl⟩
    obtain rfl : x = .array items := by simpa [at?] using here
    rw [Constant.argument,argumentsOf_eq_map]
    congr 1
    refine List.ext_getElem (by simpa using lengths) fun i inItems inOthers => ?_
    rw [List.length_map] at inOthers
    rw [List.getElem_map]
    refine ih _ (List.getElem_mem inOthers) ?_
    -- A place of the item is a place of the array, behind the index of the item.
    constructor
    all_goals intro path
    · simpa [at?,Constant.at?,inItems,inOthers] using mirrors.array (i :: path)
    · simpa [at?,Constant.at?,inItems,inOthers] using mirrors.literal (i :: path)
    · simpa [at?,Constant.at?,inItems,inOthers] using mirrors.enumValue (i :: path)
    · simpa [at?,Constant.at?,inItems,inOthers] using mirrors.typeName (i :: path)

namespace Constant

theorem Alike.argument_eq (alike : c.Alike nameOf d) : c.argument nameOf = d.argument nameOf := by
  induction alike with
  | literal value => rfl
  | enumMember type other value => rfl
  | typeOperand names => rw [argument,argument,names]
  | @array items others lengths _ ih =>
    rw [argument,argument,argumentsOf_eq_map,argumentsOf_eq_map]
    congr 1
    refine List.ext_getElem (by simpa using lengths) fun i inItems inOthers => ?_
    rw [List.length_map] at inItems inOthers
    rw [List.getElem_map,List.getElem_map]
    exact ih i _ _ (List.getElem?_eq_getElem inItems) (List.getElem?_eq_getElem inOthers)

theorem alike_of_argument_eq (equal : c.argument nameOf = d.argument nameOf) :
    c.Alike nameOf d := by
  induction c using Constant.induction generalizing d with
  | literal value =>
    cases d <;> simp only [argument,reduceCtorEq,Argument.literal.injEq] at equal
    exact equal ▸ .literal value
  | enumMember type value =>
    cases d <;> simp only [argument,reduceCtorEq,Argument.enumValue.injEq] at equal
    exact equal ▸ .enumMember type _ value
  | typeOperand type =>
    cases d <;> simp only [argument,reduceCtorEq,Argument.typeName.injEq] at equal
    exact .typeOperand equal
  | array items ih =>
    cases d <;> simp only [argument,reduceCtorEq,Argument.array.injEq,argumentsOf_eq_map] at equal
    case array others =>
      refine .array (by simpa using congrArg List.length equal) fun i c d here there => ?_
      have images := congrArg (·[i]?) equal
      simp only [List.getElem?_map,here,there,Option.map_some,Option.some.injEq] at images
      exact ih c (List.mem_of_getElem? here) images

theorem argument_eq_iff : c.argument nameOf = d.argument nameOf ↔ c.Alike nameOf d :=
  ⟨alike_of_argument_eq,Alike.argument_eq⟩

end Constant

mutual

def Constant.operands : Constant → List SymbolId
  | .typeOperand type => type.toList
  | .array items => operandsOf items
  | _ => []

def operandsOf : List Constant → List SymbolId
  | [] => []
  | c :: rest => c.operands ++ operandsOf rest

end

@[simp] theorem operandsOf_eq_flatMap (cs : List Constant) :
    operandsOf cs = cs.flatMap Constant.operands := by
  induction cs with
  | nil => rfl
  | cons c rest ih => simp [operandsOf,ih]

/-- An argument needs the names of the types that its constant has among its operands, and no others. -/
theorem Constant.argument_congr {c : Constant} {nameOf nameOf' : SymbolId → String}
    (same : ∀ id ∈ c.operands, nameOf id = nameOf' id) : c.argument nameOf = c.argument nameOf' := by
  induction c using Constant.induction with
  | literal value => rfl
  | enumMember type value => rfl
  | typeOperand type =>
    cases type with
    | none => rfl
    | some id =>
      simp [Constant.argument,same id (List.mem_singleton_self id)]
  | array items ih =>
    simp only [Constant.argument,argumentsOf_eq_map]
    congr 1
    refine List.map_congr_left fun c member => ih c member fun id named => same id ?_
    rw [Constant.operands,operandsOf_eq_flatMap]
    exact List.mem_flatMap.2 ⟨c,member,named⟩

namespace Graph

variable {g : Graph} {owner : SymbolId} {index : Nat} {a : Attribute}

/-- The arguments of an attribute mirror its constants, the positional ones in order and the named ones
by name, and arguments that mirror two constants are equal exactly if the constants are alike. -/
theorem arguments_exact (found : g.attribute? owner index = some a) :
    List.Forall₂ (Argument.Mirrors g.qualifiedName) (g.argumentsAt owner index) a.arguments ∧
    (∀ name, Option.Rel (Argument.Mirrors g.qualifiedName) (g.namedArgumentAt? owner index name)
      (a.named? name)) ∧
    ∀ (x y : Argument) (c d : Constant), x.Mirrors g.qualifiedName c → y.Mirrors g.qualifiedName d →
      (x = y ↔ c.Alike g.qualifiedName d) := by
  refine ⟨?_,fun name => ?_,fun x y c d first second => ?_⟩
  · have images : g.argumentsAt owner index = a.arguments.map (Constant.argument g.qualifiedName) := by
      simp only [argumentsAt,found,argumentsOf_eq_map]
    rw [images,List.forall₂_map_left_iff]
    exact List.forall₂_same.2 fun c _ => c.argument_mirrors g.qualifiedName
  · rw [namedArgumentAt?,found,Option.bind_some]
    cases a.named? name with
    | none => exact .none
    | some c => exact .some (c.argument_mirrors g.qualifiedName)
  · rw [Argument.mirrors_iff.1 first,Argument.mirrors_iff.1 second]
    exact Constant.argument_eq_iff

end Graph

def matrixAttribute : Attribute where
  type := some ⟨7⟩
  arguments := [.array [.array [.literal (.int 1)],.array []],.enumMember ⟨7⟩ 3]
  named := [("Type",.typeOperand (some ⟨8⟩))]

def matrixGraph : Graph :=
  let b := ((Builder.ofAssembly "Tests").openPath "N").2
  let b := (b.addAttributeClass ⟨6⟩ "MatrixAttribute" none none).2
  let b := (b.addClass ⟨6⟩ "Tests" none).2
  (b.apply ⟨8⟩ matrixAttribute).finish false

theorem arguments_exact_matrix :
    matrixGraph.argumentsAt ⟨8⟩ 0 =
        [.array [.array [.literal (.int 1)],.array []],.enumValue 3] ∧
      matrixGraph.namedArgumentAt? ⟨8⟩ 0 "Type" =
        some (.typeName (some "N.Tests")) := by
  have found : matrixGraph.attribute? ⟨8⟩ 0 = some matrixAttribute := rfl
  obtain ⟨positional,named,-⟩ := Graph.arguments_exact found
  constructor
  · have images := positional.imp fun _ _ => Argument.mirrors_iff.1
    rw [← List.forall₂_map_right_iff,List.forall₂_eq_eq_eq] at images
    exact images
  · have type : matrixAttribute.named? "Type" = some (.typeOperand (some ⟨8⟩)) := by
      simp [Attribute.named?,matrixAttribute]
    have image := named "Type"
    rw [type] at image
    cases given : matrixGraph.namedArgumentAt? ⟨8⟩ 0 "Type" with
    | none => rw [given] at image; cases image
    | some x =>
      rw [given] at image
      cases image with
      | some mirrors =>
        have name : matrixGraph.qualifiedName ⟨8⟩ = "N.Tests" := by decide +kernel
        rw [Argument.mirrors_iff.1 mirrors,← name]
        rfl

end TestScout
