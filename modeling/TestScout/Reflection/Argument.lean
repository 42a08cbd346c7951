import TestScout.Graph.QualifiedName
set_option autoImplicit false

namespace TestScout

inductive Argument where
  | literal (value : Literal)
  | typeName (name : Option String)
  | enumValue (value : Int64)
  | array (items : List Argument)
  deriving Repr

namespace Argument

def string? : Argument → Option String
  | .literal (.string value) => some value
  | _ => none

def bool? : Argument → Option Bool
  | .literal (.bool value) => some value
  | _ => none

def int? : Argument → Option Int64
  | .literal (.int value) => some value
  | .enumValue value => some value
  | _ => none

def items? : Argument → Option (List Argument)
  | .array items => some items
  | _ => none

def isNull : Argument → Bool
  | .literal .null => true
  | _ => false

end Argument

mutual

/-- The argument that a constant becomes when `nameOf` names the types. -/
def Constant.argument (nameOf : SymbolId → String) : Constant → Argument
  | .literal value => .literal value
  | .enumMember _ value => .enumValue value
  | .typeOperand type => .typeName (type.map nameOf)
  | .array items => .array (argumentsOf nameOf items)

def argumentsOf (nameOf : SymbolId → String) : List Constant → List Argument
  | [] => []
  | c :: rest => c.argument nameOf :: argumentsOf nameOf rest

end

@[simp] theorem argumentsOf_eq_map (nameOf : SymbolId → String) (cs : List Constant) :
    argumentsOf nameOf cs = cs.map (Constant.argument nameOf) := by
  induction cs with
  | nil => rfl
  | cons c rest ih => simp [argumentsOf,ih]

namespace Graph

def argumentsAt (g : Graph) (owner : SymbolId) (index : Nat) : List Argument :=
  match g.attribute? owner index with
  | none => []
  | some a => argumentsOf g.qualifiedName a.arguments

def namedArgumentAt? (g : Graph) (owner : SymbolId) (index : Nat) (name : String) :
    Option Argument :=
  ((g.attribute? owner index).bind (·.named? name)).map (Constant.argument g.qualifiedName)

end Graph

end TestScout
