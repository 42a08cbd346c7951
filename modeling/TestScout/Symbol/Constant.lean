import TestScout.Identifier
set_option autoImplicit false

namespace TestScout

/-- A primitive value. A floating-point value is kept as its 64 bits and never computed with. -/
inductive Literal where
  | null
  | bool (value : Bool)
  | char (value : Char)
  | int (value : Int64)
  | uint (value : UInt64)
  | float (bits : UInt64)
  | string (value : String)
  deriving DecidableEq, Repr

inductive Constant where
  | literal (value : Literal)
  | enumMember (type : SymbolId) (value : Int64)
  | typeOperand (type : Option SymbolId)
  | array (items : List Constant)
  deriving Repr

def Constant.isArray : Constant → Bool
  | .array _ => true
  | _ => false

def Constant.literal? : Constant → Option Literal
  | .literal value => some value
  | _ => none

structure Attribute where
  type : Option SymbolId
  arguments : List Constant := []
  named : List (String × Constant) := []
  deriving Repr

def Attribute.named? (a : Attribute) (name : String) : Option Constant :=
  (a.named.find? fun entry => entry.1 == name).map (·.2)

end TestScout
