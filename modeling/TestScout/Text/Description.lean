import TestScout.Text.CharacterSets
set_option autoImplicit false

namespace TestScout.Text

def codePoint (c : Char) : List Char :=
  ['\\','u','\x7b'] ++ Nat.toDigits 16 c.toNat ++ ['\x7d']

/-- How a character is written between double quotes. Characters that would not be seen, or not be
seen on their own, are written by their code points. -/
def quotedChar (c : Char) : List Char :=
  if c = '"' || c = '\\' then ['\\',c]
  else if c = '\x00' then ['\\','0']
  else if c = '\t' then ['\\','t']
  else if c = '\n' then ['\\','n']
  else if c = '\r' then ['\\','r']
  else if isCombining c || isIgnorable c || !isPrintable c then codePoint c
  else [c]

def quoted (s : String) : String :=
  "\"" ++ String.ofList (s.toList.flatMap quotedChar) ++ "\""

theorem quotedChar_of_ascii {c : Char} (low : 0x20 ≤ c.toNat) (high : c.toNat < 0x7F)
    (plain : c ≠ '"' ∧ c ≠ '\\') : quotedChar c = [c] := by
  have differs (control : Char) (below : control.toNat < 0x20) : c ≠ control := by
    rintro rfl
    exact absurd low (Nat.not_le_of_lt below)
  simp [quotedChar,plain,differs '\x00' (by decide),differs '\t' (by decide),differs '\n' (by decide),
    differs '\r' (by decide),isPrintable_of_ascii low high,
    isCombining_eq_false_of_lt (Nat.lt_trans high (by decide)),
    isIgnorable_eq_false_of_lt (Nat.lt_trans high (by decide))]

/-- Nothing but the quotes is added to a text of printable ASCII without quotes and backslashes. -/
theorem quoted_of_ascii {s : String}
    (plain : ∀ c ∈ s.toList, (0x20 ≤ c.toNat ∧ c.toNat < 0x7F) ∧ c ≠ '"' ∧ c ≠ '\\') :
    quoted s = "\"" ++ s ++ "\"" := by
  have each : s.toList.map quotedChar = s.toList.map fun c => [c] :=
    List.map_congr_left fun c member =>
      quotedChar_of_ascii (plain c member).1.1 (plain c member).1.2 (plain c member).2
  rw [quoted,List.flatMap_def,each,← List.flatMap_def,List.flatMap_singleton',String.ofList_toList]

def wrapped (constructor value : String) : String :=
  constructor ++ "(" ++ value ++ ")"

def optional : Option String → String
  | none => "None"
  | some value => wrapped "Some" value

/-- A record of named fields. An open record has further fields that are not shown. -/
def record (name : String) (fields : List (String × String)) (isOpen : Bool) : String :=
  let shown := fields.map fun (field,value) => field ++ ": " ++ value
  let all := if isOpen then shown ++ [".."] else shown
  name ++ " \x7b " ++ String.intercalate ", " all ++ " \x7d"

end TestScout.Text
