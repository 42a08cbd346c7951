import TestScout.Assembly.Snapshot
import TestScout.Finding.Inbox
import TestScout.Reflection.Argument
set_option autoImplicit false

namespace TestScout.Facts

def factName : String :=
  "Xunit.FactAttribute"

def traitName : String :=
  "Xunit.Sdk.ITraitAttribute"

/-- Applied to the class of a trait attribute to say how its traits are read. -/
def traitDiscovererName : String :=
  "Xunit.Sdk.TraitDiscovererAttribute"

def traitOf? : List Argument → Option (String × String)
  | name :: value :: _ => do
    let name ← name.string?
    let value ← value.string?
    return (name,value)
  | _ => none

def traitsOf (g : Graph) : List Applied → Query (List (String × String))
  | [] => return []
  | a :: rest => do
    let discoverers ← Query.matchingOnType g a.owner a.index traitDiscovererName
    let traits ← traitsOf g rest
    if discoverers.isEmpty then
      return traits
    else
      return (traitOf? (g.argumentsAt a.owner a.index)).toList ++ traits

def traitsAt (g : Graph) (id : SymbolId) : Query (List (String × String)) := do
  let found ← Query.matching g id traitName
  traitsOf g found

def displayName (g : Graph) (type method : SymbolId) (fact : Applied) : String :=
  match (g.namedArgumentAt? fact.owner fact.index "DisplayName").bind Argument.string? with
  | some name => name
  | none => g.testName type method

def finding? (g : Graph) (type : SymbolId) (typeTraits : List (String × String))
    (method : SymbolId) : Query (Option Finding) := do
  match ← Query.matching g method factName with
  | [] => return none
  | fact :: _ =>
    let methodTraits ← traitsAt g method
    return some
      { Finding.ofMethod g type method (displayName g type method fact) with
        traits := TraitGroups.ofPairs (typeTraits ++ methodTraits) }

/-- Sends the findings of some methods of a type and answers whether the inbox took them all. The
first refusal ends the work. -/
def sendMethods (g : Graph) (type : SymbolId) (typeTraits : List (String × String)) :
    List SymbolId → Inbox → Query (Bool × Inbox)
  | [], inbox => return (true,inbox)
  | method :: rest, inbox => do
    match ← finding? g type typeTraits method with
    | none => sendMethods g type typeTraits rest inbox
    | some f =>
      match inbox.receive (.found f) with
      | (true,inbox) => sendMethods g type typeTraits rest inbox
      | (false,inbox) => return (false,inbox)

/-- Sends the findings of some types. Abstract types are skipped, since their tests show up in the
types derived from them. -/
def sendTypes (g : Graph) : List SymbolId → Inbox → Query (Bool × Inbox)
  | [], inbox => return (true,inbox)
  | type :: rest, inbox => do
    if g.isAbstract type then
      sendTypes g rest inbox
    else
      let traits ← traitsAt g type
      match ← sendMethods g type traits (g.methods false type) inbox with
      | (true,inbox) => sendTypes g rest inbox
      | (false,inbox) => return (false,inbox)

def send (types : List SymbolId) (inbox : Inbox) (g : Graph) : Query Inbox := do
  match ← sendTypes g types inbox with
  | (true,inbox) => return (inbox.receive .complete).2
  | (false,inbox) => return inbox

structure Run where
  inbox : Inbox
  assembly : Assembly
  meter : Meter
  asked : List String

/-- Looks through the public types of an assembly. Without a compilation there is nothing to find. -/
def run (a : Assembly) (scope : Scope) (m : Meter) (inbox : Inbox) : Run :=
  let (types,a,m) := a.types scope false m
  let (inbox,a,asked) := a.query (send types inbox) (inbox.receive .complete).2
  { inbox, assembly := a, meter := m, asked }

end TestScout.Facts
