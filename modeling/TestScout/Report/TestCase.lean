import TestScout.Finding.Basic
import TestScout.Text.Blank
set_option autoImplicit false

namespace TestScout

structure TestCase where
  fullyQualifiedName : String
  executorUri : String
  source : String
  displayName : String
  codeFilePath : Option String := none
  lineNumber : Option Nat := none
  traits : List (String × String) := []
  deriving DecidableEq, Repr

inductive RequiredField where
  | fullyQualifiedName
  | displayName
  | source
  | executorUri
  deriving DecidableEq, Repr

namespace RequiredField

def all : List RequiredField :=
  [.fullyQualifiedName,.displayName,.source,.executorUri]

def name : RequiredField → String
  | .fullyQualifiedName => "FullyQualifiedName"
  | .displayName => "DisplayName"
  | .source => "Source"
  | .executorUri => "ExecutorUri"

def of (t : TestCase) : RequiredField → String
  | .fullyQualifiedName => t.fullyQualifiedName
  | .displayName => t.displayName
  | .source => t.source
  | .executorUri => t.executorUri

def message (f : RequiredField) : String :=
  "discovered test has a blank \x60" ++ f.name ++ "\x60"

end RequiredField

structure Stamp where
  executorUri : String
  source : String
  deriving DecidableEq, Repr

namespace TestCase

/-- The first required field that is blank. -/
def blank? (t : TestCase) : Option RequiredField :=
  RequiredField.all.find? fun f => Text.isBlankText (f.of t)

def isReportable (t : TestCase) : Bool :=
  t.blank?.isNone

def ofFinding (stamp : Stamp) (f : Finding) : TestCase :=
  { fullyQualifiedName := f.testName
    executorUri := stamp.executorUri
    source := stamp.source
    displayName := f.displayName
    codeFilePath := f.location.bind Location.file
    lineNumber := f.location.bind Location.line
    traits := f.traits.toPairs }

end TestCase

end TestScout
