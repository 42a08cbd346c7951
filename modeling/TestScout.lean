import TestScout.Assembly.Context
import TestScout.Assembly.Snapshot
import TestScout.Assembly.TypeWalk
import TestScout.Attribute.Effective
import TestScout.Attribute.Matching
import TestScout.Attribute.TypeName
import TestScout.Finding.Basic
import TestScout.Finding.Facts
import TestScout.Finding.Inbox
import TestScout.Graph.Ancestry
import TestScout.Graph.Basic
import TestScout.Graph.Builder
import TestScout.Graph.Conversion
import TestScout.Graph.QualifiedName
import TestScout.Graph.Walk
import TestScout.Identifier
import TestScout.Lookup
import TestScout.Project.Basic
import TestScout.Project.Scope
import TestScout.Proofs.ArgumentShape
import TestScout.Proofs.Ascent
import TestScout.Proofs.AttributeLevels
import TestScout.Proofs.AttributesByName
import TestScout.Proofs.BenchAnswers
import TestScout.Proofs.BenchEffects
import TestScout.Proofs.BenchRuns
import TestScout.Proofs.BuilderRun
import TestScout.Proofs.Climb
import TestScout.Proofs.ClimbingPass
import TestScout.Proofs.ContextCalls
import TestScout.Proofs.Conversions
import TestScout.Proofs.DocumentHistory
import TestScout.Proofs.EffectiveAttributes
import TestScout.Proofs.FactFindings
import TestScout.Proofs.FactPass
import TestScout.Proofs.FirstOccurrences
import TestScout.Proofs.GraphGrowth
import TestScout.Proofs.GraphOrder
import TestScout.Proofs.InboxRuns
import TestScout.Proofs.InheritedAttributes
import TestScout.Proofs.InterruptedTypes
import TestScout.Proofs.Lineage
import TestScout.Proofs.Location
import TestScout.Proofs.MetadataNames
import TestScout.Proofs.MethodEnumeration
import TestScout.Proofs.NameCollisions
import TestScout.Proofs.NamespacePaths
import TestScout.Proofs.NamespaceTree
import TestScout.Proofs.NodeWalk
import TestScout.Proofs.OverriddenFacts
import TestScout.Proofs.Overrides
import TestScout.Proofs.OwnMethods
import TestScout.Proofs.PassReports
import TestScout.Proofs.PassSchedules
import TestScout.Proofs.PathText
import TestScout.Proofs.Positions
import TestScout.Proofs.PublicMethods
import TestScout.Proofs.QueryAnswers
import TestScout.Proofs.ScopeUnion
import TestScout.Proofs.SnapshotRuns
import TestScout.Proofs.Spread
import TestScout.Proofs.Trail
import TestScout.Proofs.TraitOrder
import TestScout.Proofs.TreeGrowth
import TestScout.Proofs.TreeShape
import TestScout.Proofs.Trimming
import TestScout.Proofs.TypeEnumeration
import TestScout.Proofs.TypeNameGrammar
import TestScout.Proofs.TypeNameParsing
import TestScout.Proofs.UsageLookup
import TestScout.Proofs.Visibility
import TestScout.Proofs.WalkUnderAlarm
import TestScout.Proofs.WiderNames
import TestScout.Reflection.Argument
import TestScout.Reflection.Members
import TestScout.Reflection.Survey
import TestScout.Reflection.Unsupported
import TestScout.Report.Discovery
import TestScout.Report.Pass
import TestScout.Report.TestCase
import TestScout.Symbol.Basic
import TestScout.Symbol.Constant
import TestScout.SyntaxTree
import TestScout.Text.Blank
import TestScout.Text.CharacterSets
import TestScout.Text.Description
import TestScout.Workbench.Basic
import TestScout.Workbench.Reading
import TestScout.Workbench.Searching
