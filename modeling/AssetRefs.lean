import AssetRefs.AssetPath
import AssetRefs.Command.Invocation
import AssetRefs.Command.Options
import AssetRefs.Command.Run
import AssetRefs.Concrete
import AssetRefs.Discovery
import AssetRefs.Files.Glob
import AssetRefs.Files.Route
import AssetRefs.Files.Tree
import AssetRefs.Go.Grammar.Declarations
import AssetRefs.Go.Grammar.Expressions
import AssetRefs.Go.Grammar.Statements
import AssetRefs.Go.Grammar.Types
import AssetRefs.Go.Parser
import AssetRefs.Go.Production
import AssetRefs.Go.Token
import AssetRefs.Go.TypeReading
import AssetRefs.GoModule
import AssetRefs.GoString
import AssetRefs.Job
import AssetRefs.Json
import AssetRefs.Main
import AssetRefs.PackageScan
import AssetRefs.Report
import AssetRefs.Scan.Error
import AssetRefs.Scan.Resolution
import AssetRefs.Scan.Run
import AssetRefs.Scan.Session
import AssetRefs.Scan.Trace
import AssetRefs.Settings
import AssetRefs.Settings.Error
import AssetRefs.Syntax.Lowering
import AssetRefs.Syntax.Node
import AssetRefs.Syntax.Scope
import AssetRefs.Syntax.Shape
import AssetRefs.Syntax.Source
import AssetRefs.Text.Blank
import AssetRefs.Text.CodeRange
import AssetRefs.Text.Identifier
import AssetRefs.Text.Lines
import AssetRefs.Text.Printable
import AssetRefs.Text.Quoted
import AssetRefs.Text.UtcStamp
import AssetRefs.Text.Utf8
import AssetRefs.Yaml.Cursor
import AssetRefs.Yaml.Node
import AssetRefs.Yaml.Scalar
import AssetRefs.Yaml.ScalarType
import AssetRefs.Yaml.Token
import AssetRefs.Yaml.Value
import AssetRefs.Proofs.PathOrder
import AssetRefs.Proofs.TraceLaws
import AssetRefs.Proofs.Visits
import AssetRefs.Proofs.Containment
import AssetRefs.Proofs.Exploration
import AssetRefs.Proofs.CallSites
import AssetRefs.Proofs.Provenance
import AssetRefs.Proofs.StatementPaths
import AssetRefs.Proofs.NameResolution
import AssetRefs.Proofs.WellFormedTables
import AssetRefs.Proofs.SignatureScopes
import AssetRefs.Proofs.ScopeDiscipline
import AssetRefs.Proofs.LoweringCongruence
import AssetRefs.Proofs.PlainRecursion
import AssetRefs.Proofs.Comments
import AssetRefs.Proofs.GrammarShapes
import AssetRefs.Proofs.Operands
import AssetRefs.Proofs.CallConservation
import AssetRefs.Proofs.TraceFamilies
import AssetRefs.Proofs.CanonicalPaths
import AssetRefs.Proofs.MalformedLiterals
import AssetRefs.Proofs.PackageSubstitution
import AssetRefs.Proofs.FileNames
import AssetRefs.Proofs.DeclarationOrder
import AssetRefs.Proofs.ScanOperations
import AssetRefs.Proofs.Placement
import AssetRefs.Proofs.SessionState
import AssetRefs.Proofs.UnreadableNames
import AssetRefs.Proofs.CallBudgets
import AssetRefs.Proofs.ImportPaths
import AssetRefs.Proofs.PackageScans
import AssetRefs.Proofs.Routes
import AssetRefs.Proofs.NearestModules
import AssetRefs.Proofs.Listings
import AssetRefs.Proofs.SoundTrees
import AssetRefs.Proofs.OpenNodes
import AssetRefs.Proofs.LiteralTokens
import AssetRefs.Proofs.SteadyScans
import AssetRefs.Proofs.PackageMerges
import AssetRefs.Proofs.Subfolders
import AssetRefs.Proofs.ModuleFiles
import AssetRefs.Proofs.SettingsFiles
import AssetRefs.Proofs.CommandSteps
import AssetRefs.Proofs.ExitCodes
import AssetRefs.Proofs.PathGrammar
import AssetRefs.Proofs.RenderedPaths
import AssetRefs.Proofs.LiteralSpellings
import AssetRefs.Proofs.PackageMarkers
import AssetRefs.Proofs.RepeatedFiles
import AssetRefs.Proofs.ModuleDirectives
import AssetRefs.Proofs.Preorder
import AssetRefs.Proofs.JsonGrammar
import AssetRefs.Proofs.CanonicalJson
import AssetRefs.Proofs.JsonTexts
