import SignalSugar.Api
import SignalSugar.Decimal.Read
import SignalSugar.Decimal.Shortest
import SignalSugar.Decimal.Stepwise
import SignalSugar.Error
import SignalSugar.Name.Stem
import SignalSugar.Print.Code
import SignalSugar.Print.Number
import SignalSugar.Proofs.Advancing
import SignalSugar.Proofs.AnalysisNames
import SignalSugar.Proofs.Copies
import SignalSugar.Proofs.Declarations
import SignalSugar.Proofs.DerefMeaning
import SignalSugar.Proofs.DerefScoping
import SignalSugar.Proofs.DerefShapes
import SignalSugar.Proofs.DerefStep
import SignalSugar.Proofs.DerefStructure
import SignalSugar.Proofs.Destructuring
import SignalSugar.Proofs.FreshNames
import SignalSugar.Proofs.Guarantees
import SignalSugar.Proofs.HelperImports
import SignalSugar.Proofs.LabelExpansion
import SignalSugar.Proofs.LabelSites
import SignalSugar.Proofs.Locate
import SignalSugar.Proofs.Positions
import SignalSugar.Proofs.QuotedLiterals
import SignalSugar.Proofs.Reshaping
import SignalSugar.Proofs.Respelling
import SignalSugar.Proofs.Resolution
import SignalSugar.Proofs.RewriteRun
import SignalSugar.Proofs.ScopeAnalysis
import SignalSugar.Proofs.ScopeTable
import SignalSugar.Proofs.SessionSteps
import SignalSugar.Proofs.Shielding
import SignalSugar.Proofs.SourceNodes
import SignalSugar.Proofs.Stem
import SignalSugar.Proofs.Traversal
import SignalSugar.Rewrite.Deref
import SignalSugar.Rewrite.Destructure
import SignalSugar.Rewrite.Labels
import SignalSugar.Rewrite.Normalize
import SignalSugar.Rewrite.Session
import SignalSugar.Scope.Analyze
import SignalSugar.Semantics.Evaluation
import SignalSugar.Scope.Table
import SignalSugar.Syntax.Node
import SignalSugar.Syntax.Operator
import SignalSugar.Syntax.Parse.Class
import SignalSugar.Syntax.Parse.Expression
import SignalSugar.Syntax.Parse.Jsx
import SignalSugar.Syntax.Parse.Modifier
import SignalSugar.Syntax.Parse.Pattern
import SignalSugar.Syntax.Parse.Program
import SignalSugar.Syntax.Parse.State
import SignalSugar.Syntax.Parse.Statement
import SignalSugar.Syntax.Parse.Types
import SignalSugar.Syntax.Scan
import SignalSugar.Syntax.Source
import SignalSugar.Text.Position
import SignalSugar.Text.Quoted
import SignalSugar.Transform
import SignalSugar.Proofs.Flattening
import SignalSugar.Proofs.FlattenedDeclarators
import SignalSugar.Proofs.WritePositions
import SignalSugar.Proofs.ScopeMarks
import SignalSugar.Proofs.ScopeChains
import SignalSugar.Proofs.LanguageScopes
import SignalSugar.Proofs.AnalyzedScopes
import SignalSugar.Proofs.DerefLanguage
