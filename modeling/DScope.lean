import DScope.Session
import DScope.Symbol.Text
import DScope.Proofs.Transparency
import DScope.Proofs.Cancellation
import DScope.Proofs.ImportCycles
import DScope.Proofs.BigStep
import DScope.Proofs.ValueTyping
import DScope.Proofs.TopFrame
import DScope.Proofs.Hierarchy
import DScope.Proofs.Suppression
import DScope.Proofs.Bounds
import DScope.Proofs.QualifiedNames
import DScope.Proofs.SelfConversion
import DScope.Proofs.ConstantOrder
import DScope.Proofs.Unfolding
import DScope.Proofs.Specificity
import DScope.Proofs.TemplateArguments
import DScope.Proofs.VariadicCapture
import DScope.Proofs.Sizes
import DScope.Proofs.Reexports
import DScope.Proofs.Indexing
import DScope.Proofs.ConversionEffects
import DScope.Proofs.CallAgreement
import DScope.Proofs.Locals
import DScope.Proofs.PackageTree
import DScope.Proofs.Properties
import DScope.Proofs.Rejection
import DScope.Proofs.Enumerators
import DScope.Proofs.StatementWalk
import DScope.Proofs.BindingSearch
