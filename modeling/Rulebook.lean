import Rulebook.Config.Reader
import Rulebook.Engine
import Rulebook.Proofs.Evaluation.Run
import Rulebook.Proofs.Evaluation.Steps
import Rulebook.Proofs.Evaluation.Dependence
import Rulebook.Proofs.Evaluation.Supply
import Rulebook.Proofs.Evaluation.Checks
import Rulebook.Proofs.Evaluation.Typing
import Rulebook.Proofs.Evaluation.Construction
import Rulebook.Proofs.Resolution.Order
import Rulebook.Proofs.Resolution.Insertion
import Rulebook.Proofs.Engine.Execution
import Rulebook.Proofs.Engine.MissingReferences
import Rulebook.Proofs.Engine.CallOrder
import Rulebook.Proofs.Data.Induction
import Rulebook.Proofs.Equality.Datum
import Rulebook.Proofs.Equality.Tree
import Rulebook.Proofs.Number.Conversion
import Rulebook.Proofs.Data.Numbers
import Rulebook.Proofs.Operator.RawScalars
import Rulebook.Proofs.Number.ReadingBack
import Rulebook.Proofs.Number.Shortest
import Rulebook.Proofs.Number.DoubleText
import Rulebook.Proofs.Data.Rendering
import Rulebook.Proofs.Data.RoundTrip
import Rulebook.Proofs.Operator.NativeForms
import Rulebook.Proofs.Evaluation.Rejection
import Rulebook.Proofs.Evaluation.Reporting
import Rulebook.Proofs.Engine.ErrorClasses
import Rulebook.Proofs.Engine.Consistency
import Rulebook.Proofs.Engine.Addition
import Rulebook.Proofs.Engine.Ties
import Rulebook.Proofs.Registry.Growth
import Rulebook.Proofs.Registry.Relinking
import Rulebook.Proofs.Equality.Conversion
import Rulebook.Proofs.Registry.Sharing
import Rulebook.Proofs.Equality.Interchange
import Rulebook.Proofs.Evaluation.RecordSlots
import Rulebook.Proofs.Evaluation.Narrowing
import Rulebook.Proofs.Engine.Irrelevance
import Rulebook.Proofs.Operator.Algebra
import Rulebook.Proofs.Data.PropertyPath
import Rulebook.Proofs.Data.Decoding
import Rulebook.Proofs.Data.Encoding
import Rulebook.Proofs.Number.DecimalForm
import Rulebook.Proofs.Data.Limit
import Rulebook.Proofs.Operator.Texts
import Rulebook.Proofs.Operator.Scalars
import Rulebook.Proofs.Evaluation.Responses
import Rulebook.Proofs.Engine.Configuration
import Rulebook.Proofs.Number.Shift
import Rulebook.Proofs.Number.FloatText
import Rulebook.Proofs.Data.Exactness
