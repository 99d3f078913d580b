import Multimethod.Table
import Multimethod.Number.Decimal
import Multimethod.Number.Integer
import Multimethod.Number.Binary
import Multimethod.Number.Shortest
import Multimethod.Text.Blank
import Multimethod.Text.Hidden
import Multimethod.Text.Quoted
import Multimethod.Class
import Multimethod.Class.Node
import Multimethod.Ty
import Multimethod.Box
import Multimethod.Descriptor
import Multimethod.Conversion
import Multimethod.Script
import Multimethod.Event
import Multimethod.TypeTable
import Multimethod.World
import Multimethod.Pointer
import Multimethod.Boxing
import Multimethod.Run
import Multimethod.Evaluation
import Multimethod.Function
import Multimethod.Dispatcher
import Multimethod.Proofs.Classes
import Multimethod.Proofs.Numbering
import Multimethod.Proofs.Change
import Multimethod.Proofs.Traversal
import Multimethod.Proofs.Steps
import Multimethod.Proofs.Program
import Multimethod.Proofs.Fitting
import Multimethod.Proofs.Reading
import Multimethod.Proofs.Runs
import Multimethod.Proofs.Representation
import Multimethod.Proofs.Convertibility
import Multimethod.Proofs.WellFormed
import Multimethod.Proofs.Depth
import Multimethod.Proofs.Arguments
import Multimethod.Proofs.Persistence
import Multimethod.Proofs.Delivery
import Multimethod.Proofs.Identity
import Multimethod.Proofs.Converting
import Multimethod.Proofs.Unboxing
import Multimethod.Proofs.Acceptance
import Multimethod.Proofs.Aliases
import Multimethod.Proofs.Synonyms
import Multimethod.Proofs.Shadowing
import Multimethod.Proofs.LoadOrder
import Multimethod.Proofs.Makers
import Multimethod.Proofs.Probing
import Multimethod.Proofs.Instances
import Multimethod.Proofs.Unregistered
import Multimethod.Proofs.Naming
import Multimethod.Proofs.Removal
import Multimethod.Proofs.Overriding
import Multimethod.Proofs.Hierarchy
import Multimethod.Proofs.Views
import Multimethod.Proofs.Results
import Multimethod.Proofs.Records
import Multimethod.Proofs.Registering
import Multimethod.Proofs.NullValues
import Multimethod.Proofs.Queries
import Multimethod.Proofs.Nesting
import Multimethod.Proofs.Calling
import Multimethod.Proofs.Numerals
import Multimethod.Proofs.Integers
