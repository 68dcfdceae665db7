import FieldCopy.Command.Execution
import FieldCopy.Files.Disk
import FieldCopy.Main
import FieldCopy.Proofs.Recording
import FieldCopy.Proofs.PlanningOrder
import FieldCopy.Proofs.Accounting
import FieldCopy.Proofs.Loops
import FieldCopy.Proofs.Propagation
import FieldCopy.Proofs.Siblings
import FieldCopy.Proofs.Endpoints
import FieldCopy.Proofs.Catalog.Paths
import FieldCopy.Proofs.Catalog.Declaring
import FieldCopy.Proofs.Loading.Declarations
import FieldCopy.Proofs.Loading.Names
import FieldCopy.Proofs.TypeRecursion
import FieldCopy.Proofs.Loading.TypeTexts
import FieldCopy.Proofs.Loading.Fitting
import FieldCopy.Proofs.Loading.Finding
import FieldCopy.Proofs.Loading.Proper
import FieldCopy.Proofs.Loading.Running
import FieldCopy.Proofs.Loading.OwnNames
import FieldCopy.Proofs.Catalog.Numbers
import FieldCopy.Proofs.Catalog.Operations
import FieldCopy.Proofs.Catalog.Naming
import FieldCopy.Proofs.Catalog.Pointers
import FieldCopy.Proofs.Catalog.WrittenPaths
import FieldCopy.Proofs.Catalog.Functions
import FieldCopy.Proofs.Catalog.Marking
import FieldCopy.Proofs.Grounded
import FieldCopy.Proofs.Loading.Building
import FieldCopy.Proofs.GroundedGeneration
import FieldCopy.Proofs.Matching.Members
import FieldCopy.Proofs.Matching.Outcomes
import FieldCopy.Proofs.Directives.Precedence
import FieldCopy.Proofs.Directives.Acceptance
import FieldCopy.Proofs.Directives.Reordering
import FieldCopy.Proofs.Directives.LineForms
import FieldCopy.Proofs.Matching.Typing
import FieldCopy.Proofs.Matching.Casting
import FieldCopy.Proofs.Isolation.Chains
import FieldCopy.Proofs.Isolation
import FieldCopy.Proofs.Isolation.Flags
import FieldCopy.Proofs.Hygiene.Bindings
import FieldCopy.Proofs.Hygiene.References
import FieldCopy.Proofs.Hygiene
import FieldCopy.Proofs.Conflation.Extents
import FieldCopy.Proofs.Conflation.TypeForms
import FieldCopy.Proofs.Conflation.Identity
import FieldCopy.Proofs.Conflation.Finding
import FieldCopy.Proofs.Conflation.Meaning
import FieldCopy.Proofs.Conflation
import FieldCopy.Proofs.ItemOrder.Sketches
import FieldCopy.Proofs.ItemOrder.Reports
import FieldCopy.Proofs.ItemOrder.Reordering
import FieldCopy.Proofs.ItemOrder
import FieldCopy.Proofs.Canonical.Compact
import FieldCopy.Proofs.Canonical.Parsing
import FieldCopy.Proofs.Canonical.Words
import FieldCopy.Proofs.Canonical.Shapes
import FieldCopy.Proofs.Canonical
import FieldCopy.Proofs.DeclarationOrder
import FieldCopy.Proofs.KnownFailures
import FieldCopy.Proofs.Failures
import FieldCopy.Proofs.CalledSiblings
import FieldCopy.Proofs.PlanShapes
import FieldCopy.Proofs.Loading.CanonicalNames
import FieldCopy.Proofs.Loading.Traversal
import FieldCopy.Proofs.Parsing.Fronts
import FieldCopy.Proofs.Parsing.Types
import FieldCopy.Proofs.Parsing.Names
import FieldCopy.Proofs.Loading.Fields
import FieldCopy.Proofs.Composition
import FieldCopy.Proofs.Wrappers
import FieldCopy.Proofs.PlanFailures
import FieldCopy.Proofs.PlanWarnings
import FieldCopy.Proofs.Matching.Capabilities
import FieldCopy.Proofs.Matching.Unmatched
import FieldCopy.Proofs.Matching.Spelling
import FieldCopy.Proofs.Matching.Untagged
import FieldCopy.Proofs.Matching.Following
import FieldCopy.Proofs.Directives.Overrides
import FieldCopy.Proofs.Directives.Conservation
import FieldCopy.Proofs.HookOrder
import FieldCopy.Proofs.AssignedValues
import FieldCopy.Proofs.WholeValues
import FieldCopy.Proofs.ScalarCasts
import FieldCopy.Proofs.Canonical.Types
import FieldCopy.Proofs.Loading.Written
import FieldCopy.Proofs.Elements.Texts
import FieldCopy.Proofs.Elements.Names
import FieldCopy.Proofs.Elements.Paths
import FieldCopy.Proofs.Elements.Shown
import FieldCopy.Proofs.Elements.Stored
import FieldCopy.Proofs.Elements
import FieldCopy.Proofs.CallShapes
import FieldCopy.Proofs.Receivers
import FieldCopy.Proofs.ParameterNames
import FieldCopy.Proofs.FieldAccess
import FieldCopy.Proofs.Spacing
import FieldCopy.Proofs.DocumentedTraits
import FieldCopy.Proofs.Merging
import FieldCopy.Proofs.ReportOrder
import FieldCopy.Proofs.Files.Paths
import FieldCopy.Proofs.Files.Disks
import FieldCopy.Proofs.Files.Effects
