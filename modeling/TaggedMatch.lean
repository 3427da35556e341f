import TaggedMatch.Declaration
import TaggedMatch.Diagnostic
import TaggedMatch.Environment
import TaggedMatch.EvalError
import TaggedMatch.Host
import TaggedMatch.Inspect.Build
import TaggedMatch.Inspect.Run
import TaggedMatch.Interner
import TaggedMatch.Pattern.Basic
import TaggedMatch.Pattern.Check
import TaggedMatch.Pattern.Match
import TaggedMatch.Pattern.Mistake
import TaggedMatch.Registry.Basic
import TaggedMatch.Registry.Default
import TaggedMatch.Registry.Display
import TaggedMatch.Registry.Faults
import TaggedMatch.Span
import TaggedMatch.Text.CodeRange
import TaggedMatch.Text.Combining
import TaggedMatch.Text.Quoted
import TaggedMatch.Text.Unprinted
import TaggedMatch.UnionCell
import TaggedMatch.Value.Basic
import TaggedMatch.Value.Conformance
import TaggedMatch.Value.Construct
import TaggedMatch.Value.Default
import TaggedMatch.Value.Text
import TaggedMatch.Proofs.Traversal
import TaggedMatch.Proofs.Registry.Growth
import TaggedMatch.Proofs.Registry.Names
import TaggedMatch.Proofs.Value.Growth
import TaggedMatch.Proofs.Value.Default
import TaggedMatch.Proofs.Value.Construct
import TaggedMatch.Proofs.Value.DefaultConstruction
import TaggedMatch.Proofs.Host.Ending
import TaggedMatch.Proofs.Host.Meeting
import TaggedMatch.Proofs.Session
import TaggedMatch.Proofs.Pattern.Draft
import TaggedMatch.Proofs.Pattern.Growth
import TaggedMatch.Proofs.Host.Recording
import TaggedMatch.Proofs.Host.Contract
import TaggedMatch.Proofs.Value.Form
import TaggedMatch.Proofs.Pattern.BinderTypes
import TaggedMatch.Proofs.Pattern.Soundness
import TaggedMatch.Proofs.Pattern.Reference
import TaggedMatch.Proofs.Registry.Validity
import TaggedMatch.Proofs.Pattern.Refinement
import TaggedMatch.Proofs.Registry.Acceptance
import TaggedMatch.Proofs.UnionCell
import TaggedMatch.Proofs.Pattern.Binders
import TaggedMatch.Proofs.Environment.Bindings
import TaggedMatch.Proofs.Inspect.FirstMatch
import TaggedMatch.Proofs.Inspect.NoLeak
import TaggedMatch.Proofs.Registry.Operations
import TaggedMatch.Proofs.Registry.WriteOnce
import TaggedMatch.Proofs.Registry.WellFormed
import TaggedMatch.Proofs.Registry.Indexes
import TaggedMatch.Proofs.Registry.Rendering
import TaggedMatch.Proofs.Registry.Constructible
import TaggedMatch.Proofs.UnionCell.Creation
import TaggedMatch.Proofs.Pattern.Selectors
import TaggedMatch.Proofs.Pattern.Arrangement
import TaggedMatch.Proofs.Value.Inhabitation
import TaggedMatch.Proofs.Host.Transcript
import TaggedMatch.Proofs.Pattern.Preservation
import TaggedMatch.Proofs.Pattern.Dialogue
import TaggedMatch.Proofs.Pattern.Protocol
import TaggedMatch.Proofs.Pattern.GuardScopes
import TaggedMatch.Proofs.Inspect.Building
import TaggedMatch.Proofs.Pattern.Enclosing
import TaggedMatch.Proofs.Inspect.Alternatives
import TaggedMatch.Proofs.Inspect.Subjects
import TaggedMatch.Proofs.Value.Equality
import TaggedMatch.Proofs.Host.Relating
import TaggedMatch.Proofs.Pattern.Congruence
import TaggedMatch.Proofs.Inspect.Events
import TaggedMatch.Proofs.Value.Rebuilding
import TaggedMatch.Proofs.Inspect.Forms
import TaggedMatch.Proofs.Inspect.States
import TaggedMatch.Proofs.Pattern.Findings
import TaggedMatch.Proofs.Pattern.Mistakes
import TaggedMatch.Proofs.Inspect.Reports
import TaggedMatch.Proofs.Inspect.UnknownSubjects
import TaggedMatch.Proofs.Environment.Operations
import TaggedMatch.Proofs.Inspect.Containment
import TaggedMatch.Proofs.Registry.Repetitions
import TaggedMatch.Proofs.Environment.Assignment
import TaggedMatch.Proofs.Interner.Indexed
import TaggedMatch.Proofs.Interner.Handles
import TaggedMatch.Proofs.Pattern.Labels
