import DefiComposer.Main
import DefiComposer.Persistence.Composition
import DefiComposer.Persistence.Forms
import DefiComposer.Proofs.Maps
import DefiComposer.Proofs.Operations
import DefiComposer.Proofs.Runs
import DefiComposer.Proofs.WellFormed
import DefiComposer.Proofs.Graphs
import DefiComposer.Proofs.Sweep
import DefiComposer.Proofs.WiringOrder
import DefiComposer.Proofs.LineBreaks
import DefiComposer.Proofs.Renumbering
import DefiComposer.Proofs.Comments
import DefiComposer.Proofs.Parameters
import DefiComposer.Proofs.Findings
import DefiComposer.Proofs.Placeholders
import DefiComposer.Proofs.CheckedRuns
import DefiComposer.Proofs.Names
import DefiComposer.Proofs.GraphFindings
import DefiComposer.Proofs.Acceptance
import DefiComposer.Proofs.Attempts
import DefiComposer.Proofs.Reconnecting
import DefiComposer.Proofs.Numbering
import DefiComposer.Proofs.CodeInputs
import DefiComposer.Proofs.Scaffolds
import DefiComposer.Proofs.JsonNumbers
import DefiComposer.Proofs.JsonText
import DefiComposer.Proofs.WrittenForms
import DefiComposer.Proofs.Doubles
import DefiComposer.Proofs.Unordered
import DefiComposer.Proofs.JsonBounds
import DefiComposer.Proofs.Persistence
import DefiComposer.Proofs.Ranges
import DefiComposer.Proofs.Releases
import DefiComposer.Proofs.Places
import DefiComposer.Proofs.Removals
import DefiComposer.Proofs.RemovalFindings
import DefiComposer.Proofs.EditFindings
import DefiComposer.Proofs.LetterCase
import DefiComposer.Proofs.Tiers
import DefiComposer.Proofs.Resolvable
import DefiComposer.Proofs.WiringListing
import DefiComposer.Proofs.Atomicity
import DefiComposer.Proofs.Layout
import DefiComposer.Proofs.Declarations
import DefiComposer.Proofs.Frames
import DefiComposer.Proofs.Suffixes
import DefiComposer.Proofs.Independence
import DefiComposer.Proofs.Conversions
import DefiComposer.Proofs.WiringBlock
import DefiComposer.Proofs.Words
import DefiComposer.Proofs.ModuleNames
import DefiComposer.Proofs.SingleLine
import DefiComposer.Proofs.Flags
import DefiComposer.Proofs.CatalogSearch
import DefiComposer.Proofs.ConstantNames
