import EntitySchema.Editor.Json
import EntitySchema.Main
import EntitySchema.Proofs.Recovery
import EntitySchema.Proofs.Shape
import EntitySchema.Proofs.Tiling
import EntitySchema.Proofs.Spelling
import EntitySchema.Proofs.Names
import EntitySchema.Proofs.Rendering
import EntitySchema.Proofs.Edit
import EntitySchema.Proofs.Rewording
import EntitySchema.Proofs.Renaming
import EntitySchema.Proofs.Session
import EntitySchema.Proofs.Convergence
import EntitySchema.Proofs.Debounce
import EntitySchema.Proofs.Segmentation
import EntitySchema.Proofs.Order
import EntitySchema.Proofs.Leaves
import EntitySchema.Proofs.Nesting
import EntitySchema.Proofs.Resolution
import EntitySchema.Proofs.Shift
import EntitySchema.Proofs.Concatenation
import EntitySchema.Proofs.Placement
import EntitySchema.Proofs.Cursors
import EntitySchema.Proofs.EditorRenaming
import EntitySchema.Proofs.EditorOutline
import EntitySchema.Proofs.Counterparts
import EntitySchema.Proofs.FreshNames
import EntitySchema.Proofs.Pieces
import EntitySchema.Proofs.RenameLaws
import EntitySchema.Proofs.Repetition
import EntitySchema.Proofs.DanglingReferences
import EntitySchema.Proofs.SuggestedRelations
import EntitySchema.Proofs.Isolation
import EntitySchema.Proofs.Positions
import EntitySchema.Proofs.Faithfulness
import EntitySchema.Proofs.CompletedLines
import EntitySchema.Proofs.Selection
import EntitySchema.Proofs.CursorOffsets
import EntitySchema.Proofs.CursorLines
import EntitySchema.Proofs.Misfits
import EntitySchema.Proofs.DiagnosticPlaces
import EntitySchema.Proofs.LineShapes
import EntitySchema.Proofs.Joins
import EntitySchema.Proofs.Configuration
import EntitySchema.Proofs.Consumption
import EntitySchema.Proofs.Reports
