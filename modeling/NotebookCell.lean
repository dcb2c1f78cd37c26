import NotebookCell.Main
import NotebookCell.Walk
import NotebookCell.Proofs.Grammar
import NotebookCell.Proofs.PublishedNames
import NotebookCell.Proofs.Slots
import NotebookCell.Proofs.KeptText
import NotebookCell.Proofs.EditRanges
import NotebookCell.Proofs.CellText
import NotebookCell.Proofs.Locality
import NotebookCell.Proofs.Acceptance
import NotebookCell.Proofs.StatementText
import NotebookCell.Proofs.FreshNames
import NotebookCell.Proofs.WholeText
import NotebookCell.Proofs.MissingValues
import NotebookCell.Proofs.DraftRuns
import NotebookCell.Proofs.Splicing
import NotebookCell.Proofs.EditsApart
import NotebookCell.Proofs.UntouchedCells
import NotebookCell.Proofs.OverriddenOptions
import NotebookCell.Proofs.SourceOrder
import NotebookCell.Proofs.TwoRuns
import NotebookCell.Proofs.DeclarationText
import NotebookCell.Proofs.ImportsInTurn
import NotebookCell.Proofs.Refusals
import NotebookCell.Proofs.AwaitedText
import NotebookCell.Proofs.NestedWrappings
import NotebookCell.Proofs.ImportOrder
import NotebookCell.Proofs.OffsetsBehind
import NotebookCell.Proofs.Tours
import NotebookCell.Proofs.Calls
import NotebookCell.Proofs.PrunedWalks
import NotebookCell.Json.Document
import NotebookCell.Proofs.PrintedValues
import NotebookCell.Proofs.ReportedRuns
