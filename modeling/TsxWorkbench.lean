import TsxWorkbench.Answer
import TsxWorkbench.Proofs.Analysis.Aliases
import TsxWorkbench.Proofs.Analysis.BlockIndex
import TsxWorkbench.Proofs.Analysis.ClassName
import TsxWorkbench.Proofs.Analysis.Exports
import TsxWorkbench.Proofs.Analysis.Optionality
import TsxWorkbench.Proofs.Analysis.Reporting
import TsxWorkbench.Proofs.Analysis.ShownText
import TsxWorkbench.Proofs.Digest
import TsxWorkbench.Proofs.Edit.Displacement
import TsxWorkbench.Proofs.Edit.Insertion
import TsxWorkbench.Proofs.Edit.KeptElement
import TsxWorkbench.Proofs.Edit.PatchedObject
import TsxWorkbench.Proofs.Edit.Precedence
import TsxWorkbench.Proofs.Edit.ReadBack
import TsxWorkbench.Proofs.Edit.Regrouping
import TsxWorkbench.Proofs.Edit.Survival
import TsxWorkbench.Proofs.Edit.Targeting
import TsxWorkbench.Proofs.Edit.WholeNumber
import TsxWorkbench.Proofs.Files.FileName
import TsxWorkbench.Proofs.Files.Rescan
import TsxWorkbench.Proofs.State.Attempts
import TsxWorkbench.Proofs.State.Limits
import TsxWorkbench.Proofs.State.Retention
import TsxWorkbench.Proofs.Text.Coordinates
import TsxWorkbench.Proofs.Text.Nesting
import TsxWorkbench.Proofs.Text.Simultaneous
import TsxWorkbench.Proofs.Utility.Machine.Sheet
import TsxWorkbench.Proofs.Utility.Negation
import TsxWorkbench.Proofs.Utility.Sheet
