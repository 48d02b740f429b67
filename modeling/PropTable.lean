import PropTable.Journal
import PropTable.Page
import PropTable.Phrase
import PropTable.Proofs.Agreement
import PropTable.Proofs.Answers
import PropTable.Proofs.Assignments
import PropTable.Proofs.Bars
import PropTable.Proofs.Blanks
import PropTable.Proofs.Blocks
import PropTable.Proofs.Chains
import PropTable.Proofs.Columns
import PropTable.Proofs.Compilation
import PropTable.Proofs.EditedTables
import PropTable.Proofs.Enumeration
import PropTable.Proofs.Escaping
import PropTable.Proofs.Faults
import PropTable.Proofs.FormulaTable
import PropTable.Proofs.Grafting
import PropTable.Proofs.Grammar
import PropTable.Proofs.Levels
import PropTable.Proofs.Lockstep
import PropTable.Proofs.Merging
import PropTable.Proofs.Moves
import PropTable.Proofs.Numbering
import PropTable.Proofs.Postfix
import PropTable.Proofs.Postorder
import PropTable.Proofs.Prefixes
import PropTable.Proofs.Presentations
import PropTable.Proofs.PrettyLabels
import PropTable.Proofs.Printing
import PropTable.Proofs.ReadBack
import PropTable.Proofs.Readable
import PropTable.Proofs.Regrouping
import PropTable.Proofs.Renaming
import PropTable.Proofs.Requests
import PropTable.Proofs.Safety
import PropTable.Proofs.ScanStates
import PropTable.Proofs.Skeleton
import PropTable.Proofs.Spellings
import PropTable.Proofs.Stacks
import PropTable.Proofs.Strictness
import PropTable.Proofs.TruthTable
import PropTable.Proofs.Unclosed
import PropTable.Session
