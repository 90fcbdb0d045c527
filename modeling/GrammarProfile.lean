import GrammarProfile.Grammar.Registry
import GrammarProfile.Main
import GrammarProfile.Proofs.Again
import GrammarProfile.Proofs.Mandatory
import GrammarProfile.Proofs.Moved
import GrammarProfile.Proofs.Occurrences
import GrammarProfile.Proofs.Precedence
import GrammarProfile.Proofs.Room
import GrammarProfile.Proofs.Selections
import GrammarProfile.Proofs.Unreached
import GrammarProfile.Proofs.WellFormed
import GrammarProfile.Proofs.Written
import GrammarProfile.Proofs.BlockText
import GrammarProfile.Proofs.Collections
import GrammarProfile.Proofs.Documents
import GrammarProfile.Proofs.LaidOut
import GrammarProfile.Proofs.TagText
import GrammarProfile.Proofs.CollapseTwice
import GrammarProfile.Proofs.EditedEntries
import GrammarProfile.Proofs.ExpandTwice
import GrammarProfile.Proofs.ScaffoldTree
import GrammarProfile.Proofs.LaidBlocks
import GrammarProfile.Proofs.LaidDocuments
import GrammarProfile.Proofs.Canonical
import GrammarProfile.Proofs.Forms
import GrammarProfile.Proofs.PrintedPlaces
import GrammarProfile.Proofs.AnyOrder
import GrammarProfile.Proofs.RequiredChains
import GrammarProfile.Proofs.Conflicts
import GrammarProfile.Proofs.ReorderTwice
import GrammarProfile.Proofs.CommentedProfiles
import GrammarProfile.Proofs.ScaffoldTexts
import GrammarProfile.Proofs.Bounds
import GrammarProfile.Proofs.GroupNumbers
import GrammarProfile.Proofs.Offered
import GrammarProfile.Proofs.Untouched
import GrammarProfile.Proofs.OuterChoices
import GrammarProfile.Proofs.RestrictedPatterns
import GrammarProfile.Proofs.Anchored
import GrammarProfile.Proofs.InferredRoot
import GrammarProfile.Proofs.Extensions
import GrammarProfile.Proofs.FlowLists
import GrammarProfile.Proofs.UnreadEntries
import GrammarProfile.Proofs.LocatedFindings
import GrammarProfile.Proofs.NestedBounds
import GrammarProfile.Proofs.FileChanges
import GrammarProfile.Proofs.RecordedPlaces
import GrammarProfile.Proofs.KeptLines
