import PromptSheet.CommandLine.Report
import PromptSheet.Main
import PromptSheet.Proofs.BlockEnds
import PromptSheet.Proofs.Frames
import PromptSheet.Proofs.OnePass
import PromptSheet.Proofs.Scanning
import PromptSheet.Proofs.Trimming
import PromptSheet.Proofs.WrittenTag
import PromptSheet.Proofs.PrintParse
import PromptSheet.Proofs.Escaped
import PromptSheet.Proofs.FillIn
import PromptSheet.Proofs.QuotedPlaces
import PromptSheet.Proofs.BundledPlaces
import PromptSheet.Proofs.QuotedBindings
import PromptSheet.Proofs.QuotedTexts
import PromptSheet.Proofs.RenderingLaws
import PromptSheet.Proofs.Segments
import PromptSheet.Proofs.Concatenation
import PromptSheet.Proofs.Expansion
import PromptSheet.Proofs.FilePlaces
import PromptSheet.Proofs.Listing
import PromptSheet.Proofs.ReadableTag
import PromptSheet.Proofs.Canonical
import PromptSheet.Proofs.BundledDocuments
import PromptSheet.Proofs.EngineHistory
import PromptSheet.Proofs.MovedImages
import PromptSheet.Proofs.SectionBySection
import PromptSheet.Proofs.MissingSections
import PromptSheet.Proofs.ReachedTemplates
import PromptSheet.Proofs.BrokenInclusions
import PromptSheet.Proofs.LibraryHistory
import PromptSheet.Proofs.PrunedLines
import PromptSheet.Proofs.PrunedParents
import PromptSheet.Proofs.PrunedTwice
import PromptSheet.Proofs.WrittenBlocks
import PromptSheet.Proofs.Paths
import PromptSheet.Proofs.SettledLabels
import PromptSheet.Proofs.ReadNames
import PromptSheet.Proofs.SectionLookup
import PromptSheet.Proofs.SpelledSwitches
import PromptSheet.Proofs.WrittenFiles
import PromptSheet.Proofs.GeneratedFiles
import PromptSheet.Proofs.Comments
import PromptSheet.Proofs.QuotedScalars
import PromptSheet.Proofs.ConvertedData
import PromptSheet.Proofs.ListedEntries
import PromptSheet.Proofs.ListedDocuments
import PromptSheet.Proofs.FoldedLines
import PromptSheet.Proofs.SpacedDirective
import PromptSheet.Proofs.StateDocuments
import PromptSheet.Proofs.CheckedParse
