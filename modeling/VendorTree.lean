import VendorTree.Action
import VendorTree.Command.Basic
import VendorTree.Command.Check
import VendorTree.Command.Create
import VendorTree.Command.Prune
import VendorTree.CommandLine.Options
import VendorTree.CommandLine.Request
import VendorTree.Config.Basic
import VendorTree.Config.Schema
import VendorTree.Config.Writer
import VendorTree.Console.Basic
import VendorTree.Console.Colour
import VendorTree.Console.Layout
import VendorTree.Console.Literal.Basic
import VendorTree.Console.Literal.Token
import VendorTree.Console.Markup
import VendorTree.Console.Style
import VendorTree.Data
import VendorTree.Decimal.Basic
import VendorTree.Decimal.Shortest
import VendorTree.Engine
import VendorTree.Fault
import VendorTree.FileKind
import VendorTree.FileSystem.Basic
import VendorTree.FileSystem.Document
import VendorTree.FileSystem.Image
import VendorTree.FileSystem.RealPath
import VendorTree.FileSystem.Removal
import VendorTree.FileSystem.Snapshot
import VendorTree.Listing
import VendorTree.Loading
import VendorTree.Location
import VendorTree.Lock
import VendorTree.Main
import VendorTree.Moment
import VendorTree.NestedVendor
import VendorTree.Package
import VendorTree.Path
import VendorTree.Policy
import VendorTree.Preservation
import VendorTree.Program
import VendorTree.Proofs.Accounting
import VendorTree.Proofs.ActionSteps
import VendorTree.Proofs.Alike
import VendorTree.Proofs.Calls
import VendorTree.Proofs.Clearing
import VendorTree.Proofs.CommandSteps
import VendorTree.Proofs.Containment
import VendorTree.Proofs.DepthFirst
import VendorTree.Proofs.DescribedConfig
import VendorTree.Proofs.DocumentLines
import VendorTree.Proofs.Drafts
import VendorTree.Proofs.EntryPath
import VendorTree.Proofs.KeyedRuns
import VendorTree.Proofs.LinkFree
import VendorTree.Proofs.Listed
import VendorTree.Proofs.ListingOrder
import VendorTree.Proofs.LoadingEnds
import VendorTree.Proofs.Losses
import VendorTree.Proofs.Matching
import VendorTree.Proofs.Messages
import VendorTree.Proofs.Observed
import VendorTree.Proofs.PassedCalls
import VendorTree.Proofs.Plan
import VendorTree.Proofs.PlanLoop
import VendorTree.Proofs.PlannedRuns
import VendorTree.Proofs.ProjectArguments
import VendorTree.Proofs.ProjectRuns
import VendorTree.Proofs.QuotedTexts
import VendorTree.Proofs.ReaderLimits
import VendorTree.Proofs.Replacing
import VendorTree.Proofs.ResolvedConfig
import VendorTree.Proofs.Route
import VendorTree.Proofs.RunEnds
import VendorTree.Proofs.SavedConfig
import VendorTree.Proofs.SavingEnds
import VendorTree.Proofs.SeparateProjects
import VendorTree.Proofs.Spared
import VendorTree.Proofs.SparedRuns
import VendorTree.Proofs.Spellings
import VendorTree.Proofs.Stages
import VendorTree.Proofs.StaleListings
import VendorTree.Proofs.StoreTree
import VendorTree.Proofs.Survivors
import VendorTree.Proofs.SweepOrder
import VendorTree.Proofs.Unions
import VendorTree.Proofs.ValueForms
import VendorTree.Proofs.VendorContainment
import VendorTree.Proofs.VendorDirectory
import VendorTree.Proofs.VendorRuns
import VendorTree.Proofs.WrittenConfig
import VendorTree.Pruning
import VendorTree.Record
import VendorTree.Removal
import VendorTree.Repeats
import VendorTree.Report
import VendorTree.Saving
import VendorTree.Schema
import VendorTree.Stage
import VendorTree.Store.Basic
import VendorTree.Store.Walk
import VendorTree.Sweep
import VendorTree.Text.Blank
import VendorTree.Text.CaseTable
import VendorTree.Text.Digits
import VendorTree.Text.Lower
import VendorTree.Text.Pieces
import VendorTree.Text.PrintableTable
import VendorTree.Text.Quoted
import VendorTree.Text.Width
import VendorTree.Text.WidthTable
import VendorTree.Text.Word
import VendorTree.Text.WordTable
import VendorTree.Toml.Draft
import VendorTree.Toml.Number
import VendorTree.Toml.Reader
import VendorTree.Toml.Text
import VendorTree.Toml.Writer
import VendorTree.Proofs.OutermostVendors
import VendorTree.Proofs.EmptyDirectories
import VendorTree.Proofs.StageSequences
import VendorTree.Proofs.AcceptedConfig
import VendorTree.Proofs.WrittenPatterns
import VendorTree.Proofs.PlainLetters
import VendorTree.Proofs.GonePaths
import VendorTree.Proofs.RemovalTrace
import VendorTree.Proofs.ExitCodes
import VendorTree.Proofs.EntryOrder
import VendorTree.Proofs.PlainTexts
import VendorTree.Proofs.TableLines
import VendorTree.Proofs.ShownJudgements
import VendorTree.Proofs.ProtectedDirectory
import VendorTree.Proofs.CreatedConfig
import VendorTree.Proofs.JoinedPaths
import VendorTree.Proofs.SweepCalls
import VendorTree.Proofs.UnusedFiles
import VendorTree.Proofs.UniqueProjects
