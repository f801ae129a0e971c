import PageDiff.Browser.Rehearsed
import PageDiff.Command.Perform
import PageDiff.Main
import PageDiff.Proofs.Script.Addresses
import PageDiff.Proofs.Script.Meaning
import PageDiff.Proofs.Script.Naming
import PageDiff.Proofs.Script.Refusal
import PageDiff.Proofs.Script.Beginnings
import PageDiff.Proofs.Script.Layout
import PageDiff.Proofs.Script.Independence
import PageDiff.Proofs.Script.Files
import PageDiff.Proofs.Script.AddressText
import PageDiff.Schema.Case
import PageDiff.Suite.Selection
import PageDiff.Proofs.Disk.Place
import PageDiff.Proofs.Disk.Way
import PageDiff.Proofs.Disk.Tree
import PageDiff.Proofs.Disk.Frame
import PageDiff.Proofs.Disk.Glob
import PageDiff.Proofs.Run.Carries
import PageDiff.Proofs.Run.Frame
import PageDiff.Proofs.Run.OutputDirs
import PageDiff.Proofs.Run.Moments
import PageDiff.Proofs.Run.Evidence
import PageDiff.Proofs.Run.ArtifactNames
import PageDiff.Proofs.Run.Verdict
import PageDiff.Proofs.Run.Plan
import PageDiff.Proofs.Run.Mismatch
import PageDiff.Proofs.Run.Agreement
import PageDiff.Proofs.Run.Ledger
import PageDiff.Proofs.Run.Lifecycle
import PageDiff.Proofs.Run.Turns
import PageDiff.Proofs.Run.Compiling
import PageDiff.Proofs.Run.Confinement
import PageDiff.Proofs.Url.Composition
import PageDiff.Proofs.Image.Comparison
import PageDiff.Proofs.Image.Laws
import PageDiff.Proofs.Run.Interleaving
import PageDiff.Proofs.Run.Release
import PageDiff.Proofs.Run.FailureLines
import PageDiff.Proofs.Command.FailureReport
import PageDiff.Proofs.Command.Printing
import PageDiff.Proofs.Config.Saving
import PageDiff.Proofs.Command.Viewports
import PageDiff.Proofs.Run.Document
import PageDiff.Proofs.Run.SharedArtifacts
import PageDiff.Proofs.Schema.Records
