import TracePipeline.Main
import TracePipeline.CommandLine.Directory
import TracePipeline.Pipeline.Reading
import TracePipeline.Proofs.Ledger
import TracePipeline.Proofs.WalkStep
import TracePipeline.Proofs.Outline
import TracePipeline.Proofs.Conservation
import TracePipeline.Proofs.MergePass
import TracePipeline.Proofs.ToolAllocation
import TracePipeline.Proofs.Labels
import TracePipeline.Proofs.ToolRivals
import TracePipeline.Proofs.StepIds
import TracePipeline.Proofs.Findings
import TracePipeline.Proofs.Splicing
import TracePipeline.Proofs.SiblingOrder
import TracePipeline.Proofs.Scopes
import TracePipeline.Proofs.Shape
import TracePipeline.Proofs.Checkouts
import TracePipeline.Proofs.Declarations
import TracePipeline.Proofs.NameBounds
import TracePipeline.Proofs.ScriptCommands
import TracePipeline.Proofs.CommandRuns
import TracePipeline.Proofs.DocumentRoundTrip
import TracePipeline.Proofs.ReadingOrder
import TracePipeline.Proofs.ShellCuts
import TracePipeline.Proofs.KeptText
import TracePipeline.Proofs.SplitShells
import TracePipeline.Proofs.ShellReading
import TracePipeline.Proofs.ShellArguments
import TracePipeline.Proofs.HereDocuments
import TracePipeline.Proofs.PrettyLines
import TracePipeline.Proofs.Placeholders
import TracePipeline.Proofs.IdCharacters
import TracePipeline.Proofs.OrderIds
import TracePipeline.Proofs.Occurrences
import TracePipeline.Proofs.Detection
import TracePipeline.Proofs.SpanNulls
import TracePipeline.Proofs.Records
import TracePipeline.Proofs.NameCharacters
import TracePipeline.Proofs.ContainerArguments
import TracePipeline.Proofs.SearchOrder
import TracePipeline.Proofs.JsonAcceptance
import TracePipeline.Proofs.Payloads
import TracePipeline.Proofs.PreOrder
