import IdMint.CompositeKey
import IdMint.Json.Documents
import IdMint.PackedId.Table
import IdMint.Main
import IdMint.Proofs.Numerals
import IdMint.Proofs.Polls
import IdMint.Proofs.LocalHistories
import IdMint.Proofs.ReplyReadings
import IdMint.Proofs.CounterDraws
import IdMint.Proofs.CounterRuns
import IdMint.Proofs.ActionTrees
import IdMint.Proofs.NodeVersions
import IdMint.Proofs.SequenceDraws
import IdMint.Proofs.SequenceRuns
import IdMint.Proofs.SessionOrder
import IdMint.Proofs.SessionCalls
import IdMint.Proofs.SessionRuns
import IdMint.Proofs.SessionLinks
import IdMint.Proofs.NodePresence
import IdMint.Proofs.StartTrees
import IdMint.Proofs.SessionStarts
import IdMint.Proofs.DirectRuns
import IdMint.Proofs.Rehearsals
import IdMint.Proofs.RetryTransparency
import IdMint.Proofs.LostAnswers
import IdMint.Proofs.EncodedFields
import IdMint.Proofs.NodePaths
import IdMint.Proofs.ServiceHistories
import IdMint.Proofs.TreeClosure
import IdMint.Proofs.VersionHistories
import IdMint.Proofs.CalmRuns
import IdMint.Proofs.FreshSequences
import IdMint.Proofs.AcceptedJobs
import IdMint.Proofs.ClockReadings
import IdMint.Proofs.PollForecasts
import IdMint.Proofs.LoneGenerators
import IdMint.Proofs.SeparateKeys
import IdMint.Proofs.DocumentsReadBack
import IdMint.Proofs.IdentifierOrder
import IdMint.Proofs.BatchReports
import IdMint.Proofs.PolledBatches
import IdMint.Proofs.ReplayedDraws
import IdMint.Proofs.StoreAgreement
import IdMint.Proofs.BatchedSequences
import IdMint.Proofs.RetryBudgets
import IdMint.Proofs.RetrySleeps
import IdMint.Proofs.TextBytes
import IdMint.Proofs.NodeBranches
import IdMint.Proofs.NodeChildren
import IdMint.Proofs.StartResults
import IdMint.Proofs.PathGrammar
import IdMint.Proofs.NodeAgreement
import IdMint.Proofs.TimeLimits
import IdMint.Proofs.StartLimits
import IdMint.Proofs.EnsuredPaths
import IdMint.Proofs.SeparateCounters
import IdMint.Proofs.ClampedReadings
import IdMint.Proofs.TickedClocks
import IdMint.Proofs.Refusals
import IdMint.Proofs.IdentifierTexts
import IdMint.Proofs.ChosenPolicies
import IdMint.Proofs.SharedGenerators
import IdMint.Proofs.PartialDocuments
