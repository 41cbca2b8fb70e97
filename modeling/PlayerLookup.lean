import PlayerLookup.Bench.Disk
import PlayerLookup.Bench.Message
import PlayerLookup.Bench.Question
import PlayerLookup.Bench.Unchecked
import PlayerLookup.Main
import PlayerLookup.Proofs.Cache.Agreement
import PlayerLookup.Proofs.Cache.Replay
import PlayerLookup.Proofs.Combined.Progress
import PlayerLookup.Proofs.Combined.Turns
import PlayerLookup.Proofs.Combined.Wrapping
import PlayerLookup.Proofs.Combined.Nesting
import PlayerLookup.Proofs.Parallel.Jobs
import PlayerLookup.Proofs.Parallel.Hearing
import PlayerLookup.Proofs.Parallel.Calls
import PlayerLookup.Proofs.Parallel.FirstFailure
import PlayerLookup.Proofs.Parallel.Merging
import PlayerLookup.Proofs.Pipeline.Unresolved
import PlayerLookup.Proofs.Amount.Doubling
import PlayerLookup.Proofs.Remote.Attempts
import PlayerLookup.Proofs.Remote.Requests
import PlayerLookup.Proofs.Amount.Overflow
import PlayerLookup.Proofs.Remote.Calls
import PlayerLookup.Proofs.Remote.Retries
import PlayerLookup.Proofs.Combined.Trees
import PlayerLookup.Proofs.Pipeline.AtHome
import PlayerLookup.Proofs.Pipeline.RepeatedNames
import PlayerLookup.Proofs.Pipeline.Asked
import PlayerLookup.Proofs.Pipeline.RepeatedIds
import PlayerLookup.Proofs.Pipeline.Freshness
import PlayerLookup.Proofs.Pipeline.LastAnswers
import PlayerLookup.Proofs.Combined.Stopping
import PlayerLookup.Proofs.Combined.Streaming
import PlayerLookup.Proofs.Combined.Offers
import PlayerLookup.Proofs.Combined.LeafNames
import PlayerLookup.Proofs.Forwarding.Storing
import PlayerLookup.Proofs.Pipeline.FoundByJobs
import PlayerLookup.Proofs.Pipeline.NamesApart
import PlayerLookup.Proofs.Pipeline.Posts
import PlayerLookup.Proofs.CommandLine.Endings
import PlayerLookup.Proofs.Preferring.Asked
import PlayerLookup.Proofs.Preferring.Singles
import PlayerLookup.Proofs.Cache.Snapshots
import PlayerLookup.Proofs.Identifier.Accepted
import PlayerLookup.Proofs.Remote.Respelled
import PlayerLookup.Proofs.Combined.SharedProgress
import PlayerLookup.Proofs.Remote.BodyByBody
import PlayerLookup.Proofs.Cache.Idempotence
import PlayerLookup.Proofs.Host.Nameless
import PlayerLookup.Proofs.Remote.Addresses
import PlayerLookup.Proofs.Remote.Padding
import PlayerLookup.Proofs.CommandLine.Lines
import PlayerLookup.Proofs.CommandLine.AnyOrder
import PlayerLookup.Proofs.Batch.DistinctParts
