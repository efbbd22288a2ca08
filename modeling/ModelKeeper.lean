import ModelKeeper.Api.Script
import ModelKeeper.Health
import ModelKeeper.Pass.Entry
import ModelKeeper.Schema.Definition
import ModelKeeper.World.Session
import ModelKeeper.Proofs.Program.Wp
import ModelKeeper.Proofs.Cluster.Objects
import ModelKeeper.Proofs.Json.Same
import ModelKeeper.Proofs.Number.Rounding
import ModelKeeper.Proofs.Operator.Change
import ModelKeeper.Proofs.Pass.Gate
import ModelKeeper.Proofs.Pass.Settling
import ModelKeeper.Proofs.Program.Turns
import ModelKeeper.Proofs.Cluster.Versions
import ModelKeeper.Proofs.Operator.Amend
import ModelKeeper.Proofs.Pass.Memo
import ModelKeeper.Proofs.Cluster.Runs
import ModelKeeper.Proofs.Cluster.Generations
import ModelKeeper.Proofs.Cluster.Deletion
import ModelKeeper.Proofs.ImageStore.Races
import ModelKeeper.Proofs.Pass.Availability
import ModelKeeper.Proofs.Pass.Quiet
import ModelKeeper.Proofs.Pass.Alone
import ModelKeeper.Proofs.Pass.History
import ModelKeeper.Proofs.Pass.Failures
import ModelKeeper.Proofs.Pass.Finalizers
import ModelKeeper.Proofs.Pass.Writes
import ModelKeeper.Proofs.Pass.Footprint
import ModelKeeper.Proofs.Pass.Transitions
import ModelKeeper.Proofs.Pass.Trials
import ModelKeeper.Proofs.Pass.Accounts
import ModelKeeper.Proofs.Pass.Scheduling
import ModelKeeper.Proofs.Pass.Sendings
import ModelKeeper.Proofs.Pass.Commuting
import ModelKeeper.Proofs.Pass.Discretion
import ModelKeeper.Proofs.Json.Merge
import ModelKeeper.Proofs.Cluster.Rewrites
import ModelKeeper.Proofs.Resource.Overlay
import ModelKeeper.Proofs.Api.Status
import ModelKeeper.Proofs.Api.Amend
import ModelKeeper.Proofs.Pass.Budget
import ModelKeeper.Proofs.Pass.Publication
import ModelKeeper.Proofs.Pass.Narrative
import ModelKeeper.Proofs.Chat.Requests
import ModelKeeper.Proofs.Pass.Successes
import ModelKeeper.Proofs.Resource.Keyed
import ModelKeeper.Proofs.Json.Accepted
import ModelKeeper.Proofs.Chat.Envelopes
import ModelKeeper.Proofs.Chat.Parameters
import ModelKeeper.Proofs.ImageStore.Environment
import ModelKeeper.Proofs.Pass.Backoff
