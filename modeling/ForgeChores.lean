import ForgeChores.Activity
import ForgeChores.Base64
import ForgeChores.CommandLine.Command
import ForgeChores.CommandLine.Grammar
import ForgeChores.CommandLine.Help
import ForgeChores.CommandLine.Run
import ForgeChores.CommitStatus
import ForgeChores.Decimal.Shortest
import ForgeChores.Duration
import ForgeChores.Environment
import ForgeChores.FileContent
import ForgeChores.Forge
import ForgeChores.Forge.Forgejo
import ForgeChores.Forge.GitHub
import ForgeChores.Forge.GitLab
import ForgeChores.Forge.InMemory
import ForgeChores.Forge.Remote
import ForgeChores.Forge.Rest
import ForgeChores.ForgeError
import ForgeChores.Http
import ForgeChores.Http.Client
import ForgeChores.Http.Failure
import ForgeChores.Http.Paging
import ForgeChores.Http.Status
import ForgeChores.Json
import ForgeChores.Json.Lexer
import ForgeChores.Json.Number
import ForgeChores.Json.Printer
import ForgeChores.Json.Record
import ForgeChores.Json.Written
import ForgeChores.Main
import ForgeChores.Proofs.Activity
import ForgeChores.Proofs.Http.Exchange
import ForgeChores.Proofs.Wait.Polling
import ForgeChores.Provider
import ForgeChores.Registry
import ForgeChores.Repository
import ForgeChores.Settings
import ForgeChores.Settings.Overlay
import ForgeChores.Settings.Source
import ForgeChores.Settings.Valid
import ForgeChores.Setup
import ForgeChores.Table
import ForgeChores.Text
import ForgeChores.Text.Quoted
import ForgeChores.Text.Utf8
import ForgeChores.Toml
import ForgeChores.Toml.Reader
import ForgeChores.Toml.Scalar
import ForgeChores.Url
import ForgeChores.Url.Host
import ForgeChores.Url.Percent
import ForgeChores.Url.Punycode
import ForgeChores.Url.Reader
import ForgeChores.Wait
import ForgeChores.Wait.Status
import ForgeChores.Proofs.Forge.MergeCommit
import ForgeChores.Proofs.Http.Paging
import ForgeChores.Proofs.Text.Number
import ForgeChores.Proofs.Text.Hex
import ForgeChores.Proofs.Http.PagingBound
import ForgeChores.Proofs.Http.PagingBatches
import ForgeChores.Proofs.Http.PagingComplete
import ForgeChores.Proofs.Http.PagingEnd
import ForgeChores.Proofs.Wait.Status
import ForgeChores.Proofs.Wait.Tracking
import ForgeChores.Proofs.Forge.Confirmation
import ForgeChores.Proofs.Http.Asking
import ForgeChores.Proofs.Http.Awaiting
import ForgeChores.Proofs.Forge.BranchCreation
import ForgeChores.Proofs.Text.Search
import ForgeChores.Proofs.Forge.WebhookCleanup
import ForgeChores.Proofs.Forge.ListRetries
import ForgeChores.Proofs.Forge.ProjectDeletion
import ForgeChores.Proofs.Forge.Deletion
import ForgeChores.Proofs.Forge.DeletionStages
import ForgeChores.Proofs.Forge.ForkImport
import ForgeChores.Proofs.Forge.ForkReadiness
import ForgeChores.Proofs.Text.Utf8
import ForgeChores.Proofs.Base64
import ForgeChores.Proofs.FileContent
import ForgeChores.Proofs.Text.Split
import ForgeChores.Proofs.Url.Percent
import ForgeChores.Proofs.Url.Appending
import ForgeChores.Proofs.Forge.Connected
import ForgeChores.Proofs.Forge.BranchUrl
import ForgeChores.Proofs.Forge.BranchOutcome
import ForgeChores.Proofs.Forge.PullRequestClosing
import ForgeChores.Proofs.Forge.ClosingSteps
import ForgeChores.Proofs.Text.Trim
import ForgeChores.Proofs.Url.Host
import ForgeChores.Proofs.Url.Authority
import ForgeChores.Proofs.Url.Trimmed
import ForgeChores.Proofs.Http.Connecting
import ForgeChores.Proofs.Settings.Accepted
import ForgeChores.Proofs.Settings.Precedence
import ForgeChores.Proofs.Settings.Usable
import ForgeChores.Proofs.Wait.Agreeing
import ForgeChores.Proofs.Wait.Counting
import ForgeChores.Proofs.CommandLine.Reading
import ForgeChores.Proofs.Settings.Bounds
import ForgeChores.Proofs.Forge.Calls
import ForgeChores.Proofs.Forge.TokenSecrecy
import ForgeChores.Proofs.Table
import ForgeChores.Proofs.Wait.Leading
import ForgeChores.Proofs.InMemory.Isolation
import ForgeChores.Proofs.InMemory.Outcome
import ForgeChores.Proofs.InMemory.Runs
import ForgeChores.Proofs.InMemory.PullRequests
import ForgeChores.Proofs.InMemory.Branches
import ForgeChores.Proofs.InMemory.Failing
import ForgeChores.Proofs.InMemory.Commits
import ForgeChores.Proofs.InMemory.Files
import ForgeChores.Proofs.InMemory.Heads
import ForgeChores.Proofs.Wait.Outcome
import ForgeChores.Proofs.Wait.Foretold
import ForgeChores.Proofs.InMemory.Scripts
import ForgeChores.Proofs.Forge.MergeSteps
import ForgeChores.Proofs.Url.Segments
import ForgeChores.Proofs.Json.Text
import ForgeChores.Proofs.Http.Failure
import ForgeChores.Proofs.Text.Case
import ForgeChores.Proofs.Registry.Selection
import ForgeChores.Proofs.Setup
import ForgeChores.Proofs.Repository
import ForgeChores.Proofs.Registry.Naming
import ForgeChores.Proofs.CommitStatus
import ForgeChores.Proofs.InMemory.Webhooks
import ForgeChores.Proofs.Json.Record
import ForgeChores.Proofs.Url.Query
