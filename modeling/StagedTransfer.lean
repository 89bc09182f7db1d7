import StagedTransfer.CommandLine
import StagedTransfer.Data.OrderedMap
import StagedTransfer.Digest.Sha256
import StagedTransfer.Disk
import StagedTransfer.Encoding.Base64Url
import StagedTransfer.Encoding.Form
import StagedTransfer.Encoding.Percent
import StagedTransfer.Gateway.Answer
import StagedTransfer.Gateway.Demand
import StagedTransfer.Gateway.Error
import StagedTransfer.Http.Message
import StagedTransfer.Http.Transcript
import StagedTransfer.Http.Url
import StagedTransfer.Json.Error
import StagedTransfer.Json.Message
import StagedTransfer.Json.Number
import StagedTransfer.Json.Parsing
import StagedTransfer.Json.Reading
import StagedTransfer.Json.Shape
import StagedTransfer.Json.Value
import StagedTransfer.Main
import StagedTransfer.Number.Binary64
import StagedTransfer.Number.Shortest
import StagedTransfer.Parts.Error
import StagedTransfer.Parts.Manifest
import StagedTransfer.Parts.Reader
import StagedTransfer.Parts.RemotePath
import StagedTransfer.Program
import StagedTransfer.Rehearsal.Script
import StagedTransfer.Rehearsal.Tokens
import StagedTransfer.Rehearsal.World
import StagedTransfer.Reply
import StagedTransfer.Session.Client
import StagedTransfer.Session.Errand
import StagedTransfer.Session.Surroundings
import StagedTransfer.Settings
import StagedTransfer.Text.Blank
import StagedTransfer.Text.Hex
import StagedTransfer.Text.Pieces
import StagedTransfer.Text.Quoted
import StagedTransfer.Text.Unseen
import StagedTransfer.Text.Utf8
import StagedTransfer.Time.Instant
import StagedTransfer.Time.Span
import StagedTransfer.Token.Access
import StagedTransfer.Token.Cache
import StagedTransfer.Token.Credentials
import StagedTransfer.Token.Error
import StagedTransfer.Token.Provider
import StagedTransfer.Toml.Node
import StagedTransfer.Toml.Reader
import StagedTransfer.Transfer.Activity
import StagedTransfer.Transfer.Call
import StagedTransfer.Transfer.Error
import StagedTransfer.Transfer.Event
import StagedTransfer.Transfer.Operations
import StagedTransfer.Transfer.Phase
import StagedTransfer.Transfer.Polling
import StagedTransfer.Transfer.Sending
import StagedTransfer.Transfer.Wait
import StagedTransfer.Wire.Job
import StagedTransfer.Wire.JobState
import StagedTransfer.Wire.Plan
import StagedTransfer.Proofs.Course
import StagedTransfer.Proofs.OrderedMap
import StagedTransfer.Proofs.Sending.Step
import StagedTransfer.Proofs.Sending.History
import StagedTransfer.Proofs.Sending.Verdict
import StagedTransfer.Proofs.Parts
import StagedTransfer.Proofs.Sending.Reading
import StagedTransfer.Proofs.Sending.Progress
import StagedTransfer.Proofs.Upload.Stages
import StagedTransfer.Proofs.Upload.Completion
import StagedTransfer.Proofs.Polling.Decision
import StagedTransfer.Proofs.Upload.Order
import StagedTransfer.Proofs.Disk
import StagedTransfer.Proofs.Manifest
import StagedTransfer.Proofs.Session.Storing
import StagedTransfer.Proofs.Session.Sending
import StagedTransfer.Proofs.Session.RoundTrip
import StagedTransfer.Proofs.Token.Step
import StagedTransfer.Proofs.Cancellation
import StagedTransfer.Proofs.Download.Destination
import StagedTransfer.Proofs.Polling.Attempts
import StagedTransfer.Proofs.Polling.LiveTokens
import StagedTransfer.Proofs.Token.SingleFlight
import StagedTransfer.Proofs.Json.Spelling
import StagedTransfer.Proofs.Json.Scanning
import StagedTransfer.Proofs.Json.Reading
import StagedTransfer.Proofs.Json.Printing
import StagedTransfer.Proofs.Json.Standing
import StagedTransfer.Proofs.Json.Gathering
import StagedTransfer.Proofs.Json.Shaped
import StagedTransfer.Proofs.Wire.Texts
import StagedTransfer.Proofs.Polling.Tidings
import StagedTransfer.Proofs.Polling.Inquiry
import StagedTransfer.Proofs.Polling.NotFound
import StagedTransfer.Proofs.Token.Renewals
import StagedTransfer.Proofs.Polling.Crowd
import StagedTransfer.Proofs.Polling.Renewals
import StagedTransfer.Proofs.Polling.Turns
import StagedTransfer.Proofs.Token.Writes
import StagedTransfer.Proofs.Parts.Calls
import StagedTransfer.Proofs.Parts.Shortfall
import StagedTransfer.Proofs.Parts.Partition
import StagedTransfer.Proofs.Events.Stages
import StagedTransfer.Proofs.Events.Transfers
import StagedTransfer.Proofs.Manifest.Document
import StagedTransfer.Proofs.Polling.Delays
import StagedTransfer.Proofs.Polling.Rhythm
import StagedTransfer.Proofs.Number.Rounding
import StagedTransfer.Proofs.Polling.Pauses
import StagedTransfer.Proofs.Sending.Holding
import StagedTransfer.Proofs.Upload.Slots
import StagedTransfer.Proofs.Upload.Outcome
import StagedTransfer.Proofs.Token.Signed
import StagedTransfer.Proofs.Token.Grants
import StagedTransfer.Proofs.Json.Meaning
import StagedTransfer.Proofs.Encoding.Base64Url
import StagedTransfer.Proofs.Token.Claims
import StagedTransfer.Proofs.Encoding.Percent
import StagedTransfer.Proofs.Http.Segments
import StagedTransfer.Proofs.Http.Reading
import StagedTransfer.Proofs.Gateway.Address
import StagedTransfer.Proofs.Encoding.Form
import StagedTransfer.Proofs.Parts.Naming
import StagedTransfer.Proofs.Gateway.Query
import StagedTransfer.Proofs.Events.Parts
import StagedTransfer.Proofs.Session.Origins
import StagedTransfer.Proofs.Session.Staged
import StagedTransfer.Proofs.Session.Whole
import StagedTransfer.Proofs.Session.Routing
import StagedTransfer.Proofs.Manifest.Complete
import StagedTransfer.Proofs.Digest.Pieces
import StagedTransfer.Proofs.Phases
import StagedTransfer.Proofs.Session.Steady
import StagedTransfer.Proofs.Session.Overruns
import StagedTransfer.Proofs.Session.Delivery
import StagedTransfer.Proofs.Session.Success
import StagedTransfer.Proofs.SelfTest
