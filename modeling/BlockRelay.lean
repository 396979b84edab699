import BlockRelay.Text.Blank
import BlockRelay.Text.Decimal
import BlockRelay.Text.Escaped
import BlockRelay.Text.Pieces
import BlockRelay.Text.Utf8
import BlockRelay.Time.Span
import BlockRelay.Number.Binary64
import BlockRelay.Hex.Basic
import BlockRelay.Json.Reader
import BlockRelay.Json.Printer
import BlockRelay.Json.Fields
import BlockRelay.Toml.Reader
import BlockRelay.Url.Web
import BlockRelay.Log.Filter
import BlockRelay.Payload.Json
import BlockRelay.Bid.Submission
import BlockRelay.Bid.Registration
import BlockRelay.Cache.Memory
import BlockRelay.Cache.Payloads
import BlockRelay.Cache.Switch
import BlockRelay.Beacon.Client
import BlockRelay.Refresh.Pass
import BlockRelay.Refresh.Refresher
import BlockRelay.Audit.Database
import BlockRelay.Audit.Queue
import BlockRelay.Settings.Json
import BlockRelay.Settings.File
import BlockRelay.Settings.EnvironmentFile
import BlockRelay.Settings.Services
import BlockRelay.Housekeeper.Run
import BlockRelay.Main
import BlockRelay.Proofs.Json.Scan
import BlockRelay.Proofs.Json.Values
import BlockRelay.Proofs.Hex.Digits
import BlockRelay.Proofs.Json.Records
import BlockRelay.Proofs.Wire.RoundTrip
import BlockRelay.Proofs.Cache.Address
import BlockRelay.Proofs.Cache.Live
import BlockRelay.Proofs.Cache.Runs
import BlockRelay.Proofs.Cache.Refinement
import BlockRelay.Proofs.Beacon.Overlap
import BlockRelay.Proofs.Audit.Course
import BlockRelay.Proofs.Audit.Delivery
import BlockRelay.Proofs.Cache.Identity
import BlockRelay.Proofs.Cache.Tenants
import BlockRelay.Proofs.Cache.Overlap
import BlockRelay.Proofs.Cache.Commitment
import BlockRelay.Proofs.Hex.Readers
import BlockRelay.Proofs.Json.Kept
import BlockRelay.Proofs.Audit.Rows
import BlockRelay.Proofs.Audit.Inserts
import BlockRelay.Proofs.Json.Declared
import BlockRelay.Proofs.Beacon.Answers
import BlockRelay.Proofs.Json.Meanings
import BlockRelay.Proofs.Wire.Described
import BlockRelay.Proofs.Cache.Calls
import BlockRelay.Proofs.Cache.Foreign
import BlockRelay.Proofs.Audit.Trail
import BlockRelay.Proofs.Json.Lists
import BlockRelay.Proofs.Settings.Lists
import BlockRelay.Proofs.Settings.Overrides
import BlockRelay.Proofs.Audit.Upsert
import BlockRelay.Proofs.Audit.Newest
import BlockRelay.Proofs.Text.Cuts
import BlockRelay.Proofs.Beacon.Fallback
import BlockRelay.Proofs.Settings.Lifetime
import BlockRelay.Proofs.Settings.TableNames
import BlockRelay.Proofs.Url.Percent
import BlockRelay.Proofs.Url.Domain
import BlockRelay.Proofs.Url.Address
import BlockRelay.Proofs.Url.Host
import BlockRelay.Proofs.Url.Authority
import BlockRelay.Proofs.Url.Web
import BlockRelay.Proofs.Beacon.Requests
import BlockRelay.Proofs.Beacon.Excerpts
import BlockRelay.Proofs.Refresh.Passes
import BlockRelay.Proofs.Cache.Housekeeping
import BlockRelay.Proofs.Refresh.Schedule
