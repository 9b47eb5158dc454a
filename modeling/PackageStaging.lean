import PackageStaging.CommandLine.Run
import PackageStaging.Main
import PackageStaging.Proofs.Change.Lists
import PackageStaging.Proofs.Change.Standing
import PackageStaging.Proofs.Change.Places
import PackageStaging.Proofs.Change.Grammar
import PackageStaging.Proofs.Change.Written
import PackageStaging.Proofs.Store.Contents
import PackageStaging.Proofs.Store.Written
import PackageStaging.Simulation
import PackageStaging.Proofs.Session.Staging
import PackageStaging.Proofs.Files.Directory
import PackageStaging.Proofs.Session.Opening
import PackageStaging.Proofs.Session.Run
import PackageStaging.Proofs.Session.History
import PackageStaging.Proofs.Session.Law
import PackageStaging.Proofs.Session.Applied
import PackageStaging.Proofs.Session.Apart
import PackageStaging.Proofs.Text.Words
import PackageStaging.Proofs.Command.Parts
import PackageStaging.Proofs.Session.Lookups
import PackageStaging.Proofs.Store.Readable
import PackageStaging.Proofs.TwoWorlds
import PackageStaging.Proofs.Session.Requests
import PackageStaging.Proofs.Session.Alike
import PackageStaging.Proofs.Change.Restricted
import PackageStaging.Proofs.Session.Edits
import PackageStaging.Proofs.Session.Independence
import PackageStaging.Proofs.Session.Cancelled
import PackageStaging.Proofs.Files.Alteration
import PackageStaging.Proofs.Session.Errands
import PackageStaging.Proofs.Session.Verified
import PackageStaging.Proofs.Session.Closed
import PackageStaging.Proofs.Session.OpenGate
import PackageStaging.Proofs.Session.Report
import PackageStaging.Proofs.Url.Encoded
import PackageStaging.Proofs.Url.Dots
import PackageStaging.Proofs.Url.Reading
import PackageStaging.Proofs.Url.Gap
import PackageStaging.Proofs.Catalog.Placeholder
import PackageStaging.Proofs.Catalog.Addresses
import PackageStaging.Proofs.Catalog.Verdict
import PackageStaging.Proofs.Json.Written
import PackageStaging.Proofs.Json.Spelled
import PackageStaging.Proofs.Json.Integer
import PackageStaging.Proofs.Json.Document
import PackageStaging.Proofs.Config.Written
import PackageStaging.Proofs.Gate.Accepted
import PackageStaging.Proofs.Session.Exact
import PackageStaging.Proofs.Session.Halted
import PackageStaging.Proofs.Session.Healed
import PackageStaging.Proofs.Change.Mirrored
import PackageStaging.Proofs.Store.Mirrored
import PackageStaging.Proofs.Session.Unhindered
import PackageStaging.Proofs.Session.Mirrored
import PackageStaging.Proofs.Session.Reopening
import PackageStaging.Proofs.CommandLine.Arguments
import PackageStaging.Proofs.CommandLine.Outcome
import PackageStaging.Proofs.CommandLine.Configuration
import PackageStaging.Proofs.CommandLine.Batch
import PackageStaging.Proofs.Change.Incremental
import PackageStaging.Proofs.Store.Saved
import PackageStaging.Proofs.Store.Bootstrap
import PackageStaging.Proofs.Session.Confined
import PackageStaging.Proofs.Json.Grammar
import PackageStaging.Proofs.Json.Typed
import PackageStaging.Proofs.Json.Layout
import PackageStaging.Proofs.Config.Layout
