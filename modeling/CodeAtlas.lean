import CodeAtlas.Text.Word
import CodeAtlas.Text.Quoted
import CodeAtlas.Text.Blank
import CodeAtlas.Text.Split
import CodeAtlas.Text.Hexadecimal
import CodeAtlas.Json.Value
import CodeAtlas.Json.Numeral
import CodeAtlas.Decimal.Shortest
import CodeAtlas.Json.Problem
import CodeAtlas.Json.Reading
import CodeAtlas.Json.Decode
import CodeAtlas.Digest.Sha256
import CodeAtlas.Category
import CodeAtlas.Relation
import CodeAtlas.Modifiers
import CodeAtlas.Fault
import CodeAtlas.Key
import CodeAtlas.Element.Shape
import CodeAtlas.Element.Basic
import CodeAtlas.Registry
import CodeAtlas.Store
import CodeAtlas.Packages
import CodeAtlas.Library.Basic
import CodeAtlas.Library.Document
import CodeAtlas.Hierarchy.View
import CodeAtlas.Hierarchy.Overridden
import CodeAtlas.Progress
import CodeAtlas.Hierarchy.Worklist
import CodeAtlas.Path
import CodeAtlas.SourceUnit
import CodeAtlas.Fingerprint
import CodeAtlas.Toml
import CodeAtlas.Settings
import CodeAtlas.Session.Basic
import CodeAtlas.Session.Intake
import CodeAtlas.Session.Holdings
import CodeAtlas.Response
import CodeAtlas.Query
import CodeAtlas.Files.Location
import CodeAtlas.Files.System
import CodeAtlas.Command.Opening
import CodeAtlas.Command.Line
import CodeAtlas.Command.Basic
import CodeAtlas.Main
import CodeAtlas.Proofs.Grammar
import CodeAtlas.Proofs.Naming
import CodeAtlas.Proofs.Interning
import CodeAtlas.Proofs.Asking
import CodeAtlas.Proofs.Hierarchy.Findings
import CodeAtlas.Proofs.Hierarchy.Exploration
import CodeAtlas.Proofs.Hierarchy.Ancestry
import CodeAtlas.Proofs.Recording
import CodeAtlas.Proofs.Hierarchy.Step
import CodeAtlas.Proofs.Hierarchy.Growth
import CodeAtlas.Proofs.Hierarchy.Run
import CodeAtlas.Proofs.Session.Preparation
import CodeAtlas.Proofs.Session.Intake
import CodeAtlas.Proofs.Session.History
import CodeAtlas.Proofs.Hierarchy.AbstractMethods
import CodeAtlas.Proofs.Session.Pending
import CodeAtlas.Proofs.Hierarchy.Saturation
import CodeAtlas.Proofs.Hierarchy.StaticMethods
import CodeAtlas.Proofs.Session.Incremental
import CodeAtlas.Proofs.Hierarchy.Resumption
import CodeAtlas.Proofs.Session.Acceptance
import CodeAtlas.Proofs.Session.Population
import CodeAtlas.Proofs.Session.OnDemand
import CodeAtlas.Proofs.Tuples
import CodeAtlas.Proofs.Session.Contents
import CodeAtlas.Proofs.Session.Operations
import CodeAtlas.Proofs.Session.Transposes
import CodeAtlas.Proofs.Session.Typing
import CodeAtlas.Proofs.Json.ReadBack
import CodeAtlas.Proofs.Canonical
import CodeAtlas.Proofs.Fingerprint
import CodeAtlas.Proofs.Session.Identity
import CodeAtlas.Proofs.Session.Narrowing
import CodeAtlas.Proofs.Session.Bookkeeping
import CodeAtlas.Proofs.Walk
import CodeAtlas.Proofs.Hierarchy.Search
import CodeAtlas.Proofs.Session.Availability
import CodeAtlas.Proofs.Session.Transparency
import CodeAtlas.Proofs.Hierarchy.Frame
import CodeAtlas.Proofs.Hierarchy.Accounts
import CodeAtlas.Proofs.Session.FixedPoint
import CodeAtlas.Proofs.Session.Coverage
import CodeAtlas.Proofs.Hierarchy.Loop
import CodeAtlas.Proofs.Library.Listing
import CodeAtlas.Proofs.Library.Omission
import CodeAtlas.Proofs.NormalForm
import CodeAtlas.Proofs.PathViews
import CodeAtlas.Proofs.Session.ElementListing
import CodeAtlas.Proofs.Session.Holdings
import CodeAtlas.Proofs.Session.Instances
import CodeAtlas.Proofs.WrittenKeys
