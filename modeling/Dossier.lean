import Dossier.Archive
import Dossier.Category
import Dossier.CivilDate
import Dossier.Clock
import Dossier.Coding
import Dossier.Collector
import Dossier.Config.Basic
import Dossier.Config.Plan
import Dossier.Config.Reading
import Dossier.Decimal.Layout
import Dossier.Decimal.Reading
import Dossier.Decimal.Shortest
import Dossier.FactFile
import Dossier.Fault
import Dossier.Files.Path
import Dossier.Files.Tree
import Dossier.Ids
import Dossier.Individual
import Dossier.Json.Basic
import Dossier.Json.Reading
import Dossier.Json.Record
import Dossier.Json.Token
import Dossier.Json.Writing
import Dossier.Key
import Dossier.Main
import Dossier.Metrics
import Dossier.Program.Answer
import Dossier.Program.Arguments
import Dossier.Program.Commands
import Dossier.Program.Dialogue
import Dossier.Program.Environment
import Dossier.Program.Moment
import Dossier.Query
import Dossier.Registry
import Dossier.Reliability
import Dossier.Report
import Dossier.Requirements
import Dossier.Roster
import Dossier.SchemaError
import Dossier.Session
import Dossier.SortedMap
import Dossier.Span
import Dossier.Store
import Dossier.StoreError
import Dossier.Task
import Dossier.Text.Ascii
import Dossier.Text.Blank
import Dossier.Text.Pattern
import Dossier.Toml.Basic
import Dossier.Toml.Reading
import Dossier.Uuid
import Dossier.Value
import Dossier.Writer
import Dossier.Proofs.Namespace
import Dossier.Proofs.Registry
import Dossier.Proofs.History
import Dossier.Proofs.Store.Agreement
import Dossier.Proofs.Store.LastWrite
import Dossier.Proofs.Writer.Interleaving
import Dossier.Proofs.Writer.Request
import Dossier.Proofs.Session.Enrolment
import Dossier.Proofs.Category
import Dossier.Proofs.Clock
import Dossier.Proofs.Session.Reports
import Dossier.Proofs.Task
import Dossier.Proofs.Store.Validity
import Dossier.Proofs.Session.Opening
import Dossier.Proofs.Session.Validity
import Dossier.Proofs.Session.Isolation
import Dossier.Proofs.Registry.Content
import Dossier.Proofs.Session.LifeCycle
import Dossier.Proofs.Session.Outcomes
import Dossier.Proofs.Session.Arrivals
import Dossier.Proofs.Session.Materialising
import Dossier.Proofs.Key
import Dossier.Proofs.Decimal.Digits
import Dossier.Proofs.Decimal.Numerals
import Dossier.Proofs.Json.Tokens
import Dossier.Proofs.Json.Tree
import Dossier.Proofs.Uuid
import Dossier.Proofs.CivilDate
import Dossier.Proofs.Coding
import Dossier.Proofs.Store.Narrowing
import Dossier.Proofs.Session.FactFiles
import Dossier.Proofs.Roster
import Dossier.Proofs.Session.Shows
import Dossier.Proofs.Config
import Dossier.Proofs.Requirements
import Dossier.Proofs.Program.Find
import Dossier.Proofs.Double.Rounding
import Dossier.Proofs.Double.Bits
import Dossier.Proofs.Double.Scientific
import Dossier.Proofs.Archive
import Dossier.Proofs.Writer.Tally
import Dossier.Proofs.Deeds
import Dossier.Proofs.Timing
import Dossier.Proofs.Session.Reloading
import Dossier.Proofs.Session.Fates
import Dossier.Proofs.Registry.Refusals
import Dossier.Proofs.Config.Coherence
import Dossier.Proofs.Metrics
import Dossier.Proofs.Session.Measured
import Dossier.Proofs.Archive.Versions
import Dossier.Proofs.Store.Categories
import Dossier.Proofs.Session.Selection
import Dossier.Proofs.Session.FactEffects
import Dossier.Proofs.Double.Order
import Dossier.Proofs.Requirements.Asking
import Dossier.Proofs.Requirements.Strength
import Dossier.Proofs.Writer.Account
import Dossier.Proofs.Session.Guests
import Dossier.Proofs.Store.Verdicts
import Dossier.Proofs.Writer.Paths
import Dossier.Proofs.Writer.Spelling
import Dossier.Proofs.Registry.Registering
import Dossier.Proofs.Pattern
import Dossier.Proofs.Category.Acceptance
import Dossier.Proofs.Config.Budgets
import Dossier.Proofs.Json.Indented
import Dossier.Proofs.Roster.Printed
