import Wiretap.Text.Blank
import Wiretap.Text.AsciiCase
import Wiretap.Text.Decimal
import Wiretap.Text.Pieces
import Wiretap.Table
import Wiretap.Counter
import Wiretap.Stats
import Wiretap.Thread
import Wiretap.Address
import Wiretap.Address.Matcher
import Wiretap.Address.Ip
import Wiretap.Connection
import Wiretap.Statement
import Wiretap.Statement.Normal
import Wiretap.Statement.Batch
import Wiretap.Traffic.Packet
import Wiretap.Traffic.Reconstruction
import Wiretap.Traffic.Grouping
import Wiretap.Interner
import Wiretap.Clock
import Wiretap.Json.Layout
import Wiretap.Policy.Status
import Wiretap.Policy.Pattern
import Wiretap.Policy.Document
import Wiretap.Disk.Path
import Wiretap.Disk
import Wiretap.Policy.Storage
import Wiretap.Policy.Registry
import Wiretap.Policy.Book
import Wiretap.Cli.Arguments
import Wiretap.Cli.Command
import Wiretap.Cli.Run
import Wiretap.Ledger
import Wiretap.Query
import Wiretap.Ledger.History
import Wiretap.Expectation
import Wiretap.Finding
import Wiretap.Spy
import Wiretap.Spy.Scope
import Wiretap.Settings
import Wiretap.Postgres
import Wiretap.Tap
import Wiretap.Tap.Socket
import Wiretap.Tap.Sql
import Wiretap.Simulated.Network
import Wiretap.Simulated.Database
import Wiretap.Session
import Wiretap.Main
import Wiretap.Proofs.Lookup
import Wiretap.Proofs.Gathering
import Wiretap.Proofs.Gains
import Wiretap.Proofs.Connections
import Wiretap.Proofs.Policy.Ruling
import Wiretap.Proofs.Policy.Tables
import Wiretap.Proofs.Policy.History
import Wiretap.Proofs.Policy.Alike
import Wiretap.Proofs.Statement.Kind
import Wiretap.Proofs.Traffic.Since
import Wiretap.Proofs.Traffic.Groups
import Wiretap.Proofs.Application
import Wiretap.Proofs.Application.Ledger
import Wiretap.Proofs.Application.Streams
import Wiretap.Proofs.Application.Sessions
import Wiretap.Proofs.Window
import Wiretap.Proofs.Window.Statements
import Wiretap.Proofs.Window.Connections
import Wiretap.Proofs.Window.Totals
import Wiretap.Proofs.Window.Traffic
import Wiretap.Proofs.Policy.Enforcement
import Wiretap.Proofs.Json.Growth
import Wiretap.Proofs.Text.Decimal
import Wiretap.Proofs.Policy.Codec
import Wiretap.Proofs.Listing
import Wiretap.Proofs.Policy.RoundTrip
import Wiretap.Proofs.Disk
import Wiretap.Proofs.Disk.Trees
import Wiretap.Proofs.Disk.Replacing
import Wiretap.Proofs.Policy.Keeping
import Wiretap.Proofs.Policy.Saving
import Wiretap.Proofs.Window.Restart
import Wiretap.Proofs.Policy.Merging
import Wiretap.Proofs.Transparency
import Wiretap.Proofs.Balance
import Wiretap.Proofs.Window.Traversals
import Wiretap.Proofs.Window.LifeCycle
import Wiretap.Proofs.Policy.CommandLine
import Wiretap.Proofs.Window.Attempts
import Wiretap.Proofs.Application.Drops
import Wiretap.Proofs.Traffic.Cutting
import Wiretap.Proofs.Traffic.Runs
import Wiretap.Proofs.Traffic.Positions
import Wiretap.Proofs.Traffic.Resuming
import Wiretap.Proofs.Traffic.Merging
import Wiretap.Proofs.Traffic.Report
import Wiretap.Proofs.Traffic.Ties
import Wiretap.Proofs.Window.History
import Wiretap.Proofs.Window.Starts
import Wiretap.Proofs.Traffic.Chunking
import Wiretap.Proofs.Connections.Events
import Wiretap.Proofs.Statement.Placeholders
import Wiretap.Proofs.Window.Agreement
import Wiretap.Proofs.Statement.Slices
import Wiretap.Proofs.Statement.Settled
import Wiretap.Proofs.Ledger.Timers
import Wiretap.Proofs.Window.Scope
import Wiretap.Proofs.Questions
import Wiretap.Proofs.Text.Numerals
import Wiretap.Proofs.Text.Case
import Wiretap.Proofs.Policy.StatusText
import Wiretap.Proofs.Policy.Codes
import Wiretap.Proofs.Policy.Canonical
import Wiretap.Proofs.Address
import Wiretap.Proofs.Policy.Fields
import Wiretap.Proofs.Policy.Forms
import Wiretap.Proofs.Policy.Records
import Wiretap.Proofs.Address.Literals
import Wiretap.Proofs.Expectation
import Wiretap.Proofs.Statement.Batch
import Wiretap.Proofs.Traffic.Threads
import Wiretap.Proofs.Ledger.Counters
import Wiretap.Proofs.Ledger.Texts
import Wiretap.Proofs.Postgres
import Wiretap.Proofs.Policy.Origins
