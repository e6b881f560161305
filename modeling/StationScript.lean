import StationScript.Action
import StationScript.Command
import StationScript.CommandError
import StationScript.CommandLine.Arguments
import StationScript.CommandLine.Console
import StationScript.CommandLine.Invocation
import StationScript.CommandLine.LogFilter
import StationScript.Component
import StationScript.Countdown
import StationScript.Date
import StationScript.Dialog
import StationScript.Dialog.Presenter
import StationScript.Double
import StationScript.Double.Fixed
import StationScript.Double.Shortest
import StationScript.Effect
import StationScript.Event
import StationScript.Files
import StationScript.Found
import StationScript.Instant
import StationScript.Instant.Reader
import StationScript.Instruction
import StationScript.Interpreter
import StationScript.Json.Fault
import StationScript.Json.Literal
import StationScript.Json.Number
import StationScript.Json.Object
import StationScript.Json.Reader
import StationScript.LoadError
import StationScript.Main
import StationScript.Plan
import StationScript.Proofs.Following
import StationScript.Proofs.Interruption
import StationScript.Proofs.Lists
import StationScript.Proofs.Meaning
import StationScript.Proofs.Nesting
import StationScript.Proofs.Plans
import StationScript.Proofs.Waiting
import StationScript.Reading
import StationScript.Record
import StationScript.Record.Json
import StationScript.Rounding
import StationScript.Run
import StationScript.Scope
import StationScript.Scope.Book
import StationScript.Script
import StationScript.Settings
import StationScript.Settings.Reader
import StationScript.Station
import StationScript.Surface
import StationScript.Text.Blank
import StationScript.Text.Hidden
import StationScript.Text.Lines
import StationScript.Text.Numeral
import StationScript.Text.Padding
import StationScript.Text.Quoted
import StationScript.Text.Split
import StationScript.Text.Terminal
import StationScript.Timeline
import StationScript.Verb
import StationScript.Yaml.Block
import StationScript.Yaml.Cursor
import StationScript.Yaml.Document
import StationScript.Yaml.Fault
import StationScript.Yaml.Gap
import StationScript.Yaml.Node
import StationScript.Yaml.Plain
import StationScript.Yaml.Quoted
import StationScript.Yaml.Reader
import StationScript.Yaml.Scalar
import StationScript.Yaml.Token
import StationScript.Yaml.Tokens
import StationScript.Proofs.Course
import StationScript.Proofs.Abort
import StationScript.Proofs.Alike
import StationScript.Proofs.Decline
import StationScript.Proofs.Entries
import StationScript.Proofs.Journal
import StationScript.Proofs.Accounts
import StationScript.Proofs.Atomicity
import StationScript.Proofs.Independence
import StationScript.Proofs.Notices
import StationScript.Proofs.Stopping
import StationScript.Proofs.Selection
import StationScript.Proofs.Fields
import StationScript.Proofs.Layouts
import StationScript.Proofs.Commands
import StationScript.Proofs.Wording
import StationScript.Proofs.Sessions
import StationScript.Proofs.Objects
import StationScript.Proofs.Saving
import StationScript.Proofs.Numerals
import StationScript.Proofs.Instants
import StationScript.Proofs.Values
import StationScript.Proofs.Records
import StationScript.Proofs.Exchange
import StationScript.Proofs.Submissions
import StationScript.Proofs.Marshalling
import StationScript.Proofs.Causes
import StationScript.Proofs.Options
import StationScript.Proofs.Calls
import StationScript.Proofs.Checking
import StationScript.Proofs.Nearest
import StationScript.Proofs.Readings
import StationScript.Proofs.Races
import StationScript.Proofs.LatestReading
import StationScript.Proofs.Moves
import StationScript.Proofs.PlainText
import StationScript.Proofs.TypedLines
import StationScript.Proofs.Durations
import StationScript.Proofs.Countdowns
import StationScript.Proofs.Spelling
import StationScript.Proofs.Decimals
import StationScript.Proofs.Summaries
import StationScript.Proofs.Whole
import StationScript.Proofs.Schemas
import StationScript.Proofs.Forms
import StationScript.Proofs.Merging
