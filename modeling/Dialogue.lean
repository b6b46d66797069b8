import Dialogue.Amount
import Dialogue.Authoring
import Dialogue.Command.Arguments
import Dialogue.Command.Run
import Dialogue.Condition.Document
import Dialogue.Condition.Holds
import Dialogue.Condition.Parser
import Dialogue.Conversation.Document
import Dialogue.Database.Address
import Dialogue.Database.Connection
import Dialogue.Database.Tables
import Dialogue.Deployment
import Dialogue.Double.Basic
import Dialogue.Double.Shortest
import Dialogue.Engine.Inbound
import Dialogue.Engine.Outcome
import Dialogue.Engine.Turn
import Dialogue.Event
import Dialogue.Failure
import Dialogue.Files.Basic
import Dialogue.Files.Change
import Dialogue.Files.Path
import Dialogue.Flow.Check
import Dialogue.Flow.Document
import Dialogue.Flow.Preset
import Dialogue.Guarded
import Dialogue.Identifier
import Dialogue.Json.Printer
import Dialogue.Json.Reader
import Dialogue.Keyed
import Dialogue.Logging
import Dialogue.Main
import Dialogue.Migration
import Dialogue.Moment
import Dialogue.Proofs.Amount.Currency
import Dialogue.Proofs.Amount.Spelling
import Dialogue.Proofs.Amount.Unit
import Dialogue.Proofs.Condition.Comparison
import Dialogue.Proofs.Condition.Compound
import Dialogue.Proofs.Condition.Order
import Dialogue.Proofs.Condition.Parser
import Dialogue.Proofs.Conversation.Again
import Dialogue.Proofs.Conversation.Document
import Dialogue.Proofs.Conversation.Same
import Dialogue.Proofs.Database.Site
import Dialogue.Proofs.Deployment.Answer
import Dialogue.Proofs.Deployment.Append
import Dialogue.Proofs.Deployment.Authoring
import Dialogue.Proofs.Deployment.Beside
import Dialogue.Proofs.Deployment.Columns
import Dialogue.Proofs.Deployment.Exchange
import Dialogue.Proofs.Deployment.Frame
import Dialogue.Proofs.Deployment.History
import Dialogue.Proofs.Deployment.Holding
import Dialogue.Proofs.Deployment.Home
import Dialogue.Proofs.Deployment.Isolation
import Dialogue.Proofs.Deployment.Lasting
import Dialogue.Proofs.Deployment.Ledger
import Dialogue.Proofs.Deployment.Loading
import Dialogue.Proofs.Deployment.Operation
import Dialogue.Proofs.Deployment.Qualification
import Dialogue.Proofs.Deployment.Reading
import Dialogue.Proofs.Deployment.Recall
import Dialogue.Proofs.Deployment.Redaction
import Dialogue.Proofs.Deployment.Rest
import Dialogue.Proofs.Deployment.Resumption
import Dialogue.Proofs.Deployment.Script
import Dialogue.Proofs.Deployment.Settling
import Dialogue.Proofs.Deployment.Sound
import Dialogue.Proofs.Deployment.Spelling
import Dialogue.Proofs.Deployment.Steady
import Dialogue.Proofs.Deployment.Storage
import Dialogue.Proofs.Deployment.Stored
import Dialogue.Proofs.Deployment.Strokes
import Dialogue.Proofs.Deployment.Turns
import Dialogue.Proofs.Deployment.Versions
import Dialogue.Proofs.Deployment.Writing
import Dialogue.Proofs.Double.Decimal
import Dialogue.Proofs.Double.Order
import Dialogue.Proofs.Double.Rounding
import Dialogue.Proofs.Engine.Conduct
import Dialogue.Proofs.Engine.Contents
import Dialogue.Proofs.Engine.Discernment
import Dialogue.Proofs.Engine.Growth
import Dialogue.Proofs.Engine.Holding
import Dialogue.Proofs.Engine.Message
import Dialogue.Proofs.Engine.Qualification
import Dialogue.Proofs.Engine.Redaction
import Dialogue.Proofs.Engine.Reference
import Dialogue.Proofs.Engine.Rest
import Dialogue.Proofs.Engine.Resumption
import Dialogue.Proofs.Engine.Rounds
import Dialogue.Proofs.Engine.Script
import Dialogue.Proofs.Engine.Spelling
import Dialogue.Proofs.Engine.Steady
import Dialogue.Proofs.Engine.Waiting
import Dialogue.Proofs.Engine.Walk
import Dialogue.Proofs.Files.Making
import Dialogue.Proofs.Files.Tree
import Dialogue.Proofs.Flow.Checked
import Dialogue.Proofs.Flow.Cycles
import Dialogue.Proofs.Flow.Document
import Dialogue.Proofs.Flow.Loops
import Dialogue.Proofs.Flow.Reports
import Dialogue.Proofs.Guarded
import Dialogue.Proofs.Identifier
import Dialogue.Proofs.Json.Number
import Dialogue.Proofs.Json.RoundTrip
import Dialogue.Proofs.Json.Text
import Dialogue.Proofs.Keyed
import Dialogue.Proofs.Related
import Dialogue.Proofs.Run
import Dialogue.Proofs.Scene.Apart
import Dialogue.Proofs.Scene.Progress
import Dialogue.Proofs.Scene.Serial
import Dialogue.Proofs.Scene.Step
import Dialogue.Proofs.Schema.Record
import Dialogue.Proofs.Settings.Making
import Dialogue.Proofs.Settings.Variables
import Dialogue.Proofs.Step.Again
import Dialogue.Proofs.Step.Document
import Dialogue.Proofs.Step.Draft
import Dialogue.Proofs.Step.Grammar
import Dialogue.Proofs.Step.Lasting
import Dialogue.Proofs.Store.Contents
import Dialogue.Proofs.Store.Directory.Access
import Dialogue.Proofs.Store.Directory.Contents
import Dialogue.Proofs.Store.Directory.Orderly
import Dialogue.Proofs.Store.Directory.Paths
import Dialogue.Proofs.Store.Directory.State
import Dialogue.Proofs.Store.Directory.Tenant
import Dialogue.Proofs.Store.Ending
import Dialogue.Proofs.Store.Home
import Dialogue.Proofs.Store.Log
import Dialogue.Proofs.Store.Mirror
import Dialogue.Proofs.Store.Operations
import Dialogue.Proofs.Store.Outcome
import Dialogue.Proofs.Store.Stored
import Dialogue.Proofs.Store.Table
import Dialogue.Proofs.Store.Tenant
import Dialogue.Proofs.Store.Trail
import Dialogue.Proofs.Store.Twins
import Dialogue.Proofs.Surface.Answers
import Dialogue.Proofs.Surface.Attending
import Dialogue.Proofs.Surface.Command
import Dialogue.Proofs.Surface.Mending
import Dialogue.Proofs.Surface.Request
import Dialogue.Proofs.Surface.Running
import Dialogue.Proofs.Surface.Service
import Dialogue.Proofs.Surface.Settling
import Dialogue.Proofs.Template
import Dialogue.Proofs.Text.Character
import Dialogue.Proofs.Text.Half
import Dialogue.Proofs.Value.Document
import Dialogue.Proofs.Value.Same
import Dialogue.Run
import Dialogue.Scene
import Dialogue.Schema.Issue
import Dialogue.Schema.Record
import Dialogue.Schema.Scalar
import Dialogue.Service.Handler
import Dialogue.Service.Host
import Dialogue.Service.Message
import Dialogue.Service.Route
import Dialogue.Service.Target
import Dialogue.Settings.Basic
import Dialogue.Settings.File
import Dialogue.Settings.Load
import Dialogue.Step.Basic
import Dialogue.Step.Document
import Dialogue.Step.Draft
import Dialogue.Store.Directory
import Dialogue.Store.Memory
import Dialogue.Store.Operations
import Dialogue.Store.Program
import Dialogue.Store.Table
import Dialogue.Strokes
import Dialogue.Template
import Dialogue.Text.Blank
import Dialogue.Text.Case
import Dialogue.Text.CaseTable
import Dialogue.Text.Class
import Dialogue.Text.Digit
import Dialogue.Text.Half
import Dialogue.Text.Hex
import Dialogue.Text.Quoted
import Dialogue.Text.Split
import Dialogue.Text.Utf8
import Dialogue.Value.Basic
import Dialogue.Value.Display
import Dialogue.Value.Key
import Dialogue.Yaml.Cursor
import Dialogue.Yaml.Document
import Dialogue.Yaml.Literal
import Dialogue.Yaml.Node
import Dialogue.Yaml.Property
import Dialogue.Yaml.Scalar
import Dialogue.Yaml.Token
