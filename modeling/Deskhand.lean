import Deskhand.Text.Basic
import Deskhand.Text.Blank
import Deskhand.Text.Lines
import Deskhand.Text.Case
import Deskhand.Text.Quoted
import Deskhand.Text.Word
import Deskhand.Text.Digit
import Deskhand.Text.Identifier
import Deskhand.Number.Binary64
import Deskhand.Number.Shortest
import Deskhand.Number.Bits
import Deskhand.Number.Reading
import Deskhand.Failure
import Deskhand.Script.Value
import Deskhand.Script.ExprError
import Deskhand.Script.Arith
import Deskhand.Script.Builtin
import Deskhand.Script.Token
import Deskhand.Script.Expr
import Deskhand.Script.Eval
import Deskhand.Hid.Fault
import Deskhand.Hid.KeyReport
import Deskhand.Hid.PointerReport
import Deskhand.Hid.MediaReport
import Deskhand.Table
import Deskhand.Event
import Deskhand.Hid.KeyNames
import Deskhand.Hid.Keyboard
import Deskhand.Hid.Layout
import Deskhand.Script.KeyWords
import Deskhand.Hid.Session
import Deskhand.Script.Command
import Deskhand.Script.Machine
import Deskhand.Script.Run
import Deskhand.Json.Basic
import Deskhand.Json.Writer
import Deskhand.Json.Reader
import Deskhand.Text.Utf8
import Deskhand.Serial.Receiver
import Deskhand.Text.Scan
import Deskhand.Request.Intent
import Deskhand.Request.Delay
import Deskhand.Request.Corrections
import Deskhand.Request.Requirements
import Deskhand.Json.Access
import Deskhand.Memory.Exchange
import Deskhand.Memory.Preferences
import Deskhand.Memory.Context
import Deskhand.Settings
import Deskhand.Broker.Normal
import Deskhand.Broker.Message
import Deskhand.Reply.Answer
import Deskhand.Model.Prompt
import Deskhand.Model.Chat
import Deskhand.Html.Reference
import Deskhand.Html.Token
import Deskhand.Html.Tree
import Deskhand.Html.Select
import Deskhand.Search.Clock
import Deskhand.Search.Offline
import Deskhand.Search.Find
import Deskhand.Assistant.Desk
import Deskhand.Assistant.Listen
import Deskhand.Assistant.Serve
import Deskhand.Json.Equal
import Deskhand.Workflow.Step
import Deskhand.Workflow.Engine
import Deskhand.Capture.Sender
import Deskhand.Text.Pad
import Deskhand.Number.Fixed
import Deskhand.Hash.Sha256
import Deskhand.Bench.SampleScript
import Deskhand.Bench.Path
import Deskhand.Bench.Value
import Deskhand.Bench.Fingerprint
import Deskhand.Bench.Profile
import Deskhand.Bench.Suite
import Deskhand.Bench.SelfCheck
import Deskhand.Bench.TimeShare
import Deskhand.Bench.Coverage
import Deskhand.Bench.Child
import Deskhand.Bench.Verdict
import Deskhand.Bench.CoverageTable
import Deskhand.Bench.History
import Deskhand.Bench.Round
import Deskhand.Bench.Workload.Script
import Deskhand.Bench.Workload.Device
import Deskhand.Bench.Workload.Service
import Deskhand.Bench.Workload.Conversation
import Deskhand.Proofs.Outcome
import Deskhand.Proofs.KeysDown
import Deskhand.Proofs.Typing
import Deskhand.Proofs.MessageScript
import Deskhand.Proofs.Watch
import Deskhand.Proofs.Parts
import Deskhand.Proofs.Primitives
import Deskhand.Proofs.LoopBlocks
import Deskhand.Proofs.Lifting
import Deskhand.Proofs.Faults
import Deskhand.Proofs.RunInvariant
import Deskhand.Proofs.Calmer
import Deskhand.Proofs.HeldKeys
import Deskhand.Proofs.LoopReplay
import Deskhand.Proofs.Margin
import Deskhand.Proofs.JsonText
import Deskhand.Proofs.Editing
import Deskhand.Proofs.Reception
import Deskhand.Proofs.Framing
import Deskhand.Proofs.Decoding
import Deskhand.Proofs.Publishing
import Deskhand.Proofs.Deduplication
import Deskhand.Proofs.PasswordGate
import Deskhand.Proofs.Variables
import Deskhand.Proofs.RandomBounds
import Deskhand.Proofs.BoundsIndependence
import Deskhand.Proofs.JsonReading
import Deskhand.Proofs.Recovery
import Deskhand.Proofs.UsableAnswer
import Deskhand.Proofs.Recall
import Deskhand.Proofs.Remembering
import Deskhand.Proofs.ConversationWindow
import Deskhand.Proofs.PoisonedMemory
import Deskhand.Proofs.TypedLine
import Deskhand.Proofs.NamePieces
import Deskhand.Proofs.NamesInTurn
import Deskhand.Proofs.Formula
import Deskhand.Proofs.FormulaText
import Deskhand.Proofs.TokenOrder
import Deskhand.Proofs.FormulaTokens
import Deskhand.Proofs.FormulaTree
import Deskhand.Proofs.Spelling
import Deskhand.Proofs.Arithmetic
import Deskhand.Proofs.LoopGuard
import Deskhand.Proofs.FunctionCall
import Deskhand.Proofs.DefinedWords
import Deskhand.Proofs.KeyLine
import Deskhand.Proofs.KeyboardRestored
import Deskhand.Proofs.Definition
import Deskhand.Proofs.SentReports
import Deskhand.Proofs.TextBlock
import Deskhand.Proofs.BlockExtent
import Deskhand.Proofs.Indentation
import Deskhand.Proofs.Repetition
import Deskhand.Proofs.KeyCodes
import Deskhand.Proofs.TableEdge
import Deskhand.Proofs.UnfinishedFunction
import Deskhand.Proofs.SeedIndependence
import Deskhand.Proofs.CommandCoverage
import Deskhand.Proofs.SpacedDelays
import Deskhand.Proofs.Spacing
import Deskhand.Proofs.NormalForm
import Deskhand.Proofs.SearchResults
import Deskhand.Proofs.SpacedCommands
import Deskhand.Proofs.Covering
import Deskhand.Proofs.RespacedMachines
import Deskhand.Proofs.RespacedScripts
import Deskhand.Proofs.NormalisedKeystrokes
import Deskhand.Proofs.KeySlots
import Deskhand.Proofs.PointerMoves
import Deskhand.Proofs.DelayAgreement
