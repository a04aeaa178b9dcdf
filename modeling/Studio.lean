import Studio.Action
import Studio.AnyFault
import Studio.Capability
import Studio.CommandLine.Arguments
import Studio.CommandLine.Execution
import Studio.CommandLine.Report
import Studio.Config.Basic
import Studio.Config.Fault
import Studio.Config.Overrides
import Studio.Delivery.Buffer
import Studio.Delivery.Merge
import Studio.Delivery.Split
import Studio.Fields
import Studio.Files.Disk
import Studio.Files.Fault
import Studio.Files.Path
import Studio.Files.Task
import Studio.Json.Basic
import Studio.Json.Fault
import Studio.Json.Members
import Studio.Json.Reader
import Studio.Json.Scan
import Studio.Json.Shape
import Studio.Json.Writer
import Studio.Main
import Studio.Methods.Basic
import Studio.Methods.Chords
import Studio.Methods.Drums
import Studio.Methods.Tracks
import Studio.Music.Chord
import Studio.Music.Fault
import Studio.Music.Grid
import Studio.Music.Layout
import Studio.Music.Note
import Studio.Number.Binary
import Studio.Number.Fixed
import Studio.Number.Reading
import Studio.Number.Shortest
import Studio.Number.Written
import Studio.Payload.Basic
import Studio.Payload.Chords
import Studio.Payload.Description
import Studio.Payload.Drums
import Studio.Production.Basic
import Studio.Production.Composer
import Studio.Production.Generator
import Studio.Production.Performance
import Studio.Production.Prompt
import Studio.Proofs.Config.RoundTrip
import Studio.Proofs.Delivery.Account
import Studio.Proofs.Delivery.Agreement
import Studio.Proofs.Delivery.Conservation
import Studio.Proofs.Delivery.Deletion
import Studio.Proofs.Delivery.Dependencies
import Studio.Proofs.Delivery.Filling
import Studio.Proofs.Delivery.Listening
import Studio.Proofs.Delivery.Merging
import Studio.Proofs.Delivery.Ordering
import Studio.Proofs.Delivery.Unattached
import Studio.Proofs.Grammar.Acceptance
import Studio.Proofs.Grammar.Contents
import Studio.Proofs.Grammar.Forms
import Studio.Proofs.Grammar.Harmonic
import Studio.Proofs.Grammar.Meanings
import Studio.Proofs.Grammar.Percussive
import Studio.Proofs.Grammar.Phrases
import Studio.Proofs.Grammar.Structural
import Studio.Proofs.Json.Accepting
import Studio.Proofs.Json.Numerals
import Studio.Proofs.Json.Ordering
import Studio.Proofs.Json.Scanning
import Studio.Proofs.Json.Spacing
import Studio.Proofs.Json.Yielding
import Studio.Proofs.Methods.Effects
import Studio.Proofs.Methods.Inversions
import Studio.Proofs.Methods.Parameters
import Studio.Proofs.Methods.Plans
import Studio.Proofs.Methods.Rendering
import Studio.Proofs.Music.Grids
import Studio.Proofs.Music.Machine
import Studio.Proofs.Music.Readings
import Studio.Proofs.Music.Resolution
import Studio.Proofs.Music.Sequences
import Studio.Proofs.Music.Symbols
import Studio.Proofs.Music.Voicing
import Studio.Proofs.Number.Exactness
import Studio.Proofs.Number.Finiteness
import Studio.Proofs.Number.Order
import Studio.Proofs.Number.Signs
import Studio.Proofs.Number.Sums
import Studio.Proofs.Payload.Harmony
import Studio.Proofs.Payload.Overflow
import Studio.Proofs.Payload.Percussion
import Studio.Proofs.Payload.Ranges
import Studio.Proofs.Production.Cancelling
import Studio.Proofs.Production.Completion
import Studio.Proofs.Production.Rendering
import Studio.Proofs.Production.Replies
import Studio.Proofs.Production.Streaming
import Studio.Proofs.Provider.Chunks
import Studio.Proofs.Provider.Deltas
import Studio.Proofs.Request.Completion
import Studio.Proofs.Request.Launching
import Studio.Proofs.Request.NormalForm
import Studio.Proofs.Request.Policy
import Studio.Proofs.Request.Showing
import Studio.Proofs.Script.Composites
import Studio.Proofs.Script.Filtering
import Studio.Proofs.Script.Freshness
import Studio.Proofs.Script.Grounding
import Studio.Proofs.Script.Growth
import Studio.Proofs.Script.Invariants
import Studio.Proofs.Script.Iteration
import Studio.Proofs.Script.NamedArguments
import Studio.Proofs.Script.Numbering
import Studio.Proofs.Script.Printing
import Studio.Proofs.Script.Programs
import Studio.Proofs.Script.Readers
import Studio.Proofs.Script.Selection
import Studio.Proofs.Script.Sentences
import Studio.Proofs.Script.Spelling
import Studio.Proofs.Script.Steps
import Studio.Proofs.Script.Values
import Studio.Proofs.Session.Reencoding
import Studio.Proofs.Text.Cutting
import Studio.Proofs.Text.Lowercase
import Studio.Provider.Basic
import Studio.Provider.Call
import Studio.Provider.EventStream
import Studio.Provider.Fault
import Studio.Provider.Replay
import Studio.Provider.Reply
import Studio.Provider.Response
import Studio.Provider.Service
import Studio.Provider.Settings
import Studio.Request.Classification
import Studio.Request.Conductor
import Studio.Request.Fault
import Studio.Request.Keywords
import Studio.Request.Terms
import Studio.Script.Arguments
import Studio.Script.Collection
import Studio.Script.Execution
import Studio.Script.Fault
import Studio.Script.Parser
import Studio.Script.Render
import Studio.Script.State
import Studio.Script.Target
import Studio.Script.Value
import Studio.Session.Entity
import Studio.Session.Format
import Studio.Session.Snapshot
import Studio.Text.Blank
import Studio.Text.Case
import Studio.Text.CaseData
import Studio.Text.Quoted
import Studio.Text.Rest
import Studio.Text.Utf8
import Studio.Text.VisibleData
import Studio.Timing
