import LoopPainter.Binary64
import LoopPainter.Binary64.Places
import LoopPainter.Binary64.Shortest
import LoopPainter.Bytes.Bits
import LoopPainter.Bytes.Checksum
import LoopPainter.Bytes.Order
import LoopPainter.Calendar
import LoopPainter.Canvas
import LoopPainter.Color
import LoopPainter.CommandLine.Flag
import LoopPainter.CommandLine.Help
import LoopPainter.CommandLine.Reader
import LoopPainter.Datum
import LoopPainter.Encoding
import LoopPainter.Encoding.Bmp
import LoopPainter.Encoding.Gif
import LoopPainter.Encoding.Jpeg
import LoopPainter.Encoding.Pcx
import LoopPainter.Encoding.Png
import LoopPainter.Encoding.Tiff
import LoopPainter.Export
import LoopPainter.Gallery
import LoopPainter.Heading
import LoopPainter.Job
import LoopPainter.Job.File
import LoopPainter.Job.Issue
import LoopPainter.Job.Reader
import LoopPainter.Journal
import LoopPainter.Journal.Fields
import LoopPainter.Journal.Handler
import LoopPainter.Journal.Incident
import LoopPainter.Journal.Level
import LoopPainter.Journal.Record
import LoopPainter.Journal.Setup
import LoopPainter.Json.Parser
import LoopPainter.Json.Printer
import LoopPainter.Machine
import LoopPainter.Machine.Run
import LoopPainter.Main
import LoopPainter.Painter
import LoopPainter.Path
import LoopPainter.Picture
import LoopPainter.Picture.File
import LoopPainter.Proofs.Brackets.Depth
import LoopPainter.Proofs.Brackets.Entered
import LoopPainter.Proofs.Brackets.Outline
import LoopPainter.Proofs.Brackets.Pairs
import LoopPainter.Proofs.Cells
import LoopPainter.Proofs.Displacement
import LoopPainter.Proofs.Easel
import LoopPainter.Proofs.Gallery
import LoopPainter.Proofs.Job.Accepted
import LoopPainter.Proofs.Job.Checks
import LoopPainter.Proofs.Job.Issues
import LoopPainter.Proofs.Job.Replay
import LoopPainter.Proofs.Job.Values
import LoopPainter.Proofs.Journal.Changes
import LoopPainter.Proofs.Journal.Confined
import LoopPainter.Proofs.Journal.Context
import LoopPainter.Proofs.Journal.Handlers
import LoopPainter.Proofs.Journal.JsonLines
import LoopPainter.Proofs.Journal.Refused
import LoopPainter.Proofs.Journal.Setup
import LoopPainter.Proofs.Journal.Shadowing
import LoopPainter.Proofs.Json.RoundTrip
import LoopPainter.Proofs.Laps
import LoopPainter.Proofs.Machine.ClosedFigures
import LoopPainter.Proofs.Machine.Control
import LoopPainter.Proofs.Machine.Counts
import LoopPainter.Proofs.Machine.Halting
import LoopPainter.Proofs.Machine.Interference
import LoopPainter.Proofs.Machine.LoopState
import LoopPainter.Proofs.Machine.Painted
import LoopPainter.Proofs.Machine.Passage
import LoopPainter.Proofs.Machine.Step
import LoopPainter.Proofs.Machine.StepBound
import LoopPainter.Proofs.Machine.Unrolling
import LoopPainter.Proofs.Machine.Walk
import LoopPainter.Proofs.Names
import LoopPainter.Proofs.Palette
import LoopPainter.Proofs.Path
import LoopPainter.Proofs.ReadOuts
import LoopPainter.Proofs.Render.Animation
import LoopPainter.Proofs.Render.Drawing
import LoopPainter.Proofs.Render.Failures
import LoopPainter.Proofs.Render.Formats
import LoopPainter.Proofs.Render.Outcome
import LoopPainter.Proofs.Render.Playback
import LoopPainter.Proofs.Render.Sequence
import LoopPainter.Proofs.Render.Still
import LoopPainter.Proofs.Render.Summary
import LoopPainter.Proofs.Render.Timeline
import LoopPainter.Proofs.Results
import LoopPainter.Proofs.Sampler
import LoopPainter.Proofs.Sampler.Viewing
import LoopPainter.Proofs.Session.Escapes
import LoopPainter.Proofs.Session.Override
import LoopPainter.Proofs.Session.Refusals
import LoopPainter.Proofs.Store.Actions
import LoopPainter.Proofs.Store.Clear
import LoopPainter.Proofs.Store.Filling
import LoopPainter.Proofs.Store.Obstacles
import LoopPainter.Proofs.Store.Places
import LoopPainter.Proofs.Store.Saving
import LoopPainter.Proofs.Store.Scratch
import LoopPainter.Proofs.Symmetry
import LoopPainter.Proofs.Text.Digits
import LoopPainter.Proofs.Text.LetterCase
import LoopPainter.Proofs.Vocabulary
import LoopPainter.Proofs.Yaml.Blocks
import LoopPainter.Proofs.Yaml.Building
import LoopPainter.Proofs.Yaml.Circles
import LoopPainter.Proofs.Yaml.Cursor
import LoopPainter.Proofs.Yaml.File
import LoopPainter.Proofs.Yaml.Layout
import LoopPainter.Proofs.Yaml.Lexing
import LoopPainter.Proofs.Yaml.Meaning
import LoopPainter.Proofs.Yaml.Numbers
import LoopPainter.Proofs.Yaml.Parsing
import LoopPainter.Proofs.Yaml.Pieces
import LoopPainter.Proofs.Yaml.Plain
import LoopPainter.Proofs.Yaml.Quoted
import LoopPainter.Proofs.Yaml.RoundTrip
import LoopPainter.Proofs.Yaml.Scalars
import LoopPainter.Proofs.Yaml.Sound
import LoopPainter.Raster
import LoopPainter.Render
import LoopPainter.Render.Drawing
import LoopPainter.Render.Note
import LoopPainter.Sampler
import LoopPainter.Session
import LoopPainter.Session.Paths
import LoopPainter.Store
import LoopPainter.Store.Atomic
import LoopPainter.Store.Change
import LoopPainter.Template
import LoopPainter.Template.Fill
import LoopPainter.Text.Blank
import LoopPainter.Text.Cased
import LoopPainter.Text.Digits
import LoopPainter.Text.LetterCase
import LoopPainter.Text.Newline
import LoopPainter.Text.Printable
import LoopPainter.Text.Quoted
import LoopPainter.Vocabulary
import LoopPainter.Yaml.Builder
import LoopPainter.Yaml.Cursor
import LoopPainter.Yaml.Fault
import LoopPainter.Yaml.File
import LoopPainter.Yaml.Layout
import LoopPainter.Yaml.Node
import LoopPainter.Yaml.Printer
import LoopPainter.Yaml.Scalar
import LoopPainter.Yaml.Tag
import LoopPainter.Yaml.Timestamp
import LoopPainter.Yaml.Token
import LoopPainter.Yaml.Value
