import MusicMacro.CommandLine
import MusicMacro.Document
import MusicMacro.Document.JsonReader
import MusicMacro.Document.JsonWriter
import MusicMacro.Event
import MusicMacro.Main
import MusicMacro.Midi.File
import MusicMacro.Midi.Note
import MusicMacro.Midi.Track
import MusicMacro.Notation.Batch
import MusicMacro.Notation.Compile
import MusicMacro.Notation.Directive
import MusicMacro.Notation.Error
import MusicMacro.Notation.Segment
import MusicMacro.Notation.Token
import MusicMacro.Number.Basic
import MusicMacro.Number.Decimal
import MusicMacro.Number.Double
import MusicMacro.Number.Error
import MusicMacro.Number.Literal
import MusicMacro.Number.Rounding
import MusicMacro.Payload
import MusicMacro.Payload.Base64
import MusicMacro.Pitch
import MusicMacro.Playback.Command
import MusicMacro.Playback.Control
import MusicMacro.Playback.Dispatch
import MusicMacro.Playback.Part
import MusicMacro.Playback.Session
import MusicMacro.Playback.Source
import MusicMacro.Proofs.Computation
import MusicMacro.Proofs.Document.Json
import MusicMacro.Proofs.Document.Numerals
import MusicMacro.Proofs.Document.Strings
import MusicMacro.Proofs.Midi.Balance
import MusicMacro.Proofs.Midi.Boundaries
import MusicMacro.Proofs.Midi.Decoding
import MusicMacro.Proofs.Midi.Encoding
import MusicMacro.Proofs.Midi.Messages
import MusicMacro.Proofs.Midi.Pairing
import MusicMacro.Proofs.Midi.Tempo
import MusicMacro.Proofs.Midi.Ticks
import MusicMacro.Proofs.Midi.Writing
import MusicMacro.Proofs.Notation.Batch
import MusicMacro.Proofs.Notation.Compilation
import MusicMacro.Proofs.Notation.Events
import MusicMacro.Proofs.Notation.FirstError
import MusicMacro.Proofs.Notation.Folding
import MusicMacro.Proofs.Notation.Grammar
import MusicMacro.Proofs.Notation.Lengths
import MusicMacro.Proofs.Notation.Letters
import MusicMacro.Proofs.Notation.Overlaps
import MusicMacro.Proofs.Notation.Policy
import MusicMacro.Proofs.Notation.Reference
import MusicMacro.Proofs.Notation.Refusals
import MusicMacro.Proofs.Notation.Scanning
import MusicMacro.Proofs.Notation.Strays
import MusicMacro.Proofs.Notation.Ties
import MusicMacro.Proofs.Notation.Timeline
import MusicMacro.Proofs.Notation.TokenDigits
import MusicMacro.Proofs.Notation.Tokens
import MusicMacro.Proofs.Notation.Transposition
import MusicMacro.Proofs.Notation.WellFormed
import MusicMacro.Proofs.Number.Bounds
import MusicMacro.Proofs.Number.Decimal
import MusicMacro.Proofs.Number.Double
import MusicMacro.Proofs.Number.Rounding
import MusicMacro.Proofs.Number.Shortest
import MusicMacro.Proofs.Payload.Base64
import MusicMacro.Proofs.Payload.References
import MusicMacro.Proofs.Payload.Reimport
import MusicMacro.Proofs.Payload.Sharing
import MusicMacro.Proofs.Pitch
import MusicMacro.Proofs.Playback.Alternation
import MusicMacro.Proofs.Playback.Comparison
import MusicMacro.Proofs.Playback.Cues
import MusicMacro.Proofs.Playback.Dispatch
import MusicMacro.Proofs.Playback.Finality
import MusicMacro.Proofs.Playback.Generations
import MusicMacro.Proofs.Playback.Generators
import MusicMacro.Proofs.Playback.Hushing
import MusicMacro.Proofs.Playback.Idle
import MusicMacro.Proofs.Playback.Independence
import MusicMacro.Proofs.Playback.Invariant
import MusicMacro.Proofs.Playback.Log
import MusicMacro.Proofs.Playback.Matching
import MusicMacro.Proofs.Playback.Outcome
import MusicMacro.Proofs.Playback.Outlook
import MusicMacro.Proofs.Playback.Pause
import MusicMacro.Proofs.Playback.Preparation
import MusicMacro.Proofs.Playback.Run
import MusicMacro.Proofs.Playback.RunOut
import MusicMacro.Proofs.Playback.Schedule
import MusicMacro.Proofs.Playback.Silencing
import MusicMacro.Proofs.Playback.Starting
import MusicMacro.Proofs.Playback.Step
import MusicMacro.Proofs.Playback.Timers
import MusicMacro.Proofs.Score
import MusicMacro.Proofs.Score.Acceptance
import MusicMacro.Proofs.Score.Naming
import MusicMacro.Proofs.Song.Document
import MusicMacro.Proofs.Song.Isolation
import MusicMacro.Proofs.Song.Layers
import MusicMacro.Proofs.Song.Library
import MusicMacro.Proofs.Song.Listing
import MusicMacro.Proofs.Song.Requests
import MusicMacro.Proofs.Storage.FileTree
import MusicMacro.Proofs.Text.Digits
import MusicMacro.Proofs.Text.Pieces
import MusicMacro.Proofs.Timestamp
import MusicMacro.Proofs.Tool.Agreement
import MusicMacro.Proofs.Tool.Containment
import MusicMacro.Proofs.Tool.Midi
import MusicMacro.Rhythm
import MusicMacro.Score
import MusicMacro.Settings
import MusicMacro.Song
import MusicMacro.Song.Library
import MusicMacro.Storage.FileTree
import MusicMacro.Storage.Path
import MusicMacro.Text.Alphanumeric
import MusicMacro.Text.Blank
import MusicMacro.Text.Boundaries
import MusicMacro.Text.Digit
import MusicMacro.Text.Pieces
import MusicMacro.Text.Printable
import MusicMacro.Text.Quoted
import MusicMacro.Text.Scalar
import MusicMacro.Timestamp
import MusicMacro.Tool.Call
import MusicMacro.Tool.Workspace
import MusicMacro.Validation
import MusicMacro.Warning
