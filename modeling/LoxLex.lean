import LoxLex.CommandLine.Flag
import LoxLex.CommandLine.Parse
import LoxLex.CommandLine.Reading
import LoxLex.Cursor
import LoxLex.Diagnostic
import LoxLex.Files.Scan
import LoxLex.Files.Tree
import LoxLex.Main
import LoxLex.Number.Double
import LoxLex.Number.Numeral
import LoxLex.Number.Shortest
import LoxLex.Piece
import LoxLex.Probe
import LoxLex.Program
import LoxLex.Reporter
import LoxLex.Run
import LoxLex.Scan
import LoxLex.Session
import LoxLex.Settings
import LoxLex.Sink
import LoxLex.Text.Basic
import LoxLex.Text.LineEnd
import LoxLex.Text.Quoted
import LoxLex.Text.Utf8
import LoxLex.Token.Basic
import LoxLex.Token.Kind
import LoxLex.Proofs.Lexeme
import LoxLex.Proofs.Reading
import LoxLex.Proofs.Events
import LoxLex.Proofs.LongestMatch
import LoxLex.Proofs.Location
import LoxLex.Proofs.Modes
import LoxLex.Proofs.Rendering
import LoxLex.Proofs.Blanking
import LoxLex.Proofs.Console
import LoxLex.Proofs.Joining
import LoxLex.Proofs.Prompt
import LoxLex.Proofs.Encoding
import LoxLex.Proofs.Lines
import LoxLex.Proofs.Script
import LoxLex.Proofs.Agreement
import LoxLex.Proofs.Rescan
import LoxLex.Proofs.Objects
import LoxLex.Proofs.Operations
import LoxLex.Proofs.Refusals
import LoxLex.Proofs.Notices
import LoxLex.Proofs.History
import LoxLex.Proofs.FileRun
import LoxLex.Proofs.Decoding
import LoxLex.Proofs.LineEnds
import LoxLex.Proofs.Extension
import LoxLex.Proofs.FileScan
import LoxLex.Proofs.Spacing
import LoxLex.Proofs.Foreign
import LoxLex.Proofs.Meaning
import LoxLex.Proofs.Ladder
import LoxLex.Proofs.Rounding
import LoxLex.Proofs.Numbers
import LoxLex.Proofs.Digits
import LoxLex.Proofs.Shortest
import LoxLex.Proofs.Written
import LoxLex.Proofs.Listing
import LoxLex.Proofs.Quoting
import LoxLex.Proofs.NumberText
import LoxLex.Proofs.Display
import LoxLex.Proofs.Silencing
import LoxLex.Proofs.Flags
import LoxLex.Proofs.Probing
import LoxLex.Proofs.Progress
