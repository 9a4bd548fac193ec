import PadScript.Arguments
import PadScript.Base64
import PadScript.Binary64
import PadScript.Command
import PadScript.Expression
import PadScript.Fault
import PadScript.FileSystem
import PadScript.FileTree
import PadScript.FrameTable
import PadScript.Header
import PadScript.Help
import PadScript.Include
import PadScript.Inspect
import PadScript.Json.Bracket
import PadScript.Json.Fault
import PadScript.Json.Lexeme
import PadScript.Json.Record
import PadScript.Json.Skip
import PadScript.Json.Value
import PadScript.Line
import PadScript.Main
import PadScript.Packet
import PadScript.Path
import PadScript.Proofs.Base64
import PadScript.Proofs.Compiling
import PadScript.Proofs.Concatenation
import PadScript.Proofs.Contract
import PadScript.Proofs.Coordinate
import PadScript.Proofs.DefaultOutput
import PadScript.Proofs.DepthLimit
import PadScript.Proofs.Duration
import PadScript.Proofs.EntryPoints
import PadScript.Proofs.Expansion
import PadScript.Proofs.Expression
import PadScript.Proofs.FileName
import PadScript.Proofs.FileTree
import PadScript.Proofs.Flattening
import PadScript.Proofs.FrameOrder
import PadScript.Proofs.FrameTable
import PadScript.Proofs.HeaderTable
import PadScript.Proofs.Help
import PadScript.Proofs.IncludePath
import PadScript.Proofs.IncludeTarget
import PadScript.Proofs.InspectRow
import PadScript.Proofs.Json.Layout
import PadScript.Proofs.Json.Record
import PadScript.Proofs.Json.Value
import PadScript.Proofs.Json.Word
import PadScript.Proofs.Layout
import PadScript.Proofs.LetterCase
import PadScript.Proofs.Line
import PadScript.Proofs.Lookup
import PadScript.Proofs.NameTable
import PadScript.Proofs.Numeral
import PadScript.Proofs.OpenFiles
import PadScript.Proofs.Parentheses
import PadScript.Proofs.Performance
import PadScript.Proofs.Playback
import PadScript.Proofs.Playing
import PadScript.Proofs.Recording
import PadScript.Proofs.Refusal
import PadScript.Proofs.Remark
import PadScript.Proofs.Result
import PadScript.Proofs.Rings
import PadScript.Proofs.Spelling
import PadScript.Proofs.Text
import PadScript.Proofs.Timeline
import PadScript.Proofs.TokenOrder
import PadScript.Proofs.Utf8
import PadScript.Proofs.Writing
import PadScript.Recording
import PadScript.Script
import PadScript.Symbol
import PadScript.Text.Blank
import PadScript.Text.Lines
import PadScript.Text.Numeral
import PadScript.Text.Quoted
import PadScript.Text.Unprintable
import PadScript.Text.Utf8
import PadScript.Timeline
