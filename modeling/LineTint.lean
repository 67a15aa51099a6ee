import LineTint.Arguments
import LineTint.Cache
import LineTint.Color
import LineTint.Config
import LineTint.Decimal
import LineTint.Edit
import LineTint.Engine
import LineTint.FilePath
import LineTint.FileSystem
import LineTint.Grammar
import LineTint.Highlighter
import LineTint.Language
import LineTint.LineFilter
import LineTint.Locations
import LineTint.Main
import LineTint.Manual
import LineTint.NameHash
import LineTint.Painting
import LineTint.Parser
import LineTint.Program
import LineTint.Query
import LineTint.Report
import LineTint.Span
import LineTint.Style
import LineTint.Table
import LineTint.Text.Blank
import LineTint.Text.Column
import LineTint.Text.Digit
import LineTint.Text.Dotted
import LineTint.Text.LineBreak
import LineTint.Text.Printable
import LineTint.Text.Quoted
import LineTint.Text.Utf8
import LineTint.Theme.Basic
import LineTint.Theme.Builtin
import LineTint.Theme.Data
import LineTint.Theme.Library
import LineTint.Token
import LineTint.Yaml.Atom
import LineTint.Yaml.Mark
import LineTint.Yaml.Node
import LineTint.Yaml.Portion
import LineTint.Yaml.Print
import LineTint.Yaml.Reading
import LineTint.Yaml.Scalar
import LineTint.Yaml.Scan
import LineTint.Yaml.Token
import LineTint.Proofs.Entry
import LineTint.Proofs.History
import LineTint.Proofs.LastWrite
import LineTint.Proofs.Session
import LineTint.Proofs.PaintedOffset
import LineTint.Proofs.CharBytes
import LineTint.Proofs.EditParts
import LineTint.Proofs.KeptLine
import LineTint.Proofs.LineSplit
import LineTint.Proofs.MovedLine
import LineTint.Proofs.Pruning
import LineTint.Proofs.SingleCalls
import LineTint.Proofs.OwnQuery
import LineTint.Proofs.PathSteps
import LineTint.Proofs.FilePlace
import LineTint.Proofs.ProgramRun
import LineTint.Proofs.BuiltinTheme
import LineTint.Proofs.PrintedText
import LineTint.Proofs.PrintedLines
import LineTint.Proofs.ThemeChoice
import LineTint.Proofs.CharDecoding
import LineTint.Proofs.ParentPath
import LineTint.Proofs.MadeDirectories
import LineTint.Proofs.SavedConfig
import LineTint.Proofs.TightEdit
import LineTint.Proofs.FirstOffer
import LineTint.Proofs.CacheHistory
import LineTint.Proofs.RequestOrder
import LineTint.Proofs.TouchedLines
import LineTint.Proofs.Success
import LineTint.Proofs.NearestTag
import LineTint.Proofs.ColorText
import LineTint.Proofs.FileEnding
import LineTint.Proofs.ExactPart
import LineTint.Proofs.ParseHistory
import LineTint.Proofs.LineNumbers
import LineTint.Proofs.ColorRoundTrip
import LineTint.Proofs.EditPoints
