import StyledText.Bracket
import StyledText.Buffer
import StyledText.Buffer.Editing
import StyledText.CFamily
import StyledText.CFamily.Resume
import StyledText.CFamily.Scan
import StyledText.CFamily.Settings
import StyledText.CFamily.Style
import StyledText.CFamily.Transition
import StyledText.CFamily.Vocabulary
import StyledText.Catalog
import StyledText.CharKind
import StyledText.CharSet
import StyledText.ConfigError
import StyledText.Cursor
import StyledText.Document
import StyledText.Document.Columns
import StyledText.Document.Editing
import StyledText.Document.Event
import StyledText.EditLog
import StyledText.Lexer
import StyledText.LineTable
import StyledText.Quoted
import StyledText.Text
import StyledText.Unicode.LetterCase
import StyledText.Unicode.Printable
import StyledText.Unicode.Ranges
import StyledText.Unicode.WhiteSpace
import StyledText.Unicode.Width
import StyledText.Window
import StyledText.WordSet
import StyledText.Proofs.LinePatch
import StyledText.Proofs.BufferRun
import StyledText.Proofs.Coverage
import StyledText.Proofs.UndoRedo
import StyledText.Proofs.SavePoint
import StyledText.Proofs.LineSight
import StyledText.Proofs.Abreast
import StyledText.Proofs.Shown
import StyledText.Proofs.Resumption
import StyledText.Proofs.LineByLine
import StyledText.Proofs.Restyling
import StyledText.Proofs.OtherWindow
import StyledText.Proofs.Locality
import StyledText.Proofs.Relexing
import StyledText.Proofs.Words
import StyledText.Proofs.SplitWords
import StyledText.Proofs.LineEnds
import StyledText.Proofs.Tandem
import StyledText.Proofs.TandemMoves
import StyledText.Proofs.TandemSteps
import StyledText.Proofs.OtherLineEnds
import StyledText.Proofs.LineStops
import StyledText.Proofs.DirectiveLines
import StyledText.Proofs.Cells
import StyledText.Proofs.Watching
import StyledText.Proofs.BracketMatch
import StyledText.Proofs.BracketNesting
import StyledText.Proofs.Lasting
import StyledText.Proofs.WholeWords
import StyledText.Proofs.BlockComments
import StyledText.Proofs.QuotedLiterals
import StyledText.Proofs.Passing
import StyledText.Proofs.Operators
import StyledText.Proofs.LineComments
import StyledText.Proofs.Regexes
import StyledText.Proofs.IncludePaths
import StyledText.Proofs.Progress
import StyledText.Proofs.StyledStretch
import StyledText.Proofs.IncludeLines
import StyledText.Proofs.LetterCase
import StyledText.Proofs.Recasing
import StyledText.Proofs.RecasedWords
import StyledText.Proofs.LineParts
import StyledText.Proofs.ColumnLookup
import StyledText.Proofs.ReadOnly
import StyledText.Proofs.Redoing
import StyledText.Proofs.ListEnds
import StyledText.Proofs.CatalogLookup
import StyledText.Proofs.WrittenSettings
import StyledText.Proofs.WindowRun
import StyledText.Proofs.CursorWalk
import StyledText.Proofs.BetweenSteps
