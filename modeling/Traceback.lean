import Traceback.Main
import Traceback.Host
import Traceback.Pattern.Reader
import Traceback.Proofs.Text.WellFormed
import Traceback.Proofs.Store.Codec
import Traceback.Proofs.Store.Reading
import Traceback.Proofs.Store.Record
import Traceback.Proofs.Store.Truncation
import Traceback.Proofs.Store.Shrinking
import Traceback.Proofs.Store.Extent
import Traceback.Proofs.Exception.Lineage
import Traceback.Proofs.Report.Flattening
import Traceback.Proofs.Report.Layouts
import Traceback.Proofs.Formatter.Alignment
import Traceback.Proofs.FileTree
import Traceback.Proofs.Report.Agreement
import Traceback.Proofs.Store
import Traceback.Proofs.Host.Handling
import Traceback.Proofs.CommandLine.Session
import Traceback.Proofs.LineCache
import Traceback.Proofs.Report.SyntaxFrame
import Traceback.Proofs.Template
import Traceback.Proofs.Json.Reading
import Traceback.Proofs.Json.Ignoring
import Traceback.Proofs.Json.Record
import Traceback.Proofs.Exception.Json
import Traceback.Proofs.Formatter.Boundary
import Traceback.Proofs.Underline.Brackets
import Traceback.Proofs.Frame.SyntaxColumns
import Traceback.Proofs.Rule
import Traceback.Proofs.Rule.Ancestry
import Traceback.Proofs.Catalog.Operands
import Traceback.Proofs.Catalog.QuotedNames
import Traceback.Proofs.Catalog.SyntaxMessage
import Traceback.Proofs.Formatter.Raising
import Traceback.Proofs.Rule.Growth
import Traceback.Proofs.Text.Rounding
import Traceback.Proofs.Text.Parts
import Traceback.Proofs.Text.Dedent
import Traceback.Proofs.Underline.Words
import Traceback.Proofs.Report.Captured
import Traceback.Proofs.Formatter.Location
