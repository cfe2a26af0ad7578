import TableAccess.Main
import TableAccess.Handler.Run
import TableAccess.Row.Json
import TableAccess.Cursor.Run
import TableAccess.Proofs.Cursor.Run
import TableAccess.Proofs.Number.Digits
import TableAccess.Proofs.Text.Utf8
import TableAccess.Proofs.Query.Grammar
import TableAccess.Proofs.Date.Reader
import TableAccess.Proofs.Dbase.Cell
import TableAccess.Proofs.Dbase.Layout
import TableAccess.Proofs.Dbase.RoundTrip
import TableAccess.Proofs.Json.Escape
import TableAccess.Proofs.Json.Number
import TableAccess.Proofs.Json.RoundTrip
import TableAccess.Proofs.Document.Basic
import TableAccess.Proofs.Document.RoundTrip
import TableAccess.Proofs.Json.Keys
import TableAccess.Proofs.Document.Reachable
import TableAccess.Proofs.Csv.RoundTrip
import TableAccess.Proofs.Dbase.Acceptance
import TableAccess.Proofs.Handler.Run
import TableAccess.Proofs.Handler.Memory
import TableAccess.Proofs.Handler.Lifecycle
import TableAccess.Proofs.Number.Ascii
import TableAccess.Proofs.Dbase.Sizes
import TableAccess.Proofs.Document.Acceptance
import TableAccess.Proofs.Query.Selection
import TableAccess.Proofs.FileTree.Write
import TableAccess.Proofs.Handler.Export
import TableAccess.Proofs.Handler.Turns
import TableAccess.Proofs.Handler.Sql
import TableAccess.Proofs.Handler.Secrecy
import TableAccess.Proofs.Number.Rounding
import TableAccess.Proofs.Number.Arithmetic
import TableAccess.Proofs.Number.Shortest
import TableAccess.Proofs.Json.Scale
import TableAccess.Proofs.Json.Division
import TableAccess.Proofs.Json.Decimal
import TableAccess.Proofs.Json.Reread
import TableAccess.Proofs.Document.Reload
import TableAccess.Proofs.Dbase.Storable
import TableAccess.Proofs.Dbase.Descriptions
import TableAccess.Proofs.Sql.Identifier
import TableAccess.Proofs.Sqlite.Selection
import TableAccess.Proofs.FileTree.Place
import TableAccess.Proofs.Handler.Listing
import TableAccess.Proofs.Command.Browse
import TableAccess.Proofs.Json.Grammar
import TableAccess.Proofs.Json.Context
import TableAccess.Proofs.Connection.Record
import TableAccess.Proofs.Command.Secrecy
import TableAccess.Proofs.Dbase.Footprint
import TableAccess.Proofs.Dbase.Deletion
import TableAccess.Proofs.Date.Grammar
import TableAccess.Proofs.Dbase.Dates
import TableAccess.Proofs.Number.Whole
import TableAccess.Proofs.Dbase.Numbers
import TableAccess.Proofs.Cursor.Failure
import TableAccess.Proofs.Document.Additions
import TableAccess.Proofs.Server.Selection
import TableAccess.Proofs.Handler.Opening
import TableAccess.Proofs.Row.Conversion
import TableAccess.Proofs.Server.ArrayText
import TableAccess.Proofs.Date.Hyphenated
import TableAccess.Proofs.Sqlite.Carrying
import TableAccess.Proofs.Sqlite.TableNames
import TableAccess.Proofs.Server.Loss
import TableAccess.Proofs.Json.Fields
import TableAccess.Proofs.Server.Integers
import TableAccess.Proofs.Server.Reports
import TableAccess.Proofs.Row.Json
import TableAccess.Proofs.Connection.RoundTrip
import TableAccess.Proofs.Text.Case
import TableAccess.Proofs.Path.Extension
import TableAccess.Proofs.Connection.Resolution
import TableAccess.Proofs.Command.Resolution
