import RowMapping.Cursor.Buffered
import RowMapping.Grid.Suspending
import RowMapping.Layout.Record
import RowMapping.Polymorphic
import RowMapping.Template.Rewriter
import RowMapping.Proofs.Cache.Sessions
import RowMapping.Proofs.Cache.Transparency
import RowMapping.Proofs.Conversion.NumericPairs
import RowMapping.Proofs.Conversion.PlannedRead
import RowMapping.Proofs.Grid.Delivery
import RowMapping.Proofs.Grid.First
import RowMapping.Proofs.Grid.Protocol
import RowMapping.Proofs.Template.BoundNames
import RowMapping.Proofs.Template.Noninterference
import RowMapping.Proofs.Template.Substitution
import RowMapping.Proofs.Materialize.DistinctNames
import RowMapping.Proofs.Materialize.Records
import RowMapping.Proofs.Materialize.FieldByField
import RowMapping.Proofs.Cache.Lookup
import RowMapping.Proofs.Polymorphic.Dispatch
import RowMapping.Proofs.Cache.Counters
import RowMapping.Proofs.Grid.Interruption
import RowMapping.Proofs.Row.Family
import RowMapping.Proofs.Row.Contents
import RowMapping.Proofs.Template.Division
import RowMapping.Proofs.Template.HiddenText
import RowMapping.Proofs.Template.ScannedOnce
import RowMapping.Proofs.Template.ByteScanning
import RowMapping.Proofs.Template.Keyword
import RowMapping.Proofs.Template.Refusals
import RowMapping.Proofs.Template.Bracketed
import RowMapping.Proofs.Materialize.Members
import RowMapping.Proofs.Template.DisabledTokens
import RowMapping.Proofs.Template.Padding
import RowMapping.Proofs.Materialize.MissingObjects
import RowMapping.Proofs.Materialize.Projection
import RowMapping.Proofs.Conversion.Stability
import RowMapping.Proofs.Conversion.ThereAndBack
import RowMapping.Proofs.Conversion.Variants
import RowMapping.Proofs.Row.MapView
import RowMapping.Proofs.Template.ParameterNames
import RowMapping.Proofs.Template.ParameterOrder
import RowMapping.Proofs.Template.OptionTexts
